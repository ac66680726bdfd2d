import Courier.Check.Completed
import Courier.Dialogue
import Courier.Webhook.Request
import Courier.WorkerError

/-!
# Handling a delivery

A dispatch worker posts each message of the stream to a receiver, once if it can: it asks for a
marker first, acknowledges the message only when the receiver took it or took it before, and leaves
it to be delivered again otherwise. A message that cannot be decoded is acknowledged at once, since
no later attempt would fare better. The handling is a dialogue, so that it may break off anywhere.
-/

namespace Courier.Dispatch

open Courier.Stream

structure Config where
  consumer : String
  readCount : Nat
  block : Span
  reclaimIdle : Span
  inFlightTtl : Span
  dedupeTtl : Span
  deriving DecidableEq, Repr

inductive Call
  | reclaim (consumer : String) (minIdle : Span) (count : Nat)
  | read (consumer : String) (count : Nat) (block : Span)
  | acknowledge (id : String)
  | tryBegin (key : String) (ttl : Span)
  | markDelivered (key : String) (ttl : Span)
  | send (r : Webhook.Request)
  | report (r : Report)
  deriving DecidableEq, Repr

def Call.Reply : Call → Type
  | reclaim .. => Except BrokerError (List Delivery)
  | read .. => Except BrokerError (List Delivery)
  | acknowledge _ => Except BrokerError Unit
  | tryBegin .. => Except Marker.StoreError (Option Marker)
  | markDelivered .. => Except Marker.StoreError Unit
  | send _ => Except Webhook.SendError Nat
  | report _ => Unit

def collaborators : Interface := ⟨Call, Call.Reply⟩

abbrev Talk (α : Type) := Dialogue collaborators α

inductive Outcome
  | delivered
  | duplicate
  | inFlight
  | poison
  | failed
  deriving DecidableEq, Repr

def Outcome.text : Outcome → String
  | delivered => "delivered"
  | duplicate => "duplicate"
  | inFlight => "in_flight"
  | poison => "poison"
  | failed => "failed"

/-- Why a delivery cannot be handled by anyone. -/
inductive PoisonReason
  | undecodable (e : DecodeError)
  | invalidBody
  | unknownType (eventType : String)
  deriving DecidableEq, Repr

def PoisonReason.message : PoisonReason → String
  | undecodable e => e.message
  | invalidBody => "invalid " ++ Check.eventType ++ " body"
  | unknownType eventType => "unknown event type '" ++ eventType ++ "'"

def businessKey (m : Message) : Except PoisonReason String :=
  if m.eventType = Check.eventType then
    match Check.Completed.ofText? m.body with
    | some event => .ok event.idempotencyKey
    | none => .error .invalidBody
  else .error (.unknownType m.eventType)

def decode (d : Delivery) : Except PoisonReason (Message × String) :=
  match d.message with
  | .error e => .error (.undecodable e)
  | .ok m => (businessKey m).map fun key => (m, key)

def ask (c : Call) : Talk c.Reply := Dialogue.call (I := collaborators) c

def report (r : Report) : Talk Unit := ask (.report r)

def acknowledging (id : String) (next : Talk Outcome) : Talk (Except WorkerError Outcome) := do
  match ← ask (.acknowledge id) with
  | .error e => return .error (.broker e)
  | .ok _ => return .ok (← next)

def outboxField (m : Message) : String × FieldValue := ("outbox_id", .number m.outboxId)

def post (cfg : Config) (d : Delivery) (m : Message) (idempotencyKey : String) :
    Talk (Except WorkerError Outcome) := do
  report (.count .deliveryAttempts 1)
  let answer ← ask (.send ⟨m.eventType, idempotencyKey, m.body⟩)
  report .deliveryDuration
  match answer with
  | .ok status =>
    if let .error _ ← ask (.markDelivered (Marker.key m.outboxId) cfg.dedupeTtl) then
      report (.line .warn "Failed to record delivered marker" [outboxField m])
    acknowledging d.id do
      report (.count .deliverySuccess 1)
      report (.line .info "Webhook delivered"
        [outboxField m, ("status", .number status), ("idempotency_key", .text idempotencyKey)])
      return .delivered
  | .error e =>
    report (.count (.deliveryFailed e.reason) 1)
    report (.line .warn "Webhook delivery failed, leaving message pending" [outboxField m])
    return .ok .failed

def handle (cfg : Config) (d : Delivery) : Talk (Except WorkerError Outcome) := do
  match decode d with
  | .error reason =>
    report (.line .error "Dropping undecodable message"
      [("message_id", .text d.id), ("reason", .text reason.message)])
    report (.count .poisonMessages 1)
    acknowledging d.id (return .poison)
  | .ok (m, idempotencyKey) =>
    match ← ask (.tryBegin (Marker.key m.outboxId) cfg.inFlightTtl) with
    | .error e => return .error (.markers e)
    | .ok (some .delivered) =>
      report (.line .debug "Already delivered, acknowledging" [outboxField m])
      report (.count .duplicateSkipped 1)
      acknowledging d.id (return .duplicate)
    | .ok (some .inFlight) =>
      report (.line .debug "Delivery in flight elsewhere, leaving pending" [outboxField m])
      return .ok .inFlight
    | .ok none => post cfg d m idempotencyKey

/-- The next deliveries: those that waited too long, and only if there are none, new ones. -/
def fetch (cfg : Config) : Talk (Except WorkerError (List Delivery)) := do
  match ← ask (.reclaim cfg.consumer cfg.reclaimIdle cfg.readCount) with
  | .error e => return .error (.broker e)
  | .ok [] =>
    match ← ask (.read cfg.consumer cfg.readCount cfg.block) with
    | .error e => return .error (.broker e)
    | .ok ds => return .ok ds
  | .ok ds =>
    report (.line .debug "Reclaimed idle messages"
      [("consumer", .text cfg.consumer), ("count", .number ds.length)])
    return .ok ds

def handleAll (cfg : Config) : List Delivery → Talk (Except WorkerError (List Outcome))
  | [] => return .ok []
  | d :: ds => do
    match ← handle cfg d with
    | .error e => return .error e
    | .ok o =>
      match ← handleAll cfg ds with
      | .error e => return .error e
      | .ok os => return .ok (o :: os)

def poll (cfg : Config) : Talk (Except WorkerError (List Outcome)) := do
  match ← fetch cfg with
  | .error e => return .error e
  | .ok ds => handleAll cfg ds

end Courier.Dispatch
