import Courier.Dialogue
import Courier.Outbox.Retry
import Courier.Telemetry
import Courier.WorkerError

/-!
# A round of the relay

A relay claims a batch of outbox events, pushes them to the stream as one batch, and writes back
what became of them: dispatched together if the push was accepted, otherwise each to be tried again
or given up. The round is a dialogue, so that it may break off between any two of these steps.
-/

namespace Courier.Relay

open Courier.Outbox Courier.Stream

structure Config where
  policy : RetryPolicy
  batchSize : Nat
  pollInterval : Span
  lease : Span
  deriving DecidableEq, Repr

inductive Call
  | claim (limit : Nat) (lease : Span)
  | publish (batch : List Message)
  | reconcile (outcome : Outcome)
  | now
  | report (r : Report)
  | abort

/-- The answers. Nothing answers a relay that cannot go on. -/
def Call.Reply : Call → Type
  | claim .. => Except StorageError (List Claim)
  | publish _ => Except BrokerError Unit
  | reconcile _ => Except StorageError Unit
  | now => Instant
  | report _ => Unit
  | abort => Empty

def collaborators : Interface := ⟨Call, Call.Reply⟩

abbrev Talk (α : Type) := Dialogue collaborators α

structure Summary where
  claimed : Nat
  dispatched : Nat
  retried : Nat
  dead : Nat
  deriving DecidableEq, Repr

def Summary.nothing : Summary := ⟨0, 0, 0, 0⟩

/-- The message of a claimed event: the text of its payload under its type. -/
def messageOf (c : Claim) : Message := ⟨c.eventType, c.payload.text, c.id⟩

def ask (c : Call) : Talk c.Reply := Dialogue.call (I := collaborators) c

def report (r : Report) : Talk Unit := ask (.report r)

/-- The decisions on a batch whose push failed; none when some next time is out of reach. -/
def decisions? (p : RetryPolicy) (batch : List Claim) (now : Instant) : Option (List Decision) :=
  batch.mapM fun c => p.decide? c.id c.attempts now

def burials (ds : List Decision) : List Report :=
  ds.filterMap fun
    | .dead id attempts => some (.line .error "Outbox event moved to dead state"
        [("id", .number id), ("attempts", .number attempts)])
    | .retry .. => none

def settleAccepted (batch : List Claim) : Talk (Except WorkerError Summary) := do
  let n := batch.length
  match ← ask (.reconcile (.dispatched batch)) with
  | .error e => return .error (.storage e)
  | .ok _ =>
    report (.count .relayDispatched n)
    report (.line .debug "Outbox batch dispatched" [("count", .number n)])
    return .ok ⟨n, n, 0, 0⟩

def settleRefused (batch : List Claim) (ds : List Decision) (e : BrokerError) :
    Talk (Except WorkerError Summary) := do
  let retried := ds.countP Decision.isRetry
  let dead := ds.length - retried
  (burials ds).forM report
  report (.line .warn "Failed to publish outbox batch"
    [("retried", .number retried), ("dead", .number dead)])
  match ← ask (.reconcile (.failed ds e.message)) with
  | .error e => return .error (.storage e)
  | .ok _ =>
    report (.count .relayRetried retried)
    report (.count .relayDead dead)
    return .ok ⟨batch.length, 0, retried, dead⟩

def round (cfg : Config) : Talk (Except WorkerError Summary) := do
  match ← ask (.claim cfg.batchSize cfg.lease) with
  | .error e => return .error (.storage e)
  | .ok [] => return .ok .nothing
  | .ok batch =>
    report (.count .relayClaimed batch.length)
    match ← ask (.publish (batch.map messageOf)) with
    | .ok _ => settleAccepted batch
    | .error e =>
      match decisions? cfg.policy batch (← ask .now) with
      | some ds => settleRefused batch ds e
      | none => return nomatch (← ask .abort)

end Courier.Relay
