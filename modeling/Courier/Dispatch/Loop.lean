import Courier.Dispatch.Handling

/-!
# A worker at work

A worker sees to it that its consumer group exists, then fetches and handles deliveries until it is
asked to stop. The request breaks off waiting, for the group, for messages or after an error, but
never the handling of a batch that was fetched. No error ends the work.
-/

namespace Courier.Dispatch

/-- What a worker at work asks: what its handling asks; the same while it may be broken off, which
is answered with nothing when it was; that the group exists; and a pause. -/
inductive LoopCall
  | work (c : Call)
  | breakable (c : Call)
  | ensureGroup
  | pause (s : Span)

def LoopCall.Reply : LoopCall → Type
  | work c => c.Reply
  | breakable c => Option c.Reply
  | ensureGroup => Option (Except Stream.BrokerError Unit)
  | pause _ => Option Unit

def surroundings : Interface := ⟨LoopCall, LoopCall.Reply⟩

abbrev LoopTalk (α : Type) := Dialogue surroundings α

def LoopCall.ask (c : LoopCall) : LoopTalk c.Reply := Dialogue.call (I := surroundings) c

/-- Something done to its end whatever else is asked meanwhile. -/
def wholly {α : Type} (d : Talk α) : LoopTalk α :=
  d.expand fun c => Dialogue.call (I := surroundings) (.work c)

/-- Something given up at the first question during which a request to stop arrives. Reports take no
time. -/
def unlessStopped {α : Type} : Talk α → LoopTalk (Option α)
  | .done a => .done (some a)
  | .ask (.report r) k => .ask (.work (.report r)) fun a => unlessStopped (k a)
  | .ask c k => .ask (.breakable c) fun
    | none => .done none
    | some a => unlessStopped (k a)

/-- How the work of a worker ends, or that it goes on after the turns that were asked for. -/
inductive Ending
  | stopped
  | goingOn
  deriving DecidableEq, Repr

def errorPause : Span := .ofSeconds 1

def complain (message : String) (fields : List (String × FieldValue)) : LoopTalk Unit :=
  wholly (report (.line .error message fields))

inductive Readiness
  | ready
  | notYet
  | stopped
  deriving DecidableEq, Repr

def prepareOnce : LoopTalk Readiness := do
  match ← LoopCall.ask .ensureGroup with
  | none => return .stopped
  | some (.ok _) => return .ready
  | some (.error _) =>
    complain "Failed to create consumer group" []
    match ← LoopCall.ask (.pause errorPause) with
    | none => return .stopped
    | some _ => return .notYet

/-- Handles every delivery of a batch in order. An error is reported and the rest goes on. -/
def handleEach (cfg : Config) : List Stream.Delivery → LoopTalk Unit
  | [] => return ()
  | d :: ds => do
    if let .error _ ← wholly (handle cfg d) then
      complain "Failed to handle message" [("message_id", .text d.id)]
    handleEach cfg ds

/-- One turn: a batch fetched and handled, or a pause after an error; false after a request to
stop. -/
def turn (cfg : Config) : LoopTalk Bool := do
  match ← unlessStopped (fetch cfg) with
  | none => return false
  | some (.ok ds) =>
    handleEach cfg ds
    return true
  | some (.error _) =>
    complain "Failed to read from stream" []
    return (← LoopCall.ask (.pause errorPause)).isSome

def turns (cfg : Config) : Nat → LoopTalk Ending
  | 0 => return .goingOn
  | n + 1 => do
    if ← turn cfg then turns cfg n
    else
      wholly (report (.line .info "Webhook worker stopped" [("consumer", .text cfg.consumer)]))
      return .stopped

/-- A worker at work, for some attempts at having the group and turns altogether. A request to stop
before there is a group is obeyed in silence. -/
def run (cfg : Config) : Nat → LoopTalk Ending
  | 0 => return .goingOn
  | n + 1 => do
    match ← prepareOnce with
    | .stopped => return .stopped
    | .notYet => run cfg n
    | .ready =>
      wholly (report (.line .info "Webhook worker started" [("consumer", .text cfg.consumer)]))
      turns cfg n

end Courier.Dispatch
