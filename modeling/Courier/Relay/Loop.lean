import Courier.Relay.Round
import Courier.Relay.Ticker

/-!
# The relay at work

A relay does a round at each tick until it is asked to stop, which it notices only between rounds.
A full batch means that more is waiting, so the next round follows at once. A round that fails is
reported and does not end the work.
-/

namespace Courier.Relay

/-- What woke a relay: the request to stop, or a tick that was taken at some moment. -/
inductive Wake
  | stop
  | tick (now : Span)
  deriving DecidableEq, Repr

/-- What a relay at work asks: what its rounds ask, to be woken at the next tick, and the time since
it began. -/
inductive LoopCall
  | work (c : Call)
  | await (due : Span)
  | elapsed

def LoopCall.Reply : LoopCall → Type
  | work c => c.Reply
  | await _ => Wake
  | elapsed => Span

def surroundings : Interface := ⟨LoopCall, LoopCall.Reply⟩

abbrev LoopTalk (α : Type) := Dialogue surroundings α

def wholly {α : Type} (d : Talk α) : LoopTalk α :=
  d.expand fun c => Dialogue.call (I := surroundings) (.work c)

def LoopCall.ask (c : LoopCall) : LoopTalk c.Reply := Dialogue.call (I := surroundings) c

/-- How the work of a relay ends, or that it goes on after the turns that were asked for. -/
inductive Ending
  | stopped
  | goingOn
  deriving DecidableEq, Repr

def afterRound (cfg : Config) (t : Ticker) : Except WorkerError Summary → LoopTalk Ticker
  | .ok s =>
    if cfg.batchSize ≤ s.claimed then do
      return t.immediately (← LoopCall.ask .elapsed)
    else return t
  | .error _ => do
    wholly (report (.line .error "Outbox relay round failed" []))
    return t

/-- One turn: a tick and its round, or nothing after a request to stop. -/
def turn (cfg : Config) (t : Ticker) : LoopTalk (Option Ticker) := do
  match ← LoopCall.ask (.await t.due) with
  | .stop =>
    wholly (report (.line .info "Outbox relay stopped" []))
    return none
  | .tick now =>
    let r ← wholly (round cfg)
    return some (← afterRound cfg (t.taken now) r)

def turns (cfg : Config) : Nat → Ticker → LoopTalk Ending
  | 0, _ => return .goingOn
  | n + 1, t => do
    match ← turn cfg t with
    | none => return .stopped
    | some t => turns cfg n t

def run (cfg : Config) (n : Nat) : LoopTalk Ending := do
  wholly (report (.line .info "Outbox relay started"
    [("batch_size", .number cfg.batchSize), ("poll_interval_ms", .number cfg.pollInterval.millis)]))
  turns cfg n (.start cfg.pollInterval)

def name : String := "outbox-relay"

end Courier.Relay
