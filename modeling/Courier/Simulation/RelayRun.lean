import Courier.Relay.Loop
import Courier.Simulation.Timeline
import Courier.Simulation.World

/-!
# Runs of a relay

A relay at work whose collaborators follow a script: each claim takes the next round of the script,
which says how many events there are, how long the claim takes and what fails. Times in the answers
are those since the beginning; the clock on the wall stands still.
-/

namespace Courier.Simulation.RelayRun

open Courier.Outbox Courier.Stream

structure Round where
  count : Nat
  attempts : Int
  cost : Span
  claimError : Option String
  publishError : Option String
  reconcileError : Option String
  deriving DecidableEq, Repr

def Round.idle : Round := ⟨0, 1, .zero, none, none, none⟩

inductive Deed
  | claim (limit : Nat) (lease : Span)
  | publish (batch : List Message)
  | reconcile (outcome : Outcome)

structure Run where
  time : Timeline
  now : Instant
  script : List Round
  round : Round
  events : Nat
  deeds : List (Span × Deed)
  reports : List Report

abbrev Act (α : Type) := ExceptT Crash (StateM Run) α

def note (d : Deed) : Act Unit :=
  modify fun r => { r with deeds := r.deeds ++ [(r.time.elapsed, d)] }

def claimOf (attempts : Int) (id : Nat) : Claim :=
  ⟨id, Check.eventType, .ofMembers [("n", .int id)], attempts⟩

def failing {α ε : Type} (error : Option String) (wrap : String → ε) (a : α) : Except ε α :=
  match error with
  | some text => .error (wrap text)
  | none => .ok a

def claim : Act (Except StorageError (List Claim)) := do
  let r ← get
  let (round, script) := match r.script with
    | [] => (Round.idle, [])
    | x :: xs => (x, xs)
  let count := if round.claimError.isSome then 0 else round.count
  set { r with script, round, time := r.time.pass round.cost, events := r.events + count }
  return failing round.claimError .invalidArgument
    ((List.range count).map fun i => claimOf round.attempts (r.events + i + 1))

def answer : (c : Relay.Call) → Act c.Reply
  | .claim limit lease => do
    note (.claim limit lease)
    claim
  | .publish batch => do
    note (.publish batch)
    return failing (← get).round.publishError .unavailable ()
  | .reconcile outcome => do
    note (.reconcile outcome)
    return failing (← get).round.reconcileError .invalidArgument ()
  | .now => return (← get).now
  | .report x => modify fun r => { r with reports := r.reports ++ [x] }
  | .abort => throw .calendar

def answerLoop : (c : Relay.LoopCall) → Act c.Reply
  | .work c => answer c
  | .await due => do
    let r ← get
    let (time, came) := r.time.waitUntil due
    set { r with time }
    return if came then .tick time.elapsed else .stop
  | .elapsed => return (← get).time.elapsed

/-- Enough turns for a script and a time to stop: each turn takes a round of the script or at least
a millisecond. -/
def turnsFor (script : List Round) (stopAt : Span) : Nat := script.length + stopAt.millis + 2

def run (cfg : Relay.Config) (now : Instant) (script : List Round) (stopAt : Span) :
    Except Crash Relay.Ending × Run :=
  ((Relay.run cfg (turnsFor script stopAt)).run answerLoop).run.run
    { time := ⟨.zero, stopAt⟩, now, script, round := .idle, events := 0, deeds := [], reports := [] }

end Courier.Simulation.RelayRun
