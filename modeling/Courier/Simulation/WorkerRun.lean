import Courier.Dispatch.Loop
import Courier.Simulation.Timeline
import Courier.Simulation.World

/-!
# Runs of a worker

A worker at work whose stream and receiver follow scripts, one answer for each call. Times in the
answers are those since the beginning; the clock on the wall stands still.
-/

namespace Courier.Simulation.WorkerRun

open Courier.Stream

/-- The answers that the stream gives, by kind of call: an error text, or what was asked for. -/
structure Script where
  groups : List String
  reclaims : List (Except String (List Delivery))
  reads : List (Except String (List Delivery))
  /-- What the receiver answers, and how long that takes. -/
  responses : List (Span × Response)
  faults : List (Place × String)

inductive Deed
  | group
  | reclaim (consumer : String) (minIdle : Span) (count : Nat)
  | read (consumer : String) (count : Nat) (block : Span)
  | acknowledge (id : String)
  deriving DecidableEq, Repr

structure Run where
  time : Timeline
  now : Instant
  script : Script
  markers : Marker.Store
  sent : List Webhook.Request
  deeds : List (Span × Deed)
  reports : List Report

abbrev Act (α : Type) := StateM Run α

def note (d : Deed) : Act Unit :=
  modify fun r => { r with deeds := r.deeds ++ [(r.time.elapsed, d)] }

def next {α : Type} (otherwise : α) : List α → α × List α
  | [] => (otherwise, [])
  | x :: xs => (x, xs)

def seen {α : Type} : Except String α → Except BrokerError α
  | .ok a => .ok a
  | .error text => .error (.unavailable text)

def unlessFault {ε α : Type} (p : Place) (wrap : String → ε) (act : Act α) : Act (Except ε α) := do
  match (← get).script.faults.lookup p with
  | some text => return .error (wrap text)
  | none => return .ok (← act)

def send (q : Webhook.Request) : Act (Except Webhook.SendError Nat) := do
  let r ← get
  let ((cost, response), responses) := next (.zero, .status 200) r.script.responses
  set { r with script := { r.script with responses }, sent := r.sent ++ [q], time := r.time.pass cost }
  return response.seen

def onMarkers {α : Type} (f : Marker.Store → Instant → Marker.Store × α) : Act α := do
  let r ← get
  let (markers, a) := f r.markers r.now
  set { r with markers }
  return a

def reclaim (consumer : String) (minIdle : Span) (count : Nat) :
    Act (Except BrokerError (List Delivery)) := do
  note (.reclaim consumer minIdle count)
  let r ← get
  let (a, reclaims) := next (.ok []) r.script.reclaims
  set { r with script := { r.script with reclaims } }
  return seen a

def read (consumer : String) (count : Nat) (block : Span) :
    Act (Except BrokerError (List Delivery) × Bool) := do
  note (.read consumer count block)
  let r ← get
  let (a, reads) := next (.ok []) r.script.reads
  set { r with script := { r.script with reads } }
  return (seen a, match a with
    | .ok [] => true
    | _ => false)

def answer : (c : Dispatch.Call) → Act c.Reply
  | .reclaim consumer minIdle count => reclaim consumer minIdle count
  | .read consumer count block => do
    let (a, waits) ← read consumer count block
    if waits then modify fun r => { r with time := r.time.pass block }
    return a
  | .acknowledge id => do
    note (.acknowledge id)
    unlessFault .acknowledge .unavailable (pure ())
  | .tryBegin key ttl =>
    unlessFault .tryBegin .unavailable (onMarkers fun s now => s.tryBegin key ttl now)
  | .markDelivered key ttl =>
    unlessFault .markDelivered .unavailable
      (onMarkers fun s now => (s.markDelivered key ttl now, ()))
  | .send q => send q
  | .report x => modify fun r => { r with reports := r.reports ++ [x] }

def sleep (s : Span) : Act Bool := do
  let r ← get
  let (time, lasted) := r.time.waitUntil (r.time.elapsed + s)
  set { r with time }
  return lasted

def unlessStopped {α : Type} (act : Act (Option α)) : Act (Option α) := do
  if (← get).time.isStopped then return none else act

/-- How the surroundings answer a worker at work. Only reading waits. -/
def answerLoop : (c : Dispatch.LoopCall) → Act c.Reply
  | .work c => answer c
  | .breakable (.read consumer count block) => unlessStopped do
    let (a, waits) ← read consumer count block
    if waits then
      return if ← sleep block then some a else none
    else return some a
  | .breakable c => unlessStopped (some <$> answer c)
  | .ensureGroup => unlessStopped do
    note .group
    let r ← get
    match r.script.groups with
    | [] => return some (.ok ())
    | text :: groups =>
      set { r with script := { r.script with groups } }
      return some (.error (.unavailable text))
  | .pause s => do
    return if ← sleep s then some () else none

/-- Enough turns for scripts and a time to stop: each turn takes an answer of a script or at least a
millisecond. -/
def turnsFor (s : Script) (stopAt : Span) : Nat :=
  s.groups.length + s.reclaims.length + s.reads.length + stopAt.millis + 2

def run (cfg : Dispatch.Config) (now : Instant) (script : Script) (stopAt : Span) :
    Dispatch.Ending × Run :=
  ((Dispatch.run cfg (turnsFor script stopAt)).run answerLoop).run
    { time := ⟨.zero, stopAt⟩, now, script, markers := .empty, sent := [], deeds := [], reports := [] }

end Courier.Simulation.WorkerRun
