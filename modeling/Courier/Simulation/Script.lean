import Courier.Simulation.World

/-!
# Scripts

A script is a list of steps, each of which acts in a world and gives an answer. Every answer comes
with what was reported meanwhile, and with the outbox if it has changed. A script ends early only if
arithmetic leaves the calendar.
-/

namespace Courier.Simulation

open Courier.Check Courier.Outbox Courier.Storage Courier.Stream

inductive Answer
  | nothing
  | done
  | flag (b : Bool)
  | number (n : Int)
  | name (s : String)
  | time (t : Instant)
  | claims (cs : List Claim)
  | event (e : Option Event)
  | recorded (r : Recorded)
  | transaction (committed : Bool) (answers : List Answer)
  | round (s : Relay.Summary)
  | outcome (o : Dispatch.Outcome)
  | outcomes (os : List Dispatch.Outcome)
  | checks (c : Checks)
  | state (w : World)
  | invalid (violations : List Violation)
  | storageError (e : StorageError)
  | workerError (e : WorkerError)
  | unknownStatus (text : String)

namespace Answer

def ofStorage {α : Type} (f : α → Answer) : Except StorageError α → Answer
  | .ok a => f a
  | .error e => storageError e

def ofWorker {α : Type} (f : α → Answer) : Except WorkerError α → Answer
  | .ok a => f a
  | .error e => workerError e

def ofRecording : Except RecordingError Recorded → Answer
  | .ok r => recorded r
  | .error (.invalid vs) => invalid vs
  | .error (.storage e) => storageError e

end Answer

/-- A step on the tables; times that are left out are those of the clock. -/
inductive TableStep
  | enqueue (eventType : String) (payload : Json) (notBefore : Option Instant)
  | claim (limit : Nat) (lease : Span) (at? : Option Instant)
  | markDispatched (batch : List (Int × Int)) (at? : Option Instant)
  | settle (d : Decision) (lastError : String) (at? : Option Instant)
  | find (id : Int)
  | count (status : String)
  | recordCheck (userId : String) (point : Point) (incidentIds : List Int)
  | check (c : Command)
  | transaction (steps : List TableStep) (fails : Bool)

/-- What a row is changed to by hand; the time of the next attempt cannot be missing. -/
inductive Change
  | status (text : String)
  | attempts (n : Int)
  | nextAttemptAt (t : Option Instant)
  | processingUntil (t : Option Instant)
  | lastError (text : Option String)

inductive Step
  | clock (now : Instant)
  | advance (millis : Int)
  | configure (change : Setup → Setup)
  | fail (place : Place) (text : Option String)
  | incidents (list : List Incident)
  | responses (list : List Response)
  | marker (key text : String) (ttl : Span)
  | push (fields : List (String × String))
  | tables (step : TableStep)
  | storeEnqueue (eventType : String) (payload : Json) (notBefore : Option Instant)
  | storeClaim (limit : Nat) (lease : Span)
  | reconcile (outcome : Outbox.Outcome)
  | rootCheck (c : Command)
  | relay
  | poll
  | handle (d : Delivery)
  | setRow (id : Int) (changes : List Change)
  | deleteRow (id : Int)
  | deleteCheck (id : Int)
  | checks
  | state

namespace Answer

def ofCount (status : String) : Sql Empty Answer :=
  match Status.stored? status with
  | some s => do return ofStorage (fun n => number n) (← Sql.attempt (Sql.count s))
  | none => return unknownStatus status

end Answer

namespace TableStep

def question? (c : Command) : List (Point × Nat) :=
  if c.violations.isEmpty then [(c.point, c.effectiveLimit)] else []

mutual

def asked : TableStep → List (Point × Nat)
  | .check c => question? c
  | .transaction steps _ => askedAll steps
  | _ => []

def askedAll : List TableStep → List (Point × Nat)
  | [] => []
  | s :: ss => s.asked ++ askedAll ss

def perform (w : World) (scope : Sql.Scope) : TableStep → Sql Empty Answer
  | .enqueue eventType payload notBefore => do
    let event : NewEvent := ⟨eventType, payload, notBefore.getD w.now⟩
    return .ofStorage .number (← Sql.attempt (Sql.enqueue event w.now))
  | .claim limit lease at? => do
    return .ofStorage .claims (← Sql.attempt (Sql.claim limit lease (at?.getD w.now)))
  | .markDispatched batch at? => do
    let n ← Sql.attempt (Sql.markDispatched batch (at?.getD w.now))
    return .ofStorage (fun n => .number n) n
  | .settle d lastError at? => do
    return .ofStorage .flag (← Sql.attempt (Sql.settle d lastError (at?.getD w.now)))
  | .find id => do return .ofStorage .event (← Sql.attempt (Sql.find id))
  | .count status => Answer.ofCount status
  | .recordCheck userId point incidentIds => do
    return .ofStorage .number (← Sql.attempt (Sql.recordCheck userId point incidentIds w.now))
  | .check c => do
    return .ofRecording (← Sql.attempt (Sql.check .joined c (fun _ limit => w.find limit) w.now))
  | .transaction steps fails => do
    let work : Sql (List Answer) (List Answer) := do
      match ← Sql.attempt (performAll w steps) with
      | .ok answers => if fails then Sql.fail answers else return answers
      | .error e => nomatch e
    match ← Sql.attempt (Sql.within (fun _ => []) scope work) with
    | .ok answers => return .transaction true answers
    | .error answers => return .transaction false answers

def performAll (w : World) : List TableStep → Sql Empty (List Answer)
  | [] => return []
  | s :: ss => do
    let a ← perform w .joined s
    return a :: (← performAll w ss)

end

def performRoot (w : World) : TableStep → Sql StorageError Answer
  | .transaction steps fails => Sql.mapError (fun e => nomatch e)
    (perform w .root (.transaction steps fails))
  | s => Sql.transaction id (Sql.mapError (fun e => nomatch e) (perform w .joined s))

end TableStep

namespace Change

def isRefused : Change → Bool
  | .nextAttemptAt none => true
  | _ => false

def apply (r : Row) : Change → Row
  | .status text => { r with status := text }
  | .attempts n => { r with attempts := n }
  | .nextAttemptAt t => { r with nextAttemptAt := t.getD r.nextAttemptAt }
  | .processingUntil t => { r with processingUntil := t }
  | .lastError text => { r with lastError := text }

end Change

namespace Step

def onOutbox (f : Table → Table × Nat) : Act Answer := do
  let w ← get
  let (t, n) := f w.tables.outbox
  set { w with tables := { w.tables with outbox := t } }
  return .number n

def perform : Step → Act Answer
  | .clock now => do
    modify fun w => { w with now }
    return .nothing
  | .advance millis => do
    modify fun w => { w with now := w.now.shift (millis * 1000000) }
    return .time (← get).now
  | .configure change => do
    modify fun w => { w with setup := change w.setup }
    return .nothing
  | .fail place text => do
    modify fun w => w.setFault place text
    return .nothing
  | .incidents list => do
    modify fun w => { w with incidents := list }
    return .nothing
  | .responses list => do
    modify fun w => { w with responses := list }
    return .nothing
  | .marker key text ttl => do
    modify fun w => { w with markers := w.markers.set key text ttl w.now }
    return .nothing
  | .push fields => do
    let id ← Act.onStream fun g _ => g.append fields
    return .name id
  | .tables step => do
    modify fun w => { w with asked := w.asked ++ step.asked }
    let w ← get
    return .ofStorage (fun a => a) (← Act.sql fun _ => step.performRoot w)
  | .storeEnqueue eventType payload notBefore => do
    let r ← Act.sql fun now =>
      Sql.transaction id (Sql.enqueue ⟨eventType, payload, notBefore.getD now⟩ now)
    return .ofStorage .number r
  | .storeClaim limit lease => do
    return .ofStorage .claims (← Act.sql (Sql.claimBatch limit lease))
  | .reconcile outcome => do
    return .ofStorage (fun _ => .done) (← Act.sql (Sql.reconcile outcome))
  | .rootCheck c => do
    modify fun w => { w with asked := w.asked ++ TableStep.question? c }
    let w ← get
    return .ofRecording (← Act.sql (Sql.check .root c fun _ limit => w.find limit))
  | .relay => do return .ofWorker .round (← Act.relay)
  | .poll => do return .ofWorker .outcomes (← Act.poll)
  | .handle d => do return .ofWorker .outcome (← Act.handle d)
  | .setRow id changes => do
    let t := (← get).tables.outbox
    if (t.find? id).isSome && changes.any Change.isRefused then
      return .storageError (.database "value is missing")
    onOutbox fun t => t.updateWhere (·.id == id) fun r => changes.foldl Change.apply r
  | .deleteRow id =>
    onOutbox fun t => ({ t with rows := t.rows.filter (·.id != id) }, t.rows.countP (·.id == id))
  | .deleteCheck id => do
    let w ← get
    let n := w.tables.checks.rows.countP (·.id == id)
    set { w with tables := { w.tables with checks := w.tables.checks.delete id } }
    return .number n
  | .checks => do return .checks (← get).tables.checks
  | .state => do return .state (← get)

end Step

/-- What is told about a step: its answer, or none if it crashed; what was reported meanwhile; and
the outbox, unless it is as it was told last. -/
structure StepReport where
  answer : Option Answer
  reports : List Report
  outbox : Option (List Row)

def runSteps (told : List Row) (w : World) : List Step → List StepReport
  | [] => []
  | s :: ss =>
    match s.perform.run { w with reports := [] } with
    | (.error _, _) => [⟨none, [], none⟩]
    | (.ok a, w) =>
      let rows := w.tables.outbox.rows
      let changed := !(rows == told)
      ⟨some a, w.reports, if changed then some rows else none⟩ :: runSteps rows w ss

def runScript (now : Instant) (setup : Setup) (steps : List Step) : List StepReport :=
  runSteps [] (.start now setup) steps

end Courier.Simulation
