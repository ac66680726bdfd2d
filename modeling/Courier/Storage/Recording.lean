import Courier.Check.Completed
import Courier.Storage.Outbox

/-!
# Recording checks

A check that met incidents and the event that announces it are stored in one transaction, so that
neither exists without the other. A check that met none is stored alone.
-/

namespace Courier.Check

structure Incident where
  id : Int
  title : String
  distance : Float

structure Recorded where
  checkId : Int
  incidents : List Incident
  outboxId : Option Int

inductive RecordingError
  | invalid (violations : List Violation)
  | storage (e : StorageError)

end Courier.Check

namespace Courier.Storage.Sql

open Courier.Check

/-- Stores a check and its links to incidents, each once; the result is its id. -/
def recordCheck (userId : String) (point : Point) (incidentIds : List Int) (now : Instant) :
    Sql StorageError Int := do
  statement
  match (← get).tables.checks.insert? userId point now with
  | none => fail (.database "coordinate is missing")
  | some (checks, id) =>
    modify fun s => { s with tables := { s.tables with checks } }
    let linked := distinct incidentIds
    if !linked.isEmpty then
      statement
      modify fun s =>
        { s with tables := { s.tables with checks := s.tables.checks.link id linked } }
    return id

/-- Stores a check and, if it met incidents, the event that announces it. -/
def recordWithEvent (userId : String) (point : Point) (incidentIds : List Int) (now : Instant) :
    Sql StorageError (Int × Option Int) := do
  let checkId ← recordCheck userId point incidentIds now
  if incidentIds.isEmpty then return (checkId, none)
  let event : Completed := ⟨checkId, userId, point, incidentIds, now⟩
  let outboxId ← enqueue (event.newEvent now) now
  return (checkId, some outboxId)

def recordFound (scope : Scope) (c : Command) (found : Except StorageError (List Incident))
    (now : Instant) : Sql RecordingError Recorded := do
  match found with
  | .error e => fail (.storage e)
  | .ok incidents =>
    let ids := incidents.map (·.id)
    report (.line .debug "Nearby incidents resolved"
      [("user_id", .text c.userId), ("matched", .number ids.length)])
    let (checkId, outboxId) ← within .storage scope
      (mapError .storage (recordWithEvent c.userId c.point ids now))
    if let some outboxId := outboxId then
      report (.line .info "Location check recorded with event"
        [("check_id", .number checkId), ("outbox_id", .number outboxId)])
    return ⟨checkId, incidents, outboxId⟩

/-- Carries out a request for a check: nothing is looked for unless the request is in order. -/
def check (scope : Scope) (c : Command) (finder : Point → Nat → Except StorageError (List Incident))
    (now : Instant) : Sql RecordingError Recorded :=
  if c.violations.isEmpty then recordFound scope c (finder c.point c.effectiveLimit) now
  else fail (.invalid c.violations)

end Courier.Storage.Sql
