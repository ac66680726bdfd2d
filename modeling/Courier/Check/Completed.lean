import Courier.Check.Command
import Courier.Outbox.Event
import Courier.Time.Reading

/-!
# Completed checks

The event that announces a location check with incidents nearby. Its text is what receivers get; its
key, the number of the check, tells them repeated deliveries apart.
-/

namespace Courier.Check

def eventType : String := "location_check"

structure Completed where
  checkId : Int
  userId : String
  point : Point
  incidentIds : List Int
  occurredAt : Instant

namespace Completed

def fields (e : Completed) : List (String × Json) :=
  [("check_id", .int e.checkId), ("user_id", .string e.userId), ("point", e.point.json),
   ("incident_ids", .array (e.incidentIds.map .int)), ("occurred_at", .string e.occurredAt.text)]

def text (e : Completed) : String := (Json.object e.fields).text

def json (e : Completed) : Json := .ofMembers e.fields

/-- The key by which receivers recognise the event. -/
def idempotencyKey (e : Completed) : String := String.ofList (Text.integer e.checkId)

def fieldNames : List String := ["check_id", "user_id", "point", "incident_ids", "occurred_at"]

def ofSource? (s : Json.Source) : Option Completed := do
  match ← s.fields? fieldNames with
  | [checkId, userId, point, incidentIds, occurredAt] =>
    some
      { checkId := ← checkId.word?
        userId := ← userId.string?
        point := ← Point.ofSource? point
        incidentIds := ← incidentIds.words?
        occurredAt := ← (← occurredAt.string?) |> Instant.ofText? }
  | _ => none

def ofText? (s : String) : Option Completed := (Json.Source.ofText? s).bind ofSource?

def ofJson? (v : Json) : Option Completed := do
  let point ← v.get? "point"
  some
    { checkId := ← (← v.get? "check_id").int?
      userId := ← (← v.get? "user_id").string?
      point := ⟨← (← point.get? "lat").float?, ← (← point.get? "lon").float?⟩
      incidentIds := ← (← (← v.get? "incident_ids").items?).mapM Json.int?
      occurredAt := ← (← (← v.get? "occurred_at").string?) |> Instant.ofText? }

/-- The event to be stored, not to be claimed before a time. -/
def newEvent (e : Completed) (notBefore : Instant) : Outbox.NewEvent :=
  ⟨eventType, e.json, notBefore⟩

/-- The same event. Coordinates compare as numbers: zeros are equal whatever their sign, and a
value that is no number equals nothing. -/
def same (a b : Completed) : Bool :=
  a.checkId == b.checkId && a.userId == b.userId && a.point.lat == b.point.lat &&
    a.point.lon == b.point.lon && a.incidentIds == b.incidentIds && a.occurredAt == b.occurredAt

end Completed

end Courier.Check
