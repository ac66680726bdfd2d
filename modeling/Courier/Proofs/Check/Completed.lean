import Courier.Check.Completed
import Courier.Proofs.Json.Reading

/-! # Events as they are stored

The text of an event is JSON whatever is in it. What it is read as has the fields of the event; only
a coordinate may come back as the neighbour of the double that was written.
-/

namespace Courier.Check.Completed

/-- A value has the fields of an event, each coordinate as its own text is read. -/
structure StoredAs (e : Completed) (v : Json) : Prop where
  checkId : v.get? "check_id" = some (.int e.checkId)
  userId : v.get? "user_id" = some (.string e.userId)
  point : ∃ p lat lon, v.get? "point" = some p ∧
    p.get? "lat" = some lat ∧ Json.ofText? (Json.float e.point.lat).text = some lat ∧
    p.get? "lon" = some lon ∧ Json.ofText? (Json.float e.point.lon).text = some lon
  incidentIds : v.get? "incident_ids" = some (.array (e.incidentIds.map .int))
  occurredAt : v.get? "occurred_at" = some (.string e.occurredAt.text)

def Fits (e : Completed) : Prop := Text.InWord e.checkId ∧ ∀ n ∈ e.incidentIds, Text.InWord n

variable {e : Completed} {v : Json}

theorem json_eq (e : Completed) : e.json = .object
    [("check_id", .int e.checkId), ("incident_ids", .array (e.incidentIds.map .int)),
      ("occurred_at", .string e.occurredAt.text), ("point", e.point.json),
      ("user_id", .string e.userId)] := rfl

theorem storedAs_of_ofText? (h : Json.ofText? e.json.text = some v) (fits : e.Fits) :
    e.StoredAs v := by
  rw [Json.ofText?_text_eq_some, json_eq, Json.depthLimit] at h
  have field (k : String) (x : Json) := h.get? (k := k) (v := x) (by simp)
  obtain ⟨_, checkId, hid⟩ := field "check_id" (.int e.checkId) (by simp)
  obtain ⟨_, incidentIds, hids⟩ := field "incident_ids" (.array (e.incidentIds.map .int)) (by simp)
  obtain ⟨_, occurredAt, htime⟩ := field "occurred_at" (.string e.occurredAt.text) (by simp)
  obtain ⟨_, userId, huser⟩ := field "user_id" (.string e.userId) (by simp)
  obtain ⟨p, point, hpoint⟩ := field "point" e.point.json (by simp)
  have coordinate (k : String) (x : Json) := hpoint.get? (k := k) (v := x) (by simp)
  obtain ⟨lat, hlat, rlat⟩ := coordinate "lat" (.float e.point.lat) (by simp)
  obtain ⟨lon, hlon, rlon⟩ := coordinate "lon" (.float e.point.lon) (by simp)
  rw [Json.reads_int fits.1] at hid
  rw [Json.reads_ints fits.2] at hids
  rw [Json.reads_string] at htime huser
  subst hid hids htime huser
  have rlat := Json.ofText?_text_eq_some.2 rlat.float
  have rlon := Json.ofText?_text_eq_some.2 rlon.float
  exact ⟨checkId, userId, ⟨p, lat, lon, point, hlat, rlat, hlon, rlon⟩, incidentIds, occurredAt⟩

end Courier.Check.Completed
