import Courier.Proofs.Check.Accepted
import Courier.Proofs.Check.Completed
import Courier.Proofs.Storage.Recording

/-! # Checks are announced

The events of the outbox that announce checks stand in step with the checks that have links: one
event for each, in the same order, about that check and its incidents. Recording a check keeps it so,
whether or not the check met incidents.
-/

namespace Courier.Storage

open Courier.Check Courier.Outbox

variable {t t' : Tables} {c : Checks} {userId : String} {asked kept : Point} {ids : List Int}
  {now : Instant}

/-! ## Links of a recorded check -/

namespace Checks

def linked (c : Checks) (row : CheckRow) : Bool := !(c.incidentsOf row.id).isEmpty

@[simp] theorem recorded_rows : (c.recorded userId kept ids now).rows =
    c.rows ++ [⟨c.lastId + 1, userId, kept, now⟩] := rfl

theorem incidentsOf_old {id : Int} (old : id ≤ c.lastId) :
    (c.recorded userId kept ids now).incidentsOf id = c.incidentsOf id := by
  have none : ((distinct ids).map (Link.mk (c.lastId + 1))).filter (·.checkId == id) = [] := by
    rw [List.filter_eq_nil_iff]
    intro l hl
    obtain ⟨n, _, rfl⟩ := List.mem_map.1 hl
    have : ¬ c.lastId + 1 = id := by omega
    simpa using this
  simp [incidentsOf, recorded, none]

theorem incidentsOf_new (owned : ∀ l ∈ c.links, l.checkId ≤ c.lastId) :
    (c.recorded userId kept ids now).incidentsOf (c.lastId + 1) = distinct ids := by
  have none : c.links.filter (·.checkId == c.lastId + 1) = [] := by
    rw [List.filter_eq_nil_iff]
    intro l hl
    have := owned l hl
    have : ¬ l.checkId = c.lastId + 1 := by omega
    simpa using this
  have all : ((distinct ids).map (Link.mk (c.lastId + 1))).filter (·.checkId == c.lastId + 1) =
      (distinct ids).map (Link.mk (c.lastId + 1)) := by
    rw [List.filter_eq_self]
    intro l hl
    obtain ⟨n, _, rfl⟩ := List.mem_map.1 hl
    simp
  simp only [incidentsOf, recorded, List.filter_append, none, all, List.nil_append, List.map_map]
  exact List.map_id _

end Checks

/-! ## Tables in step -/

/-- An event is about a check and the incidents that the check is linked to. -/
structure About (checks : Checks) (check : CheckRow) (event : Completed) : Prop where
  id : event.checkId = check.id
  user : event.userId = check.userId
  lat : (event.point.lat == check.point.lat) = true
  lon : (event.point.lon == check.point.lon) = true
  incidents : ∀ n, n ∈ event.incidentIds ↔ n ∈ checks.incidentsOf check.id

/-- A row of the outbox announces a check: its payload is the text of an event about the check and,
as long as the numbers fit, can be read, namely as that event. -/
def Announces (checks : Checks) (check : CheckRow) (row : Row) : Prop :=
  ∃ event, About checks check event ∧ row.payload.text = event.json.text ∧
    (event.Fits → ∃ v, row.payload.value? = some v ∧ event.StoredAs v)

theorem About.recorded (owned : ∀ l ∈ c.links, l.checkId ≤ c.lastId)
    (stored : storedPoint? asked = some kept) :
    About (c.recorded userId kept ids now) ⟨c.lastId + 1, userId, kept, now⟩
      ⟨c.lastId + 1, userId, asked, ids, now⟩ where
  id := rfl
  user := rfl
  lat := (storedPoint?_beq stored).1
  lon := (storedPoint?_beq stored).2
  incidents n := by rw [Checks.incidentsOf_new owned, mem_distinct]

theorem About.announces {check : CheckRow} {event : Completed} {row : Row}
    (about : About c check event) (accepted : event.point.violations = [])
    (payload : row.payload = .ofJson event.json) : Announces c check row := by
  refine ⟨event, about, congrArg Document.text payload, fun fits => ?_⟩
  obtain ⟨lat, lon⟩ := Point.coordinates_of_accepted accepted
  obtain ⟨_, _, _, _, value⟩ := Completed.value_of_coordinates fits lat lon
  rw [payload]
  exact ⟨_, value, Completed.storedAs_of_ofText? value fits⟩

def Tables.announcements (t : Tables) : List Row :=
  t.outbox.rows.filter fun r => r.eventType == Check.eventType

/-- Checks with links and rows that announce checks stand in step, one for one; ids and links occur
once. -/
structure Announced (t : Tables) : Prop where
  matched : List.Forall₂ (Announces t.checks) (t.checks.rows.filter t.checks.linked) t.announcements
  checks : (t.checks.rows.map (·.id)).Nodup
  rows : (t.outbox.rows.map (·.id)).Nodup
  links : t.checks.links.Nodup

structure InStep (t : Tables) : Prop where
  outbox : t.outbox.Ordered
  ascending : t.checks.rows.Pairwise fun a b => a.id < b.id
  bounded : ∀ row ∈ t.checks.rows, row.id ≤ t.checks.lastId
  owned : ∀ l ∈ t.checks.links, l.checkId ≤ t.checks.lastId
  once : t.checks.links.Nodup
  matched : List.Forall₂ (Announces t.checks) (t.checks.rows.filter t.checks.linked) t.announcements

namespace InStep

theorem empty : InStep .empty where
  outbox := .empty
  ascending := List.Pairwise.nil
  bounded := by simp [Tables.empty]
  owned := by simp [Tables.empty]
  once := List.nodup_nil
  matched := .nil

theorem announced (h : InStep t) : Announced t where
  matched := h.matched
  checks := List.pairwise_map.2 (h.ascending.imp fun hlt => Int.ne_of_lt hlt)
  rows := h.outbox.ids_nodup
  links := h.once

theorem matched_old (h : InStep t) :
    List.Forall₂ (Announces (t.checks.recorded userId kept ids now))
      (t.checks.rows.filter (t.checks.recorded userId kept ids now).linked) t.announcements := by
  have same : t.checks.rows.filter (t.checks.recorded userId kept ids now).linked =
      t.checks.rows.filter t.checks.linked := by
    refine List.filter_congr fun row hrow => ?_
    rw [Checks.linked, Checks.linked, Checks.incidentsOf_old (h.bounded row hrow)]
  have bounded : ∀ row ∈ t.checks.rows.filter t.checks.linked, row.id ≤ t.checks.lastId :=
    fun row hrow => h.bounded row (List.mem_filter.1 hrow).1
  rw [same]
  refine (List.forall₂_and_left _ _).2 ⟨bounded, h.matched⟩ |>.imp ?_
  rintro row r ⟨old, event, about, stored⟩
  refine ⟨event, ⟨about.id, about.user, about.lat, about.lon, fun n => ?_⟩, stored⟩
  rw [about.incidents n, Checks.incidentsOf_old old]

theorem links_once (h : InStep t) : (t.checks.recorded userId kept ids now).links.Nodup := by
  have distinct : (distinct ids).Nodup := (distinct_ascending ids).imp fun hlt => Int.ne_of_lt hlt
  have new : ((Storage.distinct ids).map (Link.mk (t.checks.lastId + 1))).Nodup :=
    distinct.map fun a b hab => (Link.mk.inj hab).2
  refine List.nodup_append.2 ⟨h.once, new, ?_⟩
  rintro l hl _ hl' rfl
  obtain ⟨n, _, rfl⟩ := List.mem_map.1 hl'
  have := h.owned _ hl
  dsimp only at this
  omega

theorem ascending_recorded (h : InStep t) :
    (t.checks.recorded userId kept ids now).rows.Pairwise fun a b => a.id < b.id := by
  refine List.pairwise_append.2 ⟨h.ascending, List.pairwise_singleton _ _, ?_⟩
  intro a ha b hb
  rw [List.mem_singleton.1 hb]
  have := h.bounded a ha
  dsimp only
  omega

theorem bounded_recorded (h : InStep t) :
    ∀ row ∈ (t.checks.recorded userId kept ids now).rows, row.id ≤ t.checks.lastId + 1 := by
  intro row hrow
  rcases List.mem_append.1 hrow with hrow | hrow
  · have := h.bounded row hrow
    omega
  · obtain rfl := List.mem_singleton.1 hrow
    exact Int.le_refl _

theorem owned_recorded (h : InStep t) :
    ∀ l ∈ (t.checks.recorded userId kept ids now).links, l.checkId ≤ t.checks.lastId + 1 := by
  intro l hl
  rcases List.mem_append.1 hl with hl | hl
  · have := h.owned l hl
    omega
  · obtain ⟨n, _, rfl⟩ := List.mem_map.1 hl
    exact Int.le_refl _

/-- A check that met nothing and was stored alone keeps the tables in step. -/
theorem recorded_alone (h : InStep t) :
    InStep { t with checks := t.checks.recorded userId kept [] now } where
  outbox := h.outbox
  ascending := h.ascending_recorded
  bounded := h.bounded_recorded
  owned := h.owned_recorded
  once := h.links_once
  matched := by
    have unlinked : (t.checks.recorded userId kept [] now).linked
        ⟨t.checks.lastId + 1, userId, kept, now⟩ = false := by
      rw [Checks.linked, Checks.incidentsOf_new h.owned]
      rfl
    have same : (t.checks.recorded userId kept [] now).rows.filter
        (t.checks.recorded userId kept [] now).linked =
        t.checks.rows.filter (t.checks.recorded userId kept [] now).linked := by
      rw [Checks.recorded_rows, List.filter_append, List.filter_cons_of_neg (by simp [unlinked])]
      simp
    dsimp only
    rw [same]
    exact h.matched_old

/-- A check that met incidents and was stored with the event that announces it keeps the tables in
step. -/
theorem recorded_announced (h : InStep t) (accepted : asked.violations = [])
    (stored : storedPoint? asked = some kept) (met : ids ≠ []) :
    InStep ⟨t.checks.recorded userId kept ids now, (t.outbox.insert Check.eventType
      (.ofJson (Completed.json ⟨t.checks.lastId + 1, userId, asked, ids, now⟩)) now now).1⟩ where
  outbox := h.outbox.insert _ _ _ _
  ascending := h.ascending_recorded
  bounded := h.bounded_recorded
  owned := h.owned_recorded
  once := h.links_once
  matched := by
    have linked : (t.checks.recorded userId kept ids now).linked
        ⟨t.checks.lastId + 1, userId, kept, now⟩ = true := by
      obtain ⟨n, hn⟩ := List.exists_mem_of_ne_nil ids met
      have : distinct ids ≠ [] := List.ne_nil_of_mem (mem_distinct.2 hn)
      simpa [Checks.linked, Checks.incidentsOf_new h.owned] using this
    let payload : Document :=
      .ofJson (Completed.json ⟨t.checks.lastId + 1, userId, asked, ids, now⟩)
    have announces : Announces (t.checks.recorded userId kept ids now)
        ⟨t.checks.lastId + 1, userId, kept, now⟩
        (t.outbox.newRow Check.eventType payload now now) :=
      (About.recorded h.owned stored).announces accepted rfl
    have row : t.announcements ++ [t.outbox.newRow Check.eventType payload now now] =
        Tables.announcements ⟨t.checks.recorded userId kept ids now,
          (t.outbox.insert Check.eventType payload now now).1⟩ := by
      simp [Tables.announcements, Table.insert_rows, Table.newRow]
    have check : t.checks.rows.filter (t.checks.recorded userId kept ids now).linked ++
        [⟨t.checks.lastId + 1, userId, kept, now⟩] =
        (t.checks.recorded userId kept ids now).rows.filter
          (t.checks.recorded userId kept ids now).linked := by
      rw [Checks.recorded_rows, List.filter_append, List.filter_cons_of_pos linked, List.filter_nil]
    rw [← row, ← check]
    exact List.rel_append h.matched_old (.cons announces .nil)

theorem records (h : InStep t) (accepted : asked.violations = [])
    (records : Records userId asked ids now t t') : InStep t' := by
  cases records with
  | alone stored empty =>
      subst empty
      exact h.recorded_alone
  | announced stored met => exact h.recorded_announced accepted stored met

end InStep

end Courier.Storage
