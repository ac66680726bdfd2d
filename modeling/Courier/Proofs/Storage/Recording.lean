import Courier.Proofs.Json.Reading
import Courier.Proofs.Run
import Courier.Proofs.Storage.Outbox
import Courier.Storage.Recording
import Mathlib.Data.List.Forall2

/-! # Checks and the events that announce them

A check is recorded in one transaction, its own or one that it joins: its row, its links and, if it
has any, the event that announces it. Whatever the server fails, the committed tables hold one event
for each check with links, about that check.
-/

namespace Courier.Storage

open Courier.Check Courier.Outbox

/-! ## What the database keeps -/

theorem beq_self_of_isNaN {x : Float} (h : x.isNaN = false) : (x == x) = true := by
  unfold Float.isNaN Float.Model.isNaN at h
  change Float.Model.UnpackedFloat.beq _ _ = true
  unfold Float.Model.UnpackedFloat.beq
  cases hx : x.toModel.unpack with
  | notANumber =>
      rw [hx] at h
      cases h
  | infinity sign => cases sign <;> rfl
  | zero sign => rfl
  | finite sign m e valid =>
      have same : (compare e e).then (compare m m) = .eq := by simp
      cases sign with
      | negative =>
          change (some ((compare e e).then (compare m m)).swap == some .eq) = true
          rw [same]
          rfl
      | positive =>
          change (some ((compare e e).then (compare m m)) == some .eq) = true
          rw [same]
          rfl

theorem storedFloat?_beq {x y : Float} (h : storedFloat? x = some y) : (x == y) = true := by
  unfold storedFloat? at h
  split at h
  · cases h
  · rename_i number
    split at h
    · cases h
      assumption
    · cases h
      exact beq_self_of_isNaN (by simpa using number)

theorem storedPoint?_beq {p q : Point} (h : storedPoint? p = some q) :
    (p.lat == q.lat) = true ∧ (p.lon == q.lon) = true := by
  unfold storedPoint? at h
  split at h
  · rename_i lat lon hlat hlon
    cases h
    exact ⟨storedFloat?_beq hlat, storedFloat?_beq hlon⟩
  · cases h

theorem insertSorted_ascending {n : Int} {ms : List Int} (h : ms.Pairwise (· < ·)) :
    (insertSorted n ms).Pairwise (· < ·) := by
  induction ms with
  | nil => simp [insertSorted]
  | cons m ms ih =>
      obtain ⟨hm, hms⟩ := List.pairwise_cons.1 h
      unfold insertSorted
      split
      · rename_i hlt
        refine List.pairwise_cons.2 ⟨?_, h⟩
        intro k hk
        rcases List.mem_cons.1 hk with rfl | hk
        · exact hlt
        · have := hm k hk
          omega
      · split
        · exact h
        · refine List.pairwise_cons.2 ⟨?_, ih hms⟩
          intro k hk
          rcases mem_insertSorted.1 hk with rfl | hk
          · omega
          · exact hm k hk

theorem distinct_ascending (ns : List Int) : (distinct ns).Pairwise (· < ·) := by
  have ascending {acc : List Int} (h : acc.Pairwise (· < ·)) :
      (ns.foldl (fun sorted n => insertSorted n sorted) acc).Pairwise (· < ·) := by
    induction ns generalizing acc with
    | nil => exact h
    | cons n ns ih => exact ih (insertSorted_ascending h)
  exact ascending List.Pairwise.nil

def Checks.recorded (c : Checks) (userId : String) (point : Point) (ids : List Int)
    (now : Instant) : Checks where
  rows := c.rows ++ [⟨c.lastId + 1, userId, point, now⟩]
  lastId := c.lastId + 1
  links := c.links ++ (distinct ids).map (⟨c.lastId + 1, ·⟩)

/-- What a check that is recorded makes of the tables. -/
inductive Records (userId : String) (asked : Point) (ids : List Int) (now : Instant) (t : Tables) :
    Tables → Prop
  | alone {kept : Point} (stored : storedPoint? asked = some kept) (empty : ids = []) :
      Records userId asked ids now t { t with checks := t.checks.recorded userId kept ids now }
  | announced {kept : Point} (stored : storedPoint? asked = some kept) (met : ids ≠ []) :
      Records userId asked ids now t
        ⟨t.checks.recorded userId kept ids now, (t.outbox.insert Check.eventType
          (.ofJson (Completed.json ⟨t.checks.lastId + 1, userId, asked, ids, now⟩)) now now).1⟩

theorem Records.checks {userId : String} {asked : Point} {ids : List Int} {now : Instant}
    {t t' : Tables} (h : Records userId asked ids now t t') :
    ∃ kept, storedPoint? asked = some kept ∧
      t'.checks = t.checks.recorded userId kept ids now := by
  cases h with
  | alone stored _ => exact ⟨_, stored, rfl⟩
  | announced stored _ => exact ⟨_, stored, rfl⟩

namespace Sql

variable {s s' : Session} {userId : String} {point : Point} {ids : List Int} {now : Instant}

theorem recordCheck_ok {id : Int} (h : recordCheck userId point ids now s = (.ok id, s')) :
    ∃ kept, storedPoint? point = some kept ∧ id = s.tables.checks.lastId + 1 ∧
      s'.tables = { s.tables with checks := s.tables.checks.recorded userId kept ids now } := by
  obtain ⟨_, a, ha, h⟩ := bind_ok h
  have ha := statement_ok ha
  obtain ⟨b, b', hb, h⟩ := bind_ok h
  cases hb
  cases hp : storedPoint? point with
  | none =>
      rw [Checks.insert?, hp] at h
      cases h
  | some kept =>
      rw [Checks.insert?, hp] at h
      dsimp only [Option.map] at h
      obtain ⟨_, c, hc, h⟩ := bind_ok h
      cases hc
      dsimp only at h
      rw [ha] at h
      refine ⟨kept, rfl, ?_⟩
      split at h
      · obtain ⟨_, d, hd, h⟩ := bind_ok h
        have hd := statement_ok hd
        obtain ⟨_, e, he, h⟩ := bind_ok h
        cases he
        cases h
        dsimp only
        rw [hd]
        exact ⟨rfl, rfl⟩
      · rename_i met
        have none : distinct ids = [] := by simpa using met
        cases h
        exact ⟨rfl, by simp [Checks.recorded, none]⟩

theorem recordWithEvent_ok {checkId : Int} {outboxId : Option Int}
    (h : recordWithEvent userId point ids now s = (.ok (checkId, outboxId), s')) :
    checkId = s.tables.checks.lastId + 1 ∧ Records userId point ids now s.tables s'.tables := by
  obtain ⟨checkId, a, ha, h⟩ := bind_ok h
  obtain ⟨kept, stored, rfl, recorded⟩ := recordCheck_ok ha
  split at h
  · rename_i empty
    cases h
    rw [recorded]
    exact ⟨rfl, .alone stored (List.isEmpty_iff.1 empty)⟩
  · rename_i met
    obtain ⟨outboxId, b, hb, h⟩ := bind_ok h
    cases h
    obtain ⟨enqueued, _⟩ := enqueue_ok hb
    rw [enqueued, recorded]
    exact ⟨rfl, .announced stored fun empty => met (by simp [empty])⟩

theorem mapError_ok {ε δ α : Type} {f : ε → δ} {x : Sql ε α} {a : α}
    (h : mapError f x s = (.ok a, s')) : x s = (.ok a, s') := by
  unfold mapError at h
  cases hx : x s with
  | mk r t =>
      rw [hx] at h
      cases r with
      | ok a =>
          cases h
          rfl
      | error e => cases e <;> cases h

/-- Work in a scope that succeeds leaves the tables that it made. -/
theorem within_ok {α : Type} {scope : Scope} {work : Sql RecordingError α} {a : α}
    (h : within .storage scope work s = (.ok a, s')) :
    ∃ t t', t.tables = s.tables ∧ work t = (.ok a, t') ∧ s'.tables = t'.tables := by
  cases scope with
  | joined => exact ⟨s, s', rfl, h, rfl⟩
  | root =>
      rcases transaction_cases h with ⟨_, t, t', ha, ht, hw, hs⟩ | ⟨e, ha, _⟩
      · cases ha
        exact ⟨t, t', ht, hw, hs⟩
      · cases ha

theorem recordFound_ok {scope : Scope} {c : Command}
    {found : Except StorageError (List Incident)} {r : Recorded}
    (h : recordFound scope c found now s = (.ok r, s')) :
    r.checkId = s.tables.checks.lastId + 1 ∧
      Records c.userId c.point (r.incidents.map (·.id)) now s.tables s'.tables := by
  cases found with
  | error e => cases h
  | ok incidents =>
      obtain ⟨_, a, ha, h⟩ := bind_ok h
      cases ha
      obtain ⟨⟨checkId, outboxId⟩, b, hb, h⟩ := bind_ok h
      obtain ⟨t, t', ht, hw, hs⟩ := within_ok hb
      have records := recordWithEvent_ok (mapError_ok hw)
      rw [ht, ← hs] at records
      cases outboxId <;> (cases h; exact records)

theorem check_ok {scope : Scope} {c : Command}
    {finder : Point → Nat → Except StorageError (List Incident)} {r : Recorded}
    (h : check scope c finder now s = (.ok r, s')) :
    c.violations = [] ∧ r.checkId = s.tables.checks.lastId + 1 ∧
      Records c.userId c.point (r.incidents.map (·.id)) now s.tables s'.tables := by
  unfold check at h
  split at h
  · rename_i accepted
    exact ⟨List.isEmpty_iff.1 accepted, recordFound_ok h⟩
  · cases h

/-- A check with a transaction of its own that is not carried out has changed no table. -/
theorem check_error {c : Command} {finder : Point → Nat → Except StorageError (List Incident)}
    {e : Stop RecordingError} (h : check .root c finder now s = (.error e, s')) :
    s'.tables = s.tables := by
  unfold check at h
  split at h
  · generalize finder c.point c.effectiveLimit = found at h
    cases found with
    | error e =>
        cases h
        rfl
    | ok incidents =>
        rcases bind_error h with h | ⟨_, a, ha, h⟩
        · cases h
        · cases ha
          rcases bind_error h with h | ⟨⟨checkId, outboxId⟩, b, _, h⟩
          · rcases transaction_cases h with ⟨_, _, _, he, _⟩ | ⟨_, _, same⟩
            · cases he
            · exact same
          · cases outboxId <;> cases h
  · cases h
    rfl

end Sql

end Courier.Storage
