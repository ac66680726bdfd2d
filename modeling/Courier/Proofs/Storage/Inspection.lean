import Courier.Proofs.Storage.Lifecycle

/-! # What operators are told

An operator counts the events with a status or looks up single events. The count compares the text
that a row holds with the name of the status; the look-up reads the text, and knows that dispatched
events of an earlier day are called succeeded. So both tell of the same rows except for these: a
look-up finds them dispatched, and no count has them.
-/

namespace Courier.Outbox

def earlierText : String := "succeeded"

namespace Status

/-- Besides the four names only the earlier one is read, as dispatched. -/
theorem stored?_eq_some_iff {text : String} {status : Status} :
    stored? text = some status ↔
      text = status.text ∨ (text = earlierText ∧ status = .dispatched) := by
  constructor
  · intro h
    unfold stored? at h
    split at h
    · cases h
      exact Or.inr ⟨rfl, rfl⟩
    · unfold named? at h
      split at h <;> cases h <;> exact Or.inl rfl
  · rintro (rfl | ⟨rfl, rfl⟩)
    · exact stored?_text status
    · rfl

theorem text_ne_earlierText (status : Status) : status.text ≠ earlierText := by
  cases status <;> decide

end Status

namespace Row

/-- The columns can be read, and the status is one of those known, under whatever name. -/
def Readable (r : Row) : Prop := r.Sound ∧ (Status.stored? r.status).isSome

instance (r : Row) : Decidable r.Readable := inferInstanceAs (Decidable (_ ∧ _))

variable {r : Row} {e : Event}

theorem event?_status (h : r.event? = some e) : Status.stored? r.status = some e.status := by
  obtain ⟨status, read, rfl⟩ := Option.map_eq_some_iff.1 h
  exact read

end Row

namespace Table

variable (rows : List Row)

/-- How many rows carry the earlier name. -/
def renamed : Nat := rows.countP fun r => r.status == earlierText

/-- The rows that are read as a status: those of its name and, if it is the one with an earlier
name, those of that name. -/
theorem countP_stored? (status : Status) :
    rows.countP (fun r => Status.stored? r.status == some status) =
      rows.countP (fun r => r.status == status.text) +
        if status = .dispatched then renamed rows else 0 := by
  induction rows with
  | nil => simp [renamed]
  | cons r rows ih =>
      unfold renamed at ih ⊢
      simp only [List.countP_cons, ih, beq_iff_eq, Status.stored?_eq_some_iff]
      -- A row of the earlier name is read as dispatched and does not carry that name.
      by_cases dispatched : status = .dispatched
      · by_cases earlier : r.status = earlierText
        · have unnamed : r.status ≠ status.text := fun named =>
            status.text_ne_earlierText (named.symm.trans earlier)
          simp only [dispatched, earlier, and_self, or_true, if_true] at unnamed ⊢
          rw [if_neg unnamed]
          omega
        · simp only [dispatched, earlier, false_and, or_false, if_true, if_false]
          omega
      · simp only [dispatched, and_false, or_false, if_false]
        omega

theorem countP_statuses {read : Row → Option Status} (reads : ∀ r ∈ rows, (read r).isSome) :
    rows.countP (fun r => read r == some .pending) +
      rows.countP (fun r => read r == some .processing) +
      rows.countP (fun r => read r == some .dispatched) +
      rows.countP (fun r => read r == some .dead) = rows.length := by
  induction rows with
  | nil => rfl
  | cons r rows ih =>
      have rest := ih fun a ha => reads a (List.mem_cons_of_mem r ha)
      obtain ⟨status, hstatus⟩ := Option.isSome_iff_exists.1 (reads r List.mem_cons_self)
      simp only [List.countP_cons, List.length_cons, hstatus, Option.some_beq_some, beq_iff_eq]
      cases status <;> simp <;> omega

end Table

end Courier.Outbox

namespace Courier.Storage.Sql

open Courier.Outbox

variable {s : Session}

def toldStatus (s : Session) (id : Int) : Option Status :=
  match (find id s).1 with
  | .ok (some e) => some e.status
  | _ => none

def found (s : Session) (status : Status) : Nat :=
  s.tables.outbox.rows.countP fun r => toldStatus s r.id == some status

theorem count_up (status : Status) (up : Up s) :
    count status s = (.ok (s.tables.outbox.count status), s) := by
  unfold count
  rw [bind_of_ok (statement_up up), bind_of_ok (outbox_apply s)]
  rfl

/-- The look-up of a row that can be read tells of the status that its text is read as. -/
theorem toldStatus_eq (up : Up s) (keyed : (s.tables.outbox.rows.map (·.id)).Nodup) {r : Row}
    (hr : r ∈ s.tables.outbox.rows) (readable : r.Readable) :
    toldStatus s r.id = Status.stored? r.status := by
  have here : s.tables.outbox.find? r.id = some r := (find?_key_eq_some_iff keyed).2 ⟨hr, rfl⟩
  obtain ⟨e, event⟩ : ∃ e, r.event? = some e := by
    obtain ⟨status, read⟩ := Option.isSome_iff_exists.1 readable.2
    simp [Row.event?, read]
  have answered : find r.id s = (.ok (some e), s) := by
    unfold find
    rw [bind_of_ok (statement_up up), bind_of_ok (outbox_apply s), here]
    dsimp only
    rw [bind_of_ok (read_of_sound (by simpa using readable.1)), event]
    rfl
  rw [toldStatus, answered, Row.event?_status event]

theorem found_eq_countP (up : Up s) (keyed : (s.tables.outbox.rows.map (·.id)).Nodup)
    (readable : ∀ r ∈ s.tables.outbox.rows, r.Readable) (status : Status) :
    found s status =
      s.tables.outbox.rows.countP fun r => Status.stored? r.status == some status :=
  List.countP_congr fun r hr => by rw [toldStatus_eq up keyed hr (readable r hr)]

/-- What counts and look-ups have to do with each other.

* `counted`: a count leaves out just the rows of the earlier name, which look-ups find dispatched.
* `agree`: so the two agree on every status but dispatched, and on that one if no row has the
  earlier name.
* `foundAll`: look-ups find every row in one of the four statuses.
* `countedAll`: the four counts and the rows of the earlier name are all rows. -/
structure ViewsByName (s : Session) : Prop where
  counted : ∀ status, ∃ n, count status s = (.ok n, s) ∧
    found s status = n + if status = .dispatched then Table.renamed s.tables.outbox.rows else 0
  agree : ∀ status, (count status s).1 = .ok (found s status) ↔
    status ≠ .dispatched ∨ Table.renamed s.tables.outbox.rows = 0
  foundAll : found s .pending + found s .processing + found s .dispatched + found s .dead =
    s.tables.outbox.rows.length
  countedAll : ∀ waiting held sent dead, (count .pending s).1 = .ok waiting →
    (count .processing s).1 = .ok held → (count .dispatched s).1 = .ok sent →
    (count .dead s).1 = .ok dead →
    waiting + held + sent + dead + Table.renamed s.tables.outbox.rows =
      s.tables.outbox.rows.length

/-- Of every outbox whose rows can all be read. -/
theorem views_by_name (up : Up s) (keyed : (s.tables.outbox.rows.map (·.id)).Nodup)
    (readable : ∀ r ∈ s.tables.outbox.rows, r.Readable) : ViewsByName s := by
  have split (status : Status) : found s status = s.tables.outbox.count status +
      if status = .dispatched then Table.renamed s.tables.outbox.rows else 0 :=
    (found_eq_countP up keyed readable status).trans (Table.countP_stored? _ status)
  have all : found s .pending + found s .processing + found s .dispatched + found s .dead =
      s.tables.outbox.rows.length := by
    simp only [found_eq_countP up keyed readable]
    exact Table.countP_statuses _ fun r hr => (readable r hr).2
  constructor
  case counted => exact fun status => ⟨_, count_up status up, split status⟩
  case agree =>
    intro status
    rw [count_up status up, split status]
    by_cases dispatched : status = .dispatched <;> simp [dispatched]
  case foundAll => exact all
  case countedAll =>
    intro waiting held sent dead hwaiting hheld hsent hdead
    simp only [count_up _ up, Except.ok.injEq] at hwaiting hheld hsent hdead
    subst hwaiting hheld hsent hdead
    rw [← all]
    simp only [split, reduceCtorEq, if_false, if_true]
    omega

/-- An event that waits, one of an earlier day, and one that was dispatched since. -/
def inherited : Session where
  tables := ⟨⟨[], 0, []⟩,
    ⟨[Operation.plainRow 1 "pending" 0 none, Operation.plainRow 2 "succeeded" 1 none,
      Operation.plainRow 3 "dispatched" 1 none], 3⟩⟩
  outages := []
  reports := []

theorem views_by_name_inherited : ViewsByName inherited ∧ found inherited .dispatched = 2 :=
  ⟨views_by_name rfl (by decide) (by decide), by decide⟩

/-- Both finished events are found dispatched, one is counted as dispatched, and the counts of all
statuses leave it out. -/
theorem earlier_event_uncounted :
    Up inherited ∧ (inherited.tables.outbox.rows.map (·.id)).Nodup ∧
      (∀ r ∈ inherited.tables.outbox.rows, r.Readable) ∧
      found inherited .dispatched = 2 ∧ (count .dispatched inherited).1 = .ok 1 ∧
      (count .pending inherited).1 = .ok 1 ∧ (count .processing inherited).1 = .ok 0 ∧
      (count .dead inherited).1 = .ok 0 ∧ inherited.tables.outbox.rows.length = 3 :=
  ⟨rfl, by decide, by decide, by decide, rfl, rfl, rfl, rfl, rfl⟩

end Courier.Storage.Sql
