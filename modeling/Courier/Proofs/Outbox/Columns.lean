import Courier.Proofs.Outbox.Due
import Courier.Proofs.Time.Column

/-! # Due rows as the database finds them

The database decides by texts whether a row is due: it holds the times of a row and the present in
columns and compares these byte by byte. As long as the years have four digits this finds the rows that
are due by the clock, in the same order, whatever number of decimals each time is written with.
-/

namespace Courier.Outbox

open Courier.Text

/-- Are the times that decide about a claim of the row such that columns keep them in order? -/
structure Row.Storable (r : Row) : Prop where
  next : r.nextAttemptAt.Storable
  lease : ∀ time ∈ r.processingUntil, time.Storable

instance (r : Row) : Decidable r.Storable :=
  decidable_of_iff (r.nextAttemptAt.Storable ∧ ∀ time ∈ r.processingUntil, time.Storable)
    ⟨fun ⟨next, lease⟩ => ⟨next, lease⟩, fun ⟨next, lease⟩ => ⟨next, lease⟩⟩

/-- The test for a row that may be claimed, on the texts of its columns. A row that was never leased
has no text that could be compared. -/
def Row.isDueByText (now : Instant) (r : Row) : Bool :=
  (r.status == Status.pending.text && textNoLater r.nextAttemptAt.columnText now.columnText) ||
    (r.status == Status.processing.text &&
      r.processingUntil.any fun time => textNoLater time.columnText now.columnText)

/-- The first rows that may be claimed going by their texts, at most `limit`. -/
def Table.dueByText (t : Table) (limit : Nat) (now : Instant) : List Row :=
  (t.rows.filter (·.isDueByText now)).take limit

variable {t : Table} {r : Row} {now : Instant}

theorem Row.Storable.isDueByText_iff (times : r.Storable) (present : now.Storable) :
    r.isDueByText now = true ↔ r.Due now := by
  have leased : (r.processingUntil.any fun time => textNoLater time.columnText now.columnText) =
      true ↔ ∃ time, r.processingUntil = some time ∧ time ≤ now := by
    rw [Option.any_eq_true]
    constructor
    · rintro ⟨time, held, texts⟩
      exact ⟨time, held, ((times.lease time held).textNoLater_iff present).1 texts⟩
    · rintro ⟨time, held, ended⟩
      exact ⟨time, held, ((times.lease time held).textNoLater_iff present).2 ended⟩
  simp only [Row.isDueByText, Row.Due, Bool.or_eq_true, Bool.and_eq_true, beq_iff_eq, leased,
    times.next.textNoLater_iff present]

namespace Table

/-- Comparing columns comes to the same as comparing times.

* `order`: any two moments in years of four digits are in the order of their texts.
* `row`: the texts of a row of the table say that it may be claimed exactly when it is due.
* `selected`: what a claim selects by the texts is what is due, in the order of the table, however
  many it may select. -/
structure ColumnsTellTime (t : Table) (now : Instant) : Prop where
  order : ∀ a b : Instant, a.Storable → b.Storable →
    (textNoLater a.columnText b.columnText = true ↔ a ≤ b)
  row : ∀ r ∈ t.rows, r.isDueByText now = true ↔ r.Due now
  selected : ∀ limit, t.dueByText limit now = t.due limit now

/-- In every table whose times, like the present, are in years of four digits. -/
theorem columns_tell_time (present : now.Storable) (times : ∀ r ∈ t.rows, r.Storable) :
    ColumnsTellTime t now where
  order := fun _ _ first second => first.textNoLater_iff second
  row := fun r hr => (times r hr).isDueByText_iff present
  selected := by
    intro limit
    have same : ∀ r ∈ t.rows, r.isDueByText now = r.isDue now := by
      intro r hr
      rw [Bool.eq_iff_iff, (times r hr).isDueByText_iff present, Row.isDue_iff]
    rw [dueByText, due, List.filter_congr same]

def timedRow (id : Int) (status : String) (next : Instant) (lease : Option Instant) : Row where
  id := id
  eventType := "check"
  payload := .ofJson (.int 17)
  status := status
  attempts := 0
  nextAttemptAt := next
  processingUntil := lease
  lastError := none
  createdAt := ⟨0, 0⟩
  updatedAt := ⟨0, 0⟩

/-- The last second of a year, an inserted one after it, and the next year, with none, three, six and
nine decimals. -/
def turnOfYear : Table :=
  ⟨[timedRow 1 "pending" ⟨1483228799, 1000000000⟩ none,
    timedRow 2 "pending" ⟨1483228799, 1500000001⟩ none,
    timedRow 3 "processing" ⟨0, 0⟩ (some ⟨1483228799, 999999000⟩),
    timedRow 4 "processing" ⟨0, 0⟩ (some ⟨1483228800, 0⟩),
    timedRow 5 "pending" ⟨1483228799, 0⟩ none], 5⟩

/-- Half of the inserted second has passed. -/
theorem columns_tell_time_turnOfYear : ColumnsTellTime turnOfYear ⟨1483228799, 1500000000⟩ ∧
    (turnOfYear.dueByText 9 ⟨1483228799, 1500000000⟩).map (·.id) = [1, 3, 5] := by
  have tells : ColumnsTellTime turnOfYear ⟨1483228799, 1500000000⟩ :=
    columns_tell_time (by decide +kernel) (by decide +kernel)
  refine ⟨tells, ?_⟩
  rw [tells.selected]
  decide

end Table

end Courier.Outbox
