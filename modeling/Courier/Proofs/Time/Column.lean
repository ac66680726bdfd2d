import Courier.Proofs.Text.Order
import Courier.Proofs.Time.Clock
import Courier.Time.Written

/-! # Moments in columns

A column keeps a moment as text and compares the texts by their bytes. In years of four digits every
field of the date and of the time of day has a width of its own, and the fields stand in the order of
their weight. The fraction alone has several widths: the shorter one ends in the sign of the offset,
which comes before the point and before the digits. So the texts are in the order of the moments.
-/

namespace Courier.Date

variable {a b : Int}

theorem yearOf_mono (h : a ≤ b) : yearOf a ≤ yearOf b := by
  obtain ⟨started, _⟩ := yearOf_bounds a
  obtain ⟨_, ends⟩ := yearOf_bounds b
  by_contra later
  have mono : yearStart (yearOf b + 1) ≤ yearStart (yearOf a) := by
    unfold yearStart
    omega
  omega

theorem daysBefore_mono (leap : Bool) : ∀ n ≤ 12, ∀ m ≤ n, daysBefore leap m ≤ daysBefore leap n := by
  cases leap <;> decide

/-- Days of the same year are in the order of their months, and in that of their days within one. -/
theorem month_day_of_lt {leap : Bool} {m n : Nat} (h : m < n) (within : n < if leap then 366 else 365) :
    monthOf leap m < monthOf leap n ∨
      monthOf leap m = monthOf leap n ∧
        m - daysBefore leap (monthOf leap m) < n - daysBefore leap (monthOf leap n) := by
  have first := monthOf_spec leap m (by omega)
  have second := monthOf_spec leap n within
  rcases Nat.lt_trichotomy (monthOf leap m) (monthOf leap n) with less | same | more
  · exact .inl less
  · refine .inr ⟨same, ?_⟩
    rw [same] at first ⊢
    omega
  · have between : daysBefore leap (monthOf leap n + 1) ≤ daysBefore leap (monthOf leap m) :=
      daysBefore_mono leap _ first.2.1 _ more
    omega

/-- A later day has the later year, or the later month in the same year, or the later day of the same
month. -/
theorem ofDays_of_lt (h : a < b) : (ofDays a).year < (ofDays b).year ∨
    (ofDays a).year = (ofDays b).year ∧ ((ofDays a).month < (ofDays b).month ∨
      (ofDays a).month = (ofDays b).month ∧ (ofDays a).day < (ofDays b).day) := by
  rcases Int.lt_or_eq_of_le (yearOf_mono (Int.le_of_lt h)) with less | same
  · exact .inl less
  · refine .inr ⟨same, ?_⟩
    have started := (yearOf_bounds a).1
    have within := dayOfYear_lt b
    unfold ofDays
    dsimp only
    rw [same] at started ⊢
    have later : (a - yearStart (yearOf b)).toNat < (b - yearStart (yearOf b)).toNat := by omega
    rcases month_day_of_lt later within with less | ⟨month, less⟩
    · exact .inl less
    · exact .inr ⟨month, by omega⟩

end Courier.Date

namespace Courier.Instant

open Courier.Text

variable {m n : Nat} {xs ys : List Char} {s t : Instant}

/-! ## Dates -/

/-- The characters of a date in a year of four digits, in front of a time of day. -/
def dateText (d : Date) (rest : List Char) : List Char :=
  padded 4 d.year.toNat ++ '-' :: (padded 2 d.month ++ '-' :: (padded 2 d.day ++ 'T' :: rest))

theorem dateText_append (d : Date) (h : Before xs ys) : Before (dateText d xs) (dateText d ys) :=
  Before.append (.cons (Before.append (.cons (Before.append (.cons h) _)) _)) _

/-- The earlier day comes first, whatever the times of day. -/
theorem dateText_before {a b : Int} (h : a < b) (first : 0 ≤ (Date.ofDays a).year)
    (last : (Date.ofDays b).year ≤ 9999) :
    Before (dateText (Date.ofDays a) xs) (dateText (Date.ofDays b) ys) := by
  have short := Date.month_day_lt b
  unfold dateText
  rcases Date.ofDays_of_lt h with year | ⟨year, month | ⟨month, day⟩⟩
  · exact field_before (.inl (by omega)) (by omega) (by decide)
  · rw [year]
    exact Before.append (.cons (field_before (.inl month) short.1 (by decide))) _
  · rw [year, month]
    exact Before.append (.cons (Before.append
      (.cons (field_before (.inl day) short.2 (by decide))) _)) _

/-! ## Fractions -/

theorem fractionText_eq (pos : 0 < n) (short : n < 10 ^ 9) : ∃ width k, 0 < width ∧ width ≤ 9 ∧
    k < 10 ^ width ∧ k * 10 ^ (9 - width) = n ∧ fractionText n = '.' :: padded width k := by
  unfold fractionText
  rw [if_neg (by omega)]
  split
  · exact ⟨3, n / 1000000, by decide, by decide, by omega, by omega, rfl⟩
  · split
    · exact ⟨6, n / 1000, by decide, by decide, by omega, by omega, rfl⟩
    · exact ⟨9, n, by decide, by decide, short, by omega, rfl⟩

/-- The smaller fraction comes first, whichever is the longer one. -/
theorem fractionText_before (h : m < n) (short : n < 10 ^ 9) :
    Before (fractionText m ++ '+' :: xs) (fractionText n ++ '+' :: ys) := by
  obtain ⟨j, b, posj, hj, wideb, valueb, textb⟩ := fractionText_eq (show 0 < n by omega) short
  rcases Nat.eq_zero_or_pos m with rfl | pos
  · rw [textb]
    exact before_of_lt (by decide)
  · obtain ⟨i, a, posi, hi, widea, valuea, texta⟩ := fractionText_eq pos (by omega)
    rw [texta, textb]
    exact .cons (fraction_before hi hj posi posj widea wideb (by omega) (by decide))

/-! ## Times of day -/

def clockText (t : Instant) (rest : List Char) : List Char :=
  padded 2 (t.secondOfDay / 3600) ++ ':' :: (padded 2 (t.secondOfDay / 60 % 60) ++
    ':' :: (t.secondText ++ (fractionText (t.nano % 1000000000) ++ rest)))

/-- The nanoseconds of a moment belong to the last second of a minute if they are a second or more. -/
theorem Proper.secondOfDay (proper : t.Proper) : t.nano < 1000000000 ∨
    (t.nano < 2000000000 ∧ t.secondOfDay % 60 = 59) := by
  unfold Proper at proper
  unfold Instant.secondOfDay
  omega

/-- On the same day the later moment has the later second, or more nanoseconds in the same second. -/
theorem secondOfDay_of_lt (same : s.day = t.day) (h : s < t) : s.secondOfDay < t.secondOfDay ∨
    s.secondOfDay = t.secondOfDay ∧ s.nano < t.nano := by
  rw [lt_iff] at h
  unfold day at same
  unfold secondOfDay
  omega

theorem clockText_before (same : s.day = t.day) (h : s < t) (proper : s.Proper)
    (proper' : t.Proper) : Before (clockText s ('+' :: xs)) (clockText t ('+' :: ys)) := by
  have later := secondOfDay_of_lt same h
  have bounds := proper.secondOfDay
  have bounds' := proper'.secondOfDay
  have last := t.secondOfDay_lt
  unfold clockText secondText
  by_cases hour : s.secondOfDay / 3600 = t.secondOfDay / 3600
  · refine field_before (.inr ⟨hour, .cons ?_⟩) (by omega) (by decide)
    by_cases minute : s.secondOfDay / 60 % 60 = t.secondOfDay / 60 % 60
    · refine field_before (.inr ⟨minute, .cons ?_⟩) (by omega) (by decide)
      by_cases second : s.secondOfDay % 60 + s.nano / 1000000000 =
          t.secondOfDay % 60 + t.nano / 1000000000
      · refine field_before (.inr ⟨second, fractionText_before ?_ (by omega)⟩) (by omega) (by decide)
        omega
      · exact field_before (.inl (by omega)) (by omega) (by decide)
    · exact field_before (.inl (by omega)) (by omega) (by decide)
  · exact field_before (.inl (by omega)) (by omega) (by decide)

/-! ## Moments -/

/-- The moments that a column keeps in order: those of universal time in years of four digits. -/
structure Storable (t : Instant) : Prop where
  proper : t.Proper
  year : 0 ≤ t.date.year ∧ t.date.year ≤ 9999

instance (t : Instant) : Decidable t.Proper := inferInstanceAs (Decidable (_ ∨ _ ∧ _))

instance (t : Instant) : Decidable t.Storable :=
  decidable_of_iff (t.Proper ∧ 0 ≤ t.date.year ∧ t.date.year ≤ 9999)
    ⟨fun ⟨proper, year⟩ => ⟨proper, year⟩, fun ⟨proper, year⟩ => ⟨proper, year⟩⟩

def offsetText : List Char := ['+', '0', '0', ':', '0', '0']

theorem toList_offset : "+00:00".toList = offsetText := by simp [offsetText]

theorem Storable.columnText_eq (h : t.Storable) :
    t.columnText = String.ofList (dateText t.date (clockText t offsetText)) := by
  simp only [columnText, localText, yearText, if_pos h.year, dateText, clockText,
    toList_offset, List.append_assoc, List.cons_append]

theorem ascii_fractionText (n : Nat) : Ascii (fractionText n) := by
  unfold fractionText
  split
  · exact List.forall_mem_nil _
  · split
    · exact .cons (by decide) (ascii_padded _ _)
    · split
      · exact .cons (by decide) (ascii_padded _ _)
      · exact .cons (by decide) (ascii_padded _ _)

theorem ascii_columnText (t : Instant) : Ascii (dateText t.date (clockText t offsetText)) := by
  have offset : Ascii offsetText := by decide
  have clock : Ascii (clockText t offsetText) :=
    (ascii_padded _ _).append (.cons (by decide) ((ascii_padded _ _).append (.cons (by decide)
      ((ascii_padded _ _).append ((ascii_fractionText _).append offset)))))
  exact (ascii_padded _ _).append (.cons (by decide) ((ascii_padded _ _).append
    (.cons (by decide) ((ascii_padded _ _).append (.cons (by decide) clock)))))

/-- The earlier moment is stored as the text that comes first. -/
theorem Storable.before (h : s < t) (first : s.Storable) (second : t.Storable) :
    Before (dateText s.date (clockText s offsetText)) (dateText t.date (clockText t offsetText)) := by
  by_cases same : s.day = t.day
  · have dated : s.date = t.date := congrArg Date.ofDays same
    have clock : Before (clockText s offsetText) (clockText t offsetText) :=
      clockText_before same h first.proper second.proper
    rw [dated]
    exact dateText_append t.date clock
  · have earlier : s.day < t.day := by
      rw [lt_iff] at h
      unfold day at same ⊢
      omega
    exact dateText_before earlier first.year.1 second.year.2

theorem lt_of_le_of_ne (h : s ≤ t) (apart : s ≠ t) : s < t := by
  cases s
  cases t
  simp only [ne_eq, mk.injEq] at apart
  simp only [le_iff, lt_iff] at h ⊢
  omega

/-- The texts compare as the moments do. -/
theorem Storable.textNoLater_iff (first : s.Storable) (second : t.Storable) :
    textNoLater s.columnText t.columnText = true ↔ s ≤ t := by
  constructor
  · intro texts
    by_contra later
    have reversed := second.before (not_le.1 later) first
    rw [first.columnText_eq, second.columnText_eq,
      (textNoLater_of_before reversed (ascii_columnText t) (ascii_columnText s)).2] at texts
    exact Bool.noConfusion texts
  · intro h
    by_cases same : s = t
    · rw [same]
      exact noLater_refl _
    · have earlier : s < t := lt_of_le_of_ne h same
      rw [first.columnText_eq, second.columnText_eq]
      exact (textNoLater_of_before (first.before earlier second) (ascii_columnText s)
        (ascii_columnText t)).1

example : (⟨1483228799, 1500000000⟩ : Instant).columnText = "2016-12-31T23:59:60.500+00:00" := by
  decide +kernel

end Courier.Instant
