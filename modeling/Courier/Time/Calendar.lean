/-!
# The calendar

Dates of the proleptic Gregorian calendar and the numbering of days from the first day of year 0.
-/

namespace Courier

/-- A date: a year, a month from 1 and a day from 1. -/
structure Date where
  year : Int
  month : Nat
  day : Nat
  deriving DecidableEq, Repr

namespace Date

def IsLeap (year : Int) : Prop := year % 4 = 0 ∧ (year % 100 ≠ 0 ∨ year % 400 = 0)

instance (year : Int) : Decidable (IsLeap year) := inferInstanceAs (Decidable (_ ∧ _))

/-- The number of days in a year before its months, the last entry the length of the year. -/
def daysBefore (leap : Bool) (month : Nat) : Nat :=
  let extra := if leap && 2 < month then 1 else 0
  extra + match month with
    | 0 | 1 => 0
    | 2 => 31
    | 3 => 59
    | 4 => 90
    | 5 => 120
    | 6 => 151
    | 7 => 181
    | 8 => 212
    | 9 => 243
    | 10 => 273
    | 11 => 304
    | 12 => 334
    | _ => 365

def daysIn (year : Int) (month : Nat) : Nat :=
  daysBefore (decide (IsLeap year)) (month + 1) - daysBefore (decide (IsLeap year)) month

def Valid (d : Date) : Prop :=
  1 ≤ d.month ∧ d.month ≤ 12 ∧ 1 ≤ d.day ∧ d.day ≤ daysIn d.year d.month

instance (d : Date) : Decidable d.Valid := inferInstanceAs (Decidable (_ ∧ _ ∧ _ ∧ _))

def yearStart (year : Int) : Int :=
  365 * year + (year + 3) / 4 - (year + 99) / 100 + (year + 399) / 400

/-- The number of a day, counted from the first day of year 0. -/
def toDays (d : Date) : Int :=
  yearStart d.year + daysBefore (decide (IsLeap d.year)) d.month + (d.day - 1 : Nat)

/-- The year of a day: four hundred years have 146097 days, which places a day within a year of
the right one. -/
def yearOf (days : Int) : Int :=
  let guess := 400 * days / 146097
  if days < yearStart guess then guess - 1
  else if yearStart (guess + 1) ≤ days then guess + 1
  else guess

/-- The month that a day of the year, counted from 0, falls into. -/
def monthOf (leap : Bool) (dayOfYear : Nat) : Nat :=
  ((List.range 12).filter fun m => daysBefore leap (m + 1) ≤ dayOfYear).length

def ofDays (days : Int) : Date :=
  let year := yearOf days
  let dayOfYear := (days - yearStart year).toNat
  let leap := decide (IsLeap year)
  let month := monthOf leap dayOfYear
  ⟨year, month, dayOfYear - daysBefore leap month + 1⟩

theorem yearStart_succ (year : Int) :
    yearStart (year + 1) = yearStart year + if IsLeap year then 366 else 365 := by
  by_cases h : IsLeap year
  · rw [if_pos h]
    unfold IsLeap at h
    unfold yearStart
    omega
  · rw [if_neg h]
    unfold IsLeap at h
    unfold yearStart
    omega

/-- The year of a day starts no later than the day, and the next year starts after it. -/
theorem yearOf_bounds (days : Int) :
    yearStart (yearOf days) ≤ days ∧ days < yearStart (yearOf days + 1) := by
  unfold yearOf
  simp only
  have h1 : yearStart (400 * days / 146097 - 1) ≤ days := by unfold yearStart; omega
  have h2 : days < yearStart (400 * days / 146097 + 1 + 1) := by unfold yearStart; omega
  split
  · rename_i h
    exact ⟨h1, by simpa using h⟩
  · split
    · rename_i h
      exact ⟨h, h2⟩
    · rename_i h h'
      exact ⟨by omega, by omega⟩

end Date

end Courier
