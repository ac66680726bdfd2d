import Courier.Time.Calendar
import Courier.Time.Span

/-!
# Instants

Moments of universal time to the nanosecond. An inserted second belongs to the second before it:
it is kept as a fraction of more than a second, so that it sorts between its neighbours and is
written as second 60. Calendar years are bounded, hence adding a span may have no result.
-/

namespace Courier

/-- A moment: whole seconds since the start of 1970 and nanoseconds within the second. -/
structure Instant where
  second : Int
  nano : Nat
  deriving DecidableEq, Repr, Inhabited

namespace Instant

def epochDay : Int := 719528

def firstYear : Int := -262143

def lastYear : Int := 262142

/-- The day of a moment, counted from the first day of year 0. -/
def day (t : Instant) : Int := t.second / 86400 + epochDay

def secondOfDay (t : Instant) : Nat := (t.second % 86400).toNat

def InCalendar (t : Instant) : Prop :=
  Date.yearStart firstYear ≤ t.day ∧ t.day < Date.yearStart (lastYear + 1)

instance (t : Instant) : Decidable t.InCalendar := inferInstanceAs (Decidable (_ ∧ _))

def ofDate (d : Date) (secondOfDay nano : Nat) : Instant :=
  ⟨(d.toDays - epochDay) * 86400 + secondOfDay, nano⟩

def le (a b : Instant) : Prop := a.second < b.second ∨ (a.second = b.second ∧ a.nano ≤ b.nano)

def lt (a b : Instant) : Prop := a.second < b.second ∨ (a.second = b.second ∧ a.nano < b.nano)

instance : LE Instant := ⟨le⟩
instance : LT Instant := ⟨lt⟩
instance (a b : Instant) : Decidable (a ≤ b) :=
  inferInstanceAs (Decidable (a.second < b.second ∨ (a.second = b.second ∧ a.nano ≤ b.nano)))
instance (a b : Instant) : Decidable (a < b) :=
  inferInstanceAs (Decidable (a.second < b.second ∨ (a.second = b.second ∧ a.nano < b.nano)))

/-- A moment moved by a number of nanoseconds, calendar or not. Leaving an inserted second takes
its length off the fraction. -/
def shift (t : Instant) (nanos : Int) : Instant :=
  let total (second nano : Int) : Instant :=
    let n := second * 1000000000 + nano + nanos
    ⟨n / 1000000000, (n % 1000000000).toNat⟩
  if t.nano < 1000000000 then total t.second t.nano
  else
    let moved := (t.nano : Int) + nanos
    if 2000000000 ≤ moved then total t.second (t.nano - 1000000000 : Nat)
    else if moved < 1000000000 then total (t.second + 1) (t.nano - 1000000000 : Nat)
    else ⟨t.second, moved.toNat⟩

/-- A moment moved by a number of nanoseconds; nothing outside the calendar. -/
def add? (t : Instant) (nanos : Int) : Option Instant :=
  let t' := t.shift nanos
  if t'.InCalendar then some t' else none

/-- The nanoseconds from one moment to another, inserted seconds not counted. -/
def since (a b : Instant) : Int :=
  (a.second - b.second) * 1000000000 + ((a.nano : Int) - b.nano)

theorem le_iff {a b : Instant} :
    a ≤ b ↔ a.second < b.second ∨ (a.second = b.second ∧ a.nano ≤ b.nano) := Iff.rfl

theorem lt_iff {a b : Instant} :
    a < b ↔ a.second < b.second ∨ (a.second = b.second ∧ a.nano < b.nano) := Iff.rfl

end Instant

end Courier
