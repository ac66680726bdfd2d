import Courier.Time.Instant
import Mathlib.Order.Defs.LinearOrder

/-! # Clock readings

Instants are in a linear order, by their seconds and then by their nanoseconds. A clock counts
nanoseconds from the start of 1970 and never reads an inserted second. On its readings the order of
instants and moving by a span are the order of numbers and addition. From any moment on, inserted or
not, moving further leads to a later moment, and within the calendar as long as that one is.
-/

namespace Courier.Instant

instance : LinearOrder Instant where
  le_refl t := Or.inr ⟨rfl, Nat.le_refl _⟩
  le_trans a b c h h' := by
    simp only [le_iff] at *
    omega
  le_antisymm a b h h' := by
    obtain ⟨second, nano⟩ := a
    obtain ⟨second', nano'⟩ := b
    simp only [le_iff] at h h'
    simp only [mk.injEq]
    omega
  le_total a b := by
    simp only [le_iff]
    omega
  lt_iff_le_not_ge a b := by
    simp only [le_iff, lt_iff]
    omega
  toDecidableLE := inferInstance
  toDecidableEq := inferInstance
  toDecidableLT := inferInstance

def ofNanos (n : Int) : Instant := ⟨n / 1000000000, (n % 1000000000).toNat⟩

theorem ofNanos_le {a b : Int} : ofNanos a ≤ ofNanos b ↔ a ≤ b := by
  simp only [le_iff, ofNanos]
  omega

theorem ofNanos_shift (n k : Int) : (ofNanos n).shift k = ofNanos (n + k) := by
  have hn : (n % 1000000000).toNat < 1000000000 := by omega
  have hsum : n / 1000000000 * 1000000000 + ((n % 1000000000).toNat : Int) + k = n + k := by omega
  simp only [shift, ofNanos, if_pos hn, hsum]

theorem ofNanos_of_add? {n k : Int} {t : Instant} (h : (ofNanos n).add? k = some t) :
    t = ofNanos (n + k) := by
  simp only [add?, ofNanos_shift] at h
  split at h
  · exact (Option.some.inj h).symm
  · cases h

theorem ofNanos_lt {a b : Int} : ofNanos a < ofNanos b ↔ a < b := by
  simp only [lt_iff, ofNanos]
  omega

theorem ofNanos_since (a b : Int) : (ofNanos a).since (ofNanos b) = a - b := by
  simp only [since, ofNanos]
  omega

/-- Moving on leads to a later moment, also out of an inserted second. -/
theorem lt_of_add? {t t' : Instant} {nanos : Int} (positive : 0 < nanos)
    (h : t.add? nanos = some t') : t < t' := by
  unfold add? at h
  dsimp only at h
  split at h
  · cases h
    rw [lt_iff]
    unfold shift
    dsimp only
    split
    · dsimp only
      omega
    · split
      · dsimp only
        omega
      · split
        · dsimp only
          omega
        · dsimp only
          omega
  · cases h

/-- Moving further leads to a later moment. -/
theorem shift_mono (t : Instant) {j k : Int} (h : j ≤ k) : t.shift j ≤ t.shift k := by
  rw [le_iff]
  unfold shift
  dsimp only
  split
  · dsimp only
    omega
  · -- Within an inserted second, before it or behind it, for either moment.
    split <;> split <;> (try split) <;> (try split) <;> dsimp only <;> omega

theorem le_shift (t : Instant) {k : Int} (h : 0 ≤ k) : t ≤ t.shift k := by
  rw [le_iff]
  unfold shift
  dsimp only
  split
  · dsimp only
    omega
  · split
    · dsimp only
      omega
    · split
      · dsimp only
        omega
      · dsimp only
        omega

theorem InCalendar.of_between {a b c : Instant} (first : a.InCalendar) (last : c.InCalendar)
    (h : a ≤ b) (h' : b ≤ c) : b.InCalendar := by
  rw [le_iff] at h h'
  unfold InCalendar day at *
  omega

/-- Where there is a result of moving on, there is one of moving less far. -/
theorem add?_of_le {t latest : Instant} {j k : Int} (calendar : t.InCalendar)
    (ends : t.add? k = some latest) (nonneg : 0 ≤ j) (h : j ≤ k) :
    t.add? j = some (t.shift j) ∧ t ≤ t.shift j ∧ t.shift j ≤ latest := by
  unfold add? at ends ⊢
  dsimp only at ends ⊢
  split at ends
  · rename_i inside
    cases ends
    have before := t.le_shift nonneg
    have after := t.shift_mono h
    exact ⟨if_pos (calendar.of_between inside before after), before, after⟩
  · cases ends

end Courier.Instant
