import Courier.Proofs.Decimal.Rounding
import Courier.Text.Integer

/-! # Decimals below a power of ten

The shortest decimal of a double lies on a grid of decimal places, next to the double. A double whose
last place is small has a decimal that is below a power of ten, and so only a few digits before the
point.
-/

namespace Courier

namespace Decimal

def Below (n : Nat) (d : Decimal) : Prop :=
  d.coefficient * 10 ^ d.exponent.toNat < 10 ^ (n + (-d.exponent).toNat)

variable {n : Nat} {d : Decimal}

theorem pow_le_of_length_digits (m : Nat) (pos : 0 < m) :
    10 ^ ((Text.digits m).length - 1) ≤ m := by
  induction m using Nat.strongRecOn with
  | ind m ih =>
      rw [Text.digits]
      split
      · exact pos
      · have rest := ih (m / 10) (by omega) (by omega)
        obtain ⟨l, hl⟩ := Nat.exists_eq_succ_of_ne_zero
          (mt List.length_eq_zero_iff.1 (Text.digits_ne_nil (m / 10)))
        rw [hl, Nat.succ_sub_one] at rest
        rw [List.length_append, hl, List.length_singleton, Nat.add_sub_cancel, Nat.pow_succ]
        omega

/-- The point stands behind at most so many digits. -/
theorem Below.point (h : d.Below n) (nonzero : d.coefficient ≠ 0) :
    ((Text.digits d.coefficient).length : Int) + d.exponent ≤ n := by
  have leading := pow_le_of_length_digits d.coefficient (Nat.pos_of_ne_zero nonzero)
  have powers : 10 ^ ((Text.digits d.coefficient).length - 1 + d.exponent.toNat) <
      10 ^ (n + (-d.exponent).toNat) := by
    rw [Nat.pow_add]
    exact Nat.lt_of_le_of_lt (Nat.mul_le_mul_right _ leading) h
  have := (Nat.pow_lt_pow_iff_right (by decide)).1 powers
  omega

end Decimal

namespace Binary

open Decimal

variable {n : Nat} {b : Binary}

theorem below_stripZeros {d : Decimal} (h : d.Below n) (fuel : Nat) :
    (stripZeros fuel d).Below n := by
  induction fuel generalizing d with
  | zero => exact h
  | succ fuel ih =>
      rw [Binary.stripZeros]
      split
      · rename_i zeros
        refine ih ?_
        obtain ⟨c, hc⟩ : ∃ c, d.coefficient = c * 10 :=
          ⟨_, (Nat.div_mul_cancel (Nat.dvd_of_mod_eq_zero zeros.1)).symm⟩
        unfold Decimal.Below at h ⊢
        rw [hc] at h ⊢
        dsimp only
        rw [Nat.mul_div_cancel _ (by decide)]
        by_cases sign : 0 ≤ d.exponent
        · have up : (d.exponent + 1).toNat = d.exponent.toNat + 1 := by omega
          have down : (-(d.exponent + 1)).toNat = (-d.exponent).toNat := by omega
          rw [up, down, Nat.pow_succ, Nat.mul_comm _ 10, ← Nat.mul_assoc]
          exact h
        · have up : (d.exponent + 1).toNat = d.exponent.toNat := by omega
          have down : n + (-d.exponent).toNat = n + (-(d.exponent + 1)).toNat + 1 := by omega
          rw [up]
          rw [down, Nat.pow_succ, Nat.mul_right_comm] at h
          exact Nat.lt_of_mul_lt_mul_right h
      · exact h

/-- The logarithm is at least two thirds of a digit too small. -/
theorem magnitude_le (b : Binary) :
    b.magnitude ≤ ((b.mantissa.log2 : Int) + b.exponent) * 30103 / 100000 + 2 := by
  unfold magnitude
  dsimp only
  generalize hfound : List.find? _ _ = found
  cases found with
  | none =>
      rw [Option.getD_none]
      omega
  | some k =>
      have member := List.mem_of_find?_eq_some hfound
      simp only [List.mem_cons, List.not_mem_nil, or_false] at member
      rw [Option.getD_some]
      omega

/-- A multiple of a decimal place that rounds to the double is next to it. -/
theorem onGrid?_le {e : Int} {d : Decimal} (h : b.onGrid? e = some d) :
    d.exponent = e ∧ d.coefficient ≤ 4 * b.mantissa * (b.grid e).quarter / (b.grid e).place + 1 := by
  unfold onGrid? at h
  dsimp only at h
  split at h
  · cases h
    dsimp only
    split <;> omega
  · cases h
    dsimp only
    omega
  · cases h
    dsimp only
    omega
  · cases h

/-- A double below ten to a power, by its last place. -/
structure Small (n : Nat) (b : Binary) : Prop where
  bits : b.mantissa < 2 ^ 53
  place : b.exponent ≤ -16
  value : 2 ^ 53 ≤ 10 ^ n * 2 ^ (-b.exponent).toNat
  log : (52 + b.exponent) * 30103 / 100000 + 1 ≤ n

theorem Small.onGrid? {e : Int} {d : Decimal} (small : Small n b) (h : b.onGrid? e = some d)
    (he : e ≤ n) : d.Below (n + 1) := by
  obtain ⟨rfl, near⟩ := onGrid?_le h
  have hq : (b.exponent - 2).toNat = 0 := by have := small.place; omega
  have hp : (-(b.exponent - 2)).toNat = (-b.exponent).toNat + 2 := by have := small.place; omega
  have quarter : (b.grid d.exponent).quarter = 10 ^ (-d.exponent).toNat := by
    change 2 ^ (b.exponent - 2).toNat * 10 ^ (-d.exponent).toNat = _
    rw [hq, Nat.pow_zero, Nat.one_mul]
  have place : (b.grid d.exponent).place = 2 ^ (-b.exponent).toNat * 4 * 10 ^ d.exponent.toNat := by
    change 2 ^ (-(b.exponent - 2)).toNat * 10 ^ d.exponent.toNat = _
    rw [hp, Nat.pow_add]
  rw [quarter, place] at near
  generalize hc : 4 * b.mantissa * 10 ^ (-d.exponent).toNat /
    (2 ^ (-b.exponent).toNat * 4 * 10 ^ d.exponent.toNat) = c at near
  have below : c * 10 ^ d.exponent.toNat < 10 ^ n * 10 ^ (-d.exponent).toNat := by
    refine Nat.lt_of_mul_lt_mul_left (a := 2 ^ (-b.exponent).toNat * 4) ?_
    calc 2 ^ (-b.exponent).toNat * 4 * (c * 10 ^ d.exponent.toNat)
        = c * (2 ^ (-b.exponent).toNat * 4 * 10 ^ d.exponent.toNat) := by ac_rfl
      _ ≤ 4 * b.mantissa * 10 ^ (-d.exponent).toNat := by
          rw [← hc]
          exact Nat.div_mul_le_self _ _
      _ < 4 * 2 ^ 53 * 10 ^ (-d.exponent).toNat :=
          Nat.mul_lt_mul_of_pos_right (Nat.mul_lt_mul_of_pos_left small.bits (by decide))
            (Nat.pow_pos (by decide))
      _ ≤ 4 * (10 ^ n * 2 ^ (-b.exponent).toNat) * 10 ^ (-d.exponent).toNat :=
          Nat.mul_le_mul_right _ (Nat.mul_le_mul_left 4 small.value)
      _ = 2 ^ (-b.exponent).toNat * 4 * (10 ^ n * 10 ^ (-d.exponent).toNat) := by ac_rfl
  have step : 10 ^ d.exponent.toNat ≤ 10 ^ (n + (-d.exponent).toNat) :=
    Nat.pow_le_pow_right (by decide) (by omega)
  have next : 10 ^ (n + 1 + (-d.exponent).toNat) = 10 * 10 ^ (n + (-d.exponent).toNat) := by
    rw [Nat.add_right_comm, Nat.pow_succ, Nat.mul_comm]
  rw [← Nat.pow_add] at below
  unfold Decimal.Below
  calc d.coefficient * 10 ^ d.exponent.toNat ≤ (c + 1) * 10 ^ d.exponent.toNat :=
        Nat.mul_le_mul_right _ near
    _ = c * 10 ^ d.exponent.toNat + 10 ^ d.exponent.toNat := Nat.succ_mul _ _
    _ < 10 ^ (n + 1 + (-d.exponent).toNat) := by omega

theorem Small.shortest (small : Small n b) : b.shortest.Below (n + 1) := by
  unfold Binary.shortest
  split
  · exact Nat.pow_pos (by decide)
  · dsimp only
    refine below_stripZeros ?_ _
    generalize hfound : List.findSome? _ _ = found
    cases found with
    | none =>
        have fine := small.place
        have whole : b.exponent.toNat = 0 := by omega
        rw [Option.getD_none, Decimal.Below, whole, Nat.pow_zero, Nat.mul_one]
        calc b.mantissa < 2 ^ 53 := small.bits
          _ ≤ 10 ^ 16 := by decide
          _ ≤ 10 ^ (n + 1 + (-b.exponent).toNat) := Nat.pow_le_pow_right (by decide) (by omega)
    | some d =>
        obtain ⟨i, _, hi⟩ := List.exists_of_findSome?_eq_some hfound
        refine small.onGrid? hi ?_
        have := b.magnitude_le
        have := small.log
        have := log2_lt_of_lt small.bits (by decide)
        omega

end Binary

end Courier
