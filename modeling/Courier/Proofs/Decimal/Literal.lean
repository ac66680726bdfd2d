import Courier.Decimal.Literal
import Courier.Proofs.Decimal.Rounding

/-! # Literals read as doubles

A literal with few digits before the point, and with a point or an exponent below zero, is read as a
double, and the double has a small last place. Digits that no word holds are dropped, the scale is
made up with powers of ten.
-/

namespace Courier.Decimal.Literal

open Binary Float.Model Float.Model.UnpackedFloat

variable {s k : Nat} {ds : List Nat}

/-! ## Significands -/

/-- One digit more, if it fits: the significand, how many digits were taken, and whether one was
dropped. -/
def take : Nat × Nat × Bool → Nat → Nat × Nat × Bool
  | (s, taken, full), d =>
    if full || wordMax < 10 * s + d then (s, taken, true) else (10 * s + d, taken + 1, false)

theorem absorb_eq (s : Nat) (ds : List Nat) : absorb s ds =
    ((ds.foldl take (s, 0, false)).1, (ds.foldl take (s, 0, false)).2.1) := rfl

/-- What becomes of a significand of at most `k` digits: how it grows, and when all digits or the
first are taken. -/
structure Absorbed (k : Nat) (ds : List Nat) (s' more : Nat) (full : Bool) : Prop where
  few : s' < 10 ^ (k + more)
  word : s' ≤ wordMax
  all : full = false → 10 ^ (k + ds.length) ≤ wordMax → more = ds.length
  first : full = false → ds ≠ [] → 10 ^ (k + 1) ≤ wordMax → 0 < more

theorem foldl_take (few : s < 10 ^ k) (word : s ≤ wordMax) (digits : ∀ d ∈ ds, d ≤ 9)
    (taken : Nat) (full : Bool) : ∃ more, (ds.foldl take (s, taken, full)).2.1 = taken + more ∧
      Absorbed k ds (ds.foldl take (s, taken, full)).1 more full := by
  -- by induction on the digits; once one was dropped, none is taken any more
  induction ds generalizing s k taken full with
  | nil => exact ⟨0, rfl, few, word, fun _ _ => rfl, fun _ none => absurd rfl none⟩
  | cons d ds ih =>
      have digit : d ≤ 9 := digits d List.mem_cons_self
      have rest : ∀ d ∈ ds, d ≤ 9 := fun d hd => digits d (List.mem_cons_of_mem _ hd)
      have next : 10 ^ (k + 1) = 10 * 10 ^ k := by rw [Nat.pow_succ, Nat.mul_comm]
      have grown : 10 * s + d < 10 ^ (k + 1) := by omega
      rw [List.foldl_cons]
      by_cases stop : (full || wordMax < 10 * s + d) = true
      · have stays : take (s, taken, full) d = (s, taken, true) := if_pos stop
        obtain ⟨more, same, absorbed⟩ := ih few word rest taken true
        have dropped (fresh : full = false) (room : 10 ^ (k + 1) ≤ wordMax) : False := by
          rw [fresh, Bool.false_or, decide_eq_true_eq] at stop
          omega
        rw [stays]
        refine ⟨more, same, absorbed.few, absorbed.word, fun fresh room => ?_, fun fresh _ room =>
          (dropped fresh room).elim⟩
        have shorter : 10 ^ (k + 1) ≤ 10 ^ (k + (d :: ds).length) :=
          Nat.pow_le_pow_right (by decide) (by rw [List.length_cons]; omega)
        exact (dropped fresh (Nat.le_trans shorter room)).elim
      · have goes : take (s, taken, full) d = (10 * s + d, taken + 1, false) := if_neg stop
        rw [Bool.or_eq_true, not_or, decide_eq_true_eq] at stop
        obtain ⟨more, same, absorbed⟩ := ih grown (by omega) rest (taken + 1) false
        rw [goes]
        refine ⟨more + 1, by omega, ?_, absorbed.word, fun _ room => ?_, fun _ _ _ => by omega⟩
        · rw [show k + (more + 1) = k + 1 + more by omega]
          exact absorbed.few
        · rw [List.length_cons] at room ⊢
          rw [absorbed.all rfl (by rwa [show k + 1 + ds.length = k + (ds.length + 1) by omega])]

theorem absorb_absorbed (few : s < 10 ^ k) (word : s ≤ wordMax) (digits : ∀ d ∈ ds, d ≤ 9) :
    Absorbed k ds (absorb s ds).1 (absorb s ds).2 false := by
  obtain ⟨more, same, absorbed⟩ := foldl_take few word digits 0 false
  rw [Nat.zero_add] at same
  rw [absorb_eq, same]
  exact absorbed

/-! ## Scaling -/

/-- A power of ten that is in no table is one, scaled and rounded. -/
theorem powerOfTen_rounded {n : Nat} (least : 22 < n) (most : n < 308) :
    powerOfTen n = .ofModel (.pack (roundWithAccuracy Format.binary64 .positive (2 ^ 53 * 10 ^ n)
      (-53) .exact)) := by
  have safe : ¬ (n : Int) < -((2 ^ 11 : Int) + Nat.log2 1) := by omega
  have product : UnpackedFloat.ofScientific Format.binary64 1 n = roundWithAccuracy Format.binary64
      .positive (2 ^ 53 * 10 ^ n) (-53) .exact := by
    unfold UnpackedFloat.ofScientific
    rw [dif_neg (by decide), if_neg (by change ¬ (n : Int) > 2 ^ 11; omega), if_neg safe,
      if_pos (by omega), mul_finite]
    rfl
  unfold powerOfTen Float.ofScientific
  rw [dif_neg (by omega), ← product]
  rfl

theorem log2_scaled {n : Nat} (most : n < 308) :
    53 ≤ (2 ^ 53 * 10 ^ n).log2 ∧ (2 ^ 53 * 10 ^ n).log2 < 1074 := by
  have pos : 2 ^ 53 * 10 ^ n ≠ 0 := by
    have := Nat.pow_pos (n := n) (show 0 < 10 by decide)
    omega
  refine ⟨(Nat.le_log2 pos).2 (by omega), (Nat.log2_lt pos).2 ?_⟩
  calc 2 ^ 53 * 10 ^ n ≤ 2 ^ 53 * 10 ^ 307 :=
        Nat.mul_le_mul_left _ (Nat.pow_le_pow_right (by decide) (by omega))
    _ < 2 ^ 1074 := by decide +kernel

/-- A power of ten is a double with a full mantissa, and no more than half of it is lost. -/
theorem ofFloat?_powerOfTen {n : Nat} (h : n < 309) : ∃ b, ofFloat? (powerOfTen n) = some b ∧
    b.mantissa.log2 = 52 ∧ 10 ^ n < 2 ^ (b.exponent + 53).toNat := by
  by_cases exact : n ≤ 22
  · have table : ∀ n ≤ 22, ∃ b ∈ ofFloat? (powerOfTen n),
      b.mantissa.log2 = 52 ∧ 10 ^ n < 2 ^ (b.exponent + 53).toNat := by decide +kernel
    exact table n exact
  · by_cases last : n = 308
    · -- the general bound would allow a last place that no double has
      subst last
      have largest : ∃ b ∈ ofFloat? (powerOfTen 308),
        b.mantissa.log2 = 52 ∧ 10 ^ 308 < 2 ^ (b.exponent + 53).toNat := by decide +kernel
      exact largest
    · obtain ⟨above, below⟩ := log2_scaled (show n < 308 by omega)
      obtain ⟨m, e, hm, rounded, many, few, low, high⟩ :=
        roundWithAccuracy_normal .positive .exact (m := 2 ^ 53 * 10 ^ n) (e := -53) (by omega)
          (by omega)
      rw [powerOfTen_rounded (by omega) (by omega), rounded,
        ofFloat?_pack_normal many few (by omega) (by omega)]
      refine ⟨_, rfl, (Nat.log2_eq_iff (Nat.ne_of_gt hm)).2 ⟨many, few⟩, ?_⟩
      have size : 2 ^ 53 * 10 ^ n < 2 ^ 53 * 2 ^ ((2 ^ 53 * 10 ^ n).log2 - 52) := by
        rw [← Nat.pow_add]
        exact Nat.lt_of_lt_of_le Nat.lt_log2_self (Nat.pow_le_pow_right (by decide) (by omega))
      refine Nat.lt_of_lt_of_le (Nat.lt_of_mul_lt_mul_left size) ?_
      exact Nat.pow_le_pow_right (by decide) (by dsimp only; omega)

theorem lastPlace_zero (k : Int) (low : -1074 ≤ k) : LastPlace k 0.0 := by
  have zero : ofFloat? 0.0 = some ⟨0, -1074⟩ := by decide +kernel
  exact ⟨_, zero, low⟩

theorem place_of_power {n m : Nat} {e : Int} (least : 2 ^ m ≤ n) (h : n < 2 ^ (e + 53).toNat) :
    m < e + 53 := by
  have := (Nat.pow_lt_pow_iff_right (by decide)).1 (Nat.lt_of_le_of_lt least h)
  omega

/-- A number of few digits before its point is scaled to a double of a small last place. -/
theorem scale_of_neg {t w i : Nat} {e : Int} (few : t < 10 ^ (w + (-e).toNat)) (word : t ≤ wordMax)
    (neg : e < 0) (wide : 10 ^ w ≤ 2 ^ i) (low : i ≤ 64) :
    ∃ y, scale t e = some y ∧ LastPlace (i - 49) y := by
  have fits : t < 2 ^ 64 := Nat.lt_of_le_of_lt word (by decide)
  unfold scale
  rw [if_neg (by omega)]
  split
  · -- one division; the significand is bounded by its word or by the digits before the point
    obtain ⟨b, found, full, power⟩ := ofFloat?_powerOfTen (n := (-e).toNat) (by omega)
    obtain ⟨j, bits, short, small⟩ : ∃ j : Nat, t < 2 ^ j ∧ j ≤ 64 ∧
        (j : Int) ≤ i + (b.exponent + 53).toNat := by
      by_cases large : 64 ≤ i + (b.exponent + 53).toNat
      · exact ⟨64, fits, Nat.le_refl _, by omega⟩
      · refine ⟨i + (b.exponent + 53).toNat, ?_, by omega, by omega⟩
        rw [Nat.pow_add] at few ⊢
        exact Nat.lt_of_lt_of_le few (Nat.mul_le_mul wide (Nat.le_of_lt power))
    have positive := place_of_power (m := 0) (Nat.pow_pos (by decide)) power
    have divided := (lastPlace_ofNat bits (by omega)).div (K := i + 3) found
      (by rintro none; rw [none] at full; cases full) (by omega) (by omega) (by omega)
    exact ⟨_, rfl, (show (i : Int) + 3 - 52 = i - 49 by omega) ▸ divided⟩
  · split
    · -- two divisions; the first makes any word small
      obtain ⟨b, found, full, power⟩ := ofFloat?_powerOfTen (n := 308) (by decide)
      obtain ⟨b', found', full', power'⟩ := ofFloat?_powerOfTen (n := (-e - 308).toNat) (by omega)
      have large := place_of_power (m := 1023) (by decide +kernel) power
      have large' := place_of_power (m := 0) (Nat.pow_pos (by decide)) power'
      have first := (lastPlace_ofNat fits (by decide)).div (K := -957) found
        (by rintro none; rw [none] at full; cases full) (by omega) (by decide) (by decide)
      have second := first.div (K := -956) found'
        (by rintro none; rw [none] at full'; cases full') (by omega) (by decide) (by decide)
      exact ⟨_, rfl, second.mono (by omega)⟩
    · exact ⟨_, rfl, lastPlace_zero _ (by omega)⟩

/-! ## Values -/

/-- A literal of at most so many digits before the point that cannot be taken for a whole number,
and whose exponent, if any, is below zero. -/
structure Modest (w : Nat) (l : Literal) : Prop where
  digits : ∀ d ∈ l.whole ++ l.fraction, d ≤ 9
  short : l.whole.length ≤ w
  shrinks : (l.exponent = none ∧ l.fraction ≠ []) ∨ ∃ ds, l.exponent = some (true, ds) ∧ 0 < value ds

variable {l : Literal} {w i : Nat}

theorem Modest.isWhole (h : l.Modest w) : l.isWhole = false := by
  unfold Literal.isWhole
  rcases h.shrinks with ⟨_, some⟩ | ⟨ds, exponent, _⟩
  · simp [some]
  · simp [exponent]

/-- Every digit before the point is absorbed, and at least one after it unless there is none. -/
theorem Modest.magnitude? (h : l.Modest w) (room : w ≤ 18) (wide : 10 ^ w ≤ 2 ^ i) (low : i ≤ 64) :
    ∃ y, l.magnitude? = some y ∧ LastPlace (i - 49) y := by
  have fits : 10 ^ (w + 1) ≤ wordMax :=
    Nat.le_trans (Nat.pow_le_pow_right (by decide) (show w + 1 ≤ 19 by omega)) (by decide)
  have whole : Absorbed 0 l.whole (absorb 0 l.whole).1 (absorb 0 l.whole).2 false :=
    absorb_absorbed (by decide) (by decide) fun d hd => h.digits d (List.mem_append_left _ hd)
  have every : (absorb 0 l.whole).2 = l.whole.length := whole.all rfl <| by
    refine Nat.le_trans (Nat.pow_le_pow_right (by decide) ?_) fits
    have := h.short
    omega
  have few := whole.few
  rw [every, Nat.zero_add] at few
  have fraction := absorb_absorbed (k := l.whole.length) few whole.word
    fun d hd => h.digits d (List.mem_append_right _ hd)
  have taken := fraction.few
  have short := h.short
  have scaled {e : Int} (neg : e < 0) (places : (absorb (absorb 0 l.whole).1 l.fraction).2 ≤ -e) :
      ∃ y, scale (absorb (absorb 0 l.whole).1 l.fraction).1 e = some y ∧ LastPlace (i - 49) y :=
    scale_of_neg (Nat.lt_of_lt_of_le taken (Nat.pow_le_pow_right (by decide) (by omega)))
      fraction.word neg wide low
  unfold Literal.magnitude?
  dsimp only
  rw [every, Nat.sub_self]
  rcases h.shrinks with ⟨none, some⟩ | ⟨ds, exponent, pos⟩
  · have first := fraction.first rfl some
      (Nat.le_trans (Nat.pow_le_pow_right (by decide) (by omega)) fits)
    rw [none]
    exact scaled (by omega) (by omega)
  · rw [exponent]
    unfold exponentValue?
    dsimp only
    by_cases large : 2147483647 < value ds
    · rw [if_pos large]
      exact ⟨_, rfl, lastPlace_zero _ (by omega)⟩
    · rw [if_neg large, if_pos rfl]
      exact scaled (by omega) (by omega)

theorem Modest.number? (h : l.Modest w) (room : w ≤ 18) (wide : 10 ^ w ≤ 2 ^ i) (low : i ≤ 64) :
    ∃ y, l.number? = some (.float y) ∧ LastPlace (i - 49) y := by
  obtain ⟨x, magnitude, place⟩ := h.magnitude? room wide low
  have value : l.number? = some (.float (if l.negative then -x else x)) := by
    simp [Literal.number?, h.isWhole, Literal.float?, magnitude]
  refine ⟨_, value, ?_⟩
  split
  · exact place.neg (by omega) (by omega)
  · exact place

end Courier.Decimal.Literal
