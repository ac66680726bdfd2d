import Courier.Decimal.Shortest
import Mathlib.Algebra.Group.Nat.Defs

/-! # Last places of doubles

A double is a whole number of units of its last place. Its bits give the number and the place, and an
operation rounds to the bits of the nearest double. How small a last place is bounds the value, and is
bounded in turn by how small the operands of an operation are.
-/

namespace Courier.Binary

open Float.Model Float.Model.UnpackedFloat

variable {x y : Float} {b : Binary} {m : Nat} {e k : Int} {s : Sign}

theorem mantissa_toNat (v : BitVec 64) :
    (@unpackMantissa Format.binary64 v).toNat = v.toNat % leadingBit := by
  simp [unpackMantissa, leadingBit]

theorem exponent_toNat (v : BitVec 64) :
    (@unpackExponent Format.binary64 v).toNat = v.toNat / leadingBit % 2048 := by
  simp [unpackExponent, leadingBit, Nat.shiftRight_eq_div_pow]

theorem leadingBit_eq : leadingBit = 4503599627370496 := rfl

/-- A mantissa has 53 bits, and no last place is below the smallest double. -/
theorem bounds_of_ofFloat? (h : ofFloat? x = some b) :
    b.mantissa < 2 * leadingBit ∧ -1074 ≤ b.exponent := by
  unfold ofFloat? at h
  rw [leadingBit_eq] at h ⊢
  dsimp only at h
  split at h
  · cases h
  · split at h
    · cases h
      dsimp only
      omega
    · cases h
      dsimp only
      omega

theorem finite_congr {pos : 0 < m} {m' : Nat} {e' : Int} (hm : m = m') (he : e = e') :
    ∃ pos', UnpackedFloat.finite s m e pos = .finite s m' e' pos' := by
  subst hm he
  exact ⟨pos, rfl⟩

theorem unpack_of_ofFloat? (h : ofFloat? x = some b) :
    (b.mantissa = 0 ∧ ∃ s, x.toModel.unpack = .zero s) ∨
      ∃ s pos, x.toModel.unpack = .finite s b.mantissa b.exponent pos := by
  let v : BitVec 64 := x.toModel.toBits.toBitVec
  let p : BitVec 11 := @unpackExponent Format.binary64 v
  let q : BitVec 52 := @unpackMantissa Format.binary64 v
  have bits : x.toBits.toNat = v.toNat := rfl
  have ones : p = -1#11 ↔ p.toNat = 2047 := BitVec.toNat_inj.symm
  have zero : p = 0#11 ↔ p.toNat = 0 := BitVec.toNat_inj.symm
  have none : q = 0#52 ↔ q.toNat = 0 := BitVec.toNat_inj.symm
  have leading : (1#1 ++ q).toNat = leadingBit + q.toNat := by
    have small : q.toNat < 2 ^ 52 := q.isLt
    rw [BitVec.toNat_append, ← Nat.shiftLeft_add_eq_or_of_lt small]
    rfl
  unfold ofFloat? at h
  dsimp only at h
  rw [bits, ← exponent_toNat v, ← mantissa_toNat v] at h
  change (if p.toNat = 2047 then _ else if p.toNat = 0 then _ else _) = _ at h
  change (b.mantissa = 0 ∧ ∃ s, UnpackedFloat.unpack Format.binary64 v = .zero s) ∨
      ∃ s pos, UnpackedFloat.unpack Format.binary64 v = .finite s b.mantissa b.exponent pos
  have unpacked : UnpackedFloat.unpack Format.binary64 v = if p = -1#11 then _ else _ := rfl
  split at h
  · cases h
  · rename_i finite
    rw [if_neg (mt ones.1 finite)] at unpacked
    split at h
    · rename_i subnormal
      cases h
      rw [if_pos (zero.2 subnormal)] at unpacked
      by_cases h0 : q = 0#52
      · rw [dif_pos h0] at unpacked
        exact Or.inl ⟨none.1 h0, _, unpacked⟩
      · rw [dif_neg h0] at unpacked
        have exponent : (p.toNat : Int) - (1023 + 52) + 1 = -1074 := by omega
        obtain ⟨pos, same⟩ := finite_congr rfl exponent
        exact Or.inr ⟨_, pos, unpacked.trans same⟩
    · rename_i normal
      cases h
      rw [if_neg (mt zero.1 normal)] at unpacked
      have exponent : (p.toNat : Int) - (1023 + 52) = (p.toNat : Int) - 1075 := by omega
      obtain ⟨pos, same⟩ := finite_congr leading exponent
      exact Or.inr ⟨_, pos, unpacked.trans same⟩

/-- A double is known by the fields of its bits. -/
theorem ofFloat?_fields (v : BitVec 64) (h : x.toModel.toBits.toBitVec = v) : ofFloat? x =
    (let biased := (@unpackExponent Format.binary64 v).toNat
    let fraction := (@unpackMantissa Format.binary64 v).toNat
    if biased = 2047 then none
    else if biased = 0 then some ⟨fraction, -1074⟩
    else some ⟨leadingBit + fraction, (biased : Int) - 1075⟩) := by
  subst h
  dsimp only
  rw [exponent_toNat, mantissa_toNat]
  rfl

theorem unpack_of_none (h : ofFloat? x = none) :
    (∃ s, x.toModel.unpack = .infinity s) ∨ x.toModel.unpack = .notANumber := by
  let v : BitVec 64 := x.toModel.toBits.toBitVec
  let p : BitVec 11 := @unpackExponent Format.binary64 v
  have ones : p = -1#11 ↔ p.toNat = 2047 := BitVec.toNat_inj.symm
  rw [ofFloat?_fields v rfl] at h
  dsimp only at h
  change (if p.toNat = 2047 then _ else if p.toNat = 0 then _ else _) = _ at h
  change (∃ s, UnpackedFloat.unpack Format.binary64 v = .infinity s) ∨
    UnpackedFloat.unpack Format.binary64 v = .notANumber
  have unpacked : UnpackedFloat.unpack Format.binary64 v = if p = -1#11 then _ else _ := rfl
  split at h
  · rename_i top
    rw [if_pos (ones.2 top)] at unpacked
    rw [unpacked]
    split
    · exact Or.inl ⟨_, rfl⟩
    · exact Or.inr rfl
  · split at h <;> cases h

theorem exponent_of_mantissa_eq_zero {b : Binary} (h : ofFloat? x = some b)
    (zero : b.mantissa = 0) : b.exponent = -1074 := by
  unfold ofFloat? at h
  dsimp only at h
  split at h
  · cases h
  · split at h
    · cases h
      rfl
    · cases h
      rw [leadingBit_eq] at zero
      dsimp only at zero
      omega

theorem ofFloat?_pack_zero (s : Sign) :
    ofFloat? (.ofModel (.pack (.zero s))) = some ⟨0, -1074⟩ := by
  cases s <;> decide +kernel

theorem pack_finite (pos : 0 < m) (high : e ≤ 971) :
    UnpackedFloat.pack Format.binary64 (.finite s m e pos) =
      if m.log2 + 1 = 53 then packComponents Format.binary64 s
        (BitVec.ofNat 11 (e + 1023 + 52).toNat) (BitVec.ofNat 52 m)
      else packComponents Format.binary64 s 0#11 (BitVec.ofNat 52 m) := by
  change (if 2 ^ 11 ≤ (e + 1023 + 52).toNat + 1 then _ else _) = _
  exact if_neg (by omega)

theorem biased_toNat (low : -1074 ≤ e) (high : e ≤ 971) :
    (BitVec.ofNat 11 (e + 1023 + 52).toNat).toNat = (e + 1075).toNat := by
  rw [BitVec.toNat_ofNat]
  omega

/-- A full mantissa is written without its leading bit. -/
theorem ofFloat?_pack_normal {pos : 0 < m} (full : 2 ^ 52 ≤ m) (few : m < 2 ^ 53)
    (low : -1074 ≤ e) (high : e ≤ 971) :
    ofFloat? (.ofModel (.pack (.finite s m e pos))) = some ⟨m, e⟩ := by
  have log : m.log2 = 52 := (Nat.log2_eq_iff (by omega)).2 ⟨full, few⟩
  have fraction : leadingBit + (BitVec.ofNat 52 m).toNat = m := by
    rw [BitVec.toNat_ofNat, leadingBit_eq]
    omega
  rw [ofFloat?_fields (UnpackedFloat.pack Format.binary64 (.finite s m e pos)) rfl,
    pack_finite pos high, if_pos (show m.log2 + 1 = 53 by omega)]
  simp only [unpackExponent_packComponents, unpackMantissa_packComponents, biased_toNat low high,
    fraction]
  rw [if_neg (by omega), if_neg (by omega), Int.toNat_of_nonneg (by omega)]
  exact congrArg some (congrArg (Binary.mk m) (by omega))

theorem ofFloat?_pack {pos : 0 < m} (low : -1074 ≤ e) (high : e ≤ 971) :
    ∃ b, ofFloat? (.ofModel (.pack (.finite s m e pos))) = some b ∧ b.exponent ≤ e := by
  rw [ofFloat?_fields (UnpackedFloat.pack Format.binary64 (.finite s m e pos)) rfl,
    pack_finite pos high]
  by_cases full : m.log2 + 1 = 53
  · rw [if_pos full]
    simp only [unpackExponent_packComponents, unpackMantissa_packComponents, biased_toNat low high]
    rw [if_neg (by omega)]
    split
    · exact ⟨_, rfl, low⟩
    · refine ⟨_, rfl, ?_⟩
      dsimp only
      omega
  · rw [if_neg full]
    simp only [unpackExponent_packComponents, unpackMantissa_packComponents]
    exact ⟨_, rfl, low⟩

/-! ## Rounding -/

inductive Places (k : Int) : UnpackedFloat → Prop
  | zero (s : Sign) : Places k (.zero s)
  | finite (s : Sign) {m : Nat} {e : Int} (pos : 0 < m) (few : m < 2 ^ 53) (low : -1074 ≤ e)
      (high : e ≤ k) : Places k (.finite s m e pos)

theorem shift_mantissa (em : ExtendedMantissa) (n : Nat) :
    (em >>> n).mantissa = em.mantissa / 2 ^ n := by
  induction n with
  | zero => exact (Nat.div_one _).symm
  | succ n ih =>
      have step : (em >>> (n + 1)).mantissa = (em >>> n).mantissa / 2 := rfl
      rw [step, ih, Nat.div_div_eq_div_mul, Nat.pow_succ]

theorem roundedMantissa_le (em : ExtendedMantissa) : em.roundedMantissa ≤ em.mantissa + 1 := by
  obtain ⟨m, round, sticky⟩ := em
  cases round <;> cases sticky <;>
    simp only [ExtendedMantissa.roundedMantissa, ExtendedMantissa.accuracy,
      Accuracy.roundToNearestEven] <;> omega

theorem log2_lt_of_lt {n : Nat} (h : m < 2 ^ n) (pos : 0 < n) : m.log2 < n := by
  by_cases none : m = 0
  · rwa [none, Nat.log2_zero]
  · exact (Nat.log2_lt none).2 h

theorem shiftToTargetExponent_snd (m : Nat) (e : Int) (a : Accuracy) :
    (shiftToTargetExponent Format.binary64 m e a).2 =
      max e (max (m.log2 + 1 + e - 53) (-1074)) := by
  have shifted : (shiftToTargetExponent Format.binary64 m e a).2 =
    e + (max (m.log2 + 1 + e - 53) (-1074) - e).toNat := rfl
  omega

theorem shiftToTargetExponent_fst (m : Nat) (e : Int) (a : Accuracy) :
    (shiftToTargetExponent Format.binary64 m e a).1.mantissa =
      m / 2 ^ (max (m.log2 + 1 + e - 53 : Int) (-1074) - e).toNat := by
  have start : (ExtendedMantissa.ofMantissaAndAccuracy m a).mantissa = m := by
    rcases a with _ | _ | _ | _ <;> rfl
  have shifted := shift_mantissa (ExtendedMantissa.ofMantissaAndAccuracy m a)
    (max (m.log2 + 1 + e - 53 : Int) (-1074) - e).toNat
  rwa [start] at shifted

/-- A shift to the target leaves 53 bits. -/
theorem mantissa_shiftToTargetExponent (m : Nat) (e : Int) (a : Accuracy) :
    (shiftToTargetExponent Format.binary64 m e a).1.mantissa < 2 ^ 53 := by
  rw [shiftToTargetExponent_fst, Nat.div_lt_iff_lt_mul (Nat.two_pow_pos _), ← Nat.pow_add]
  exact Nat.lt_of_lt_of_le Nat.lt_log2_self (Nat.pow_le_pow_right (by decide) (by omega))

/-- The first shift leaves 53 bits, of which rounding may make one more, and the second shift drops
that again. -/
theorem places_roundWithAccuracy {a : Accuracy} (few : m < 2 ^ (k - e).toNat) (wide : e ≤ k - 53)
    (low : -1021 ≤ k) : Places (k - 52) (roundWithAccuracy Format.binary64 s m e a) := by
  let first := shiftToTargetExponent Format.binary64 m e a
  let second := shiftToTargetExponent Format.binary64 first.1.roundedMantissa first.2 .exact
  have rounds : roundWithAccuracy Format.binary64 s m e a = if h : second.1.mantissa = 0 then
    .zero s else .finite s second.1.mantissa second.2 (Nat.pos_of_ne_zero h) := rfl
  have short := log2_lt_of_lt few (by omega)
  have bits : first.1.mantissa < 2 ^ 53 := mantissa_shiftToTargetExponent m e a
  have carry : first.1.roundedMantissa < 2 ^ 54 := by
    have := roundedMantissa_le first.1
    omega
  have carried := log2_lt_of_lt carry (by decide)
  have place : first.2 = _ := shiftToTargetExponent_snd m e a
  have place' : second.2 = _ := shiftToTargetExponent_snd first.1.roundedMantissa first.2 .exact
  by_cases none : second.1.mantissa = 0
  · rw [rounds, dif_pos none]
    exact .zero s
  · rw [rounds, dif_neg none]
    refine .finite s _ (mantissa_shiftToTargetExponent _ _ _) ?_ ?_
    · omega
    · omega

theorem le_roundedMantissa (em : ExtendedMantissa) : em.mantissa ≤ em.roundedMantissa := by
  obtain ⟨m, round, sticky⟩ := em
  cases round <;> cases sticky <;>
    simp only [ExtendedMantissa.roundedMantissa, ExtendedMantissa.accuracy,
      Accuracy.roundToNearestEven] <;> omega

theorem le_mantissa_shiftToTargetExponent (a : Accuracy) (full : 52 ≤ m.log2)
    (low : -1022 ≤ m.log2 + e) :
    2 ^ 52 ≤ (shiftToTargetExponent Format.binary64 m e a).1.mantissa := by
  have dropped : 52 + (max (m.log2 + 1 + e - 53 : Int) (-1074) - e).toNat = m.log2 := by omega
  rw [shiftToTargetExponent_fst, Nat.le_div_iff_mul_le (Nat.two_pow_pos _), ← Nat.pow_add, dropped]
  refine Nat.log2_self_le ?_
  rintro rfl
  rw [Nat.log2_zero] at full
  omega

/-- A number with enough bits is rounded to a full mantissa, and loses no place. -/
theorem roundWithAccuracy_normal (s : Sign) (a : Accuracy) (full : 52 ≤ m.log2)
    (low : -1022 ≤ m.log2 + e) : ∃ m' e' pos,
      roundWithAccuracy Format.binary64 s m e a = .finite s m' e' pos ∧
      2 ^ 52 ≤ m' ∧ m' < 2 ^ 53 ∧ m.log2 + e - 52 ≤ e' ∧ e' ≤ m.log2 + e - 51 := by
  let first := shiftToTargetExponent Format.binary64 m e a
  let second := shiftToTargetExponent Format.binary64 first.1.roundedMantissa first.2 .exact
  have rounds : roundWithAccuracy Format.binary64 s m e a = if h : second.1.mantissa = 0 then
    .zero s else .finite s second.1.mantissa second.2 (Nat.pos_of_ne_zero h) := rfl
  have place : first.2 = _ := shiftToTargetExponent_snd m e a
  have place' : second.2 = _ := shiftToTargetExponent_snd first.1.roundedMantissa first.2 .exact
  have few : first.1.mantissa < 2 ^ 53 := mantissa_shiftToTargetExponent m e a
  have many : 2 ^ 52 ≤ first.1.mantissa := le_mantissa_shiftToTargetExponent a full low
  have up := roundedMantissa_le first.1
  have down := le_roundedMantissa first.1
  have most := log2_lt_of_lt (show first.1.roundedMantissa < 2 ^ 54 by omega) (by decide)
  have least : 52 ≤ first.1.roundedMantissa.log2 := (Nat.le_log2 (by omega)).2 (by omega)
  have many' : 2 ^ 52 ≤ second.1.mantissa :=
    le_mantissa_shiftToTargetExponent .exact least (by omega)
  rw [dif_neg (by omega)] at rounds
  exact ⟨_, _, _, rounds, many', mantissa_shiftToTargetExponent _ _ _, by omega, by omega⟩

theorem places_ofNat {n j : Nat} (few : n < 2 ^ j) :
    Places (j - 52) (UnpackedFloat.ofNat Format.binary64 n) := by
  unfold UnpackedFloat.ofNat UnpackedFloat.ofInt UnpackedFloat.normalize
  split
  · rename_i negative
    exact absurd (Int.compare_eq_lt.1 negative) (by omega)
  · exact .zero _
  · rename_i positive
    have positive := Int.compare_eq_gt.1 positive
    have short := log2_lt_of_lt few (by
      rcases Nat.eq_zero_or_pos j with rfl | pos <;> omega)
    -- a short number is shifted to 53 bits before it is rounded
    let sh := (0 - max ((n : Int).toNat.log2 + 1 + 0 - 53 : Int) (-1074)).toNat
    have rounds : round Format.binary64 .positive (n : Int).toNat 0 =
      roundWithAccuracy Format.binary64 .positive (n <<< sh) (0 - sh) .exact := rfl
    rw [rounds]
    refine places_roundWithAccuracy ?_ ?_ (by omega)
    · rw [Nat.shiftLeft_eq, show ((j : Int) - (0 - sh)).toNat = j + sh by omega, Nat.pow_add]
      exact Nat.mul_lt_mul_of_pos_right few (Nat.two_pow_pos sh)
    · have shifted : (0 - max ((n : Int).toNat.log2 + 1 + 0 - 53 : Int) (-1074)).toNat = sh := rfl
      rw [Int.toNat_natCast] at shifted
      omega

/-- Dividing by a number of so many places moves the last place by as many. -/
theorem places_div {u : UnpackedFloat} {n : Nat} {f K : Int} {pos : 0 < n} (h : Places k u)
    (moved : k + 53 - n.log2 - f ≤ K) (low : -1021 ≤ K) :
    Places (K - 52) (UnpackedFloat.div Format.binary64 u (.finite s n f pos)) := by
  cases h with
  | zero s' => exact .zero _
  | @finite s' m e posm few lowe high =>
      have short := log2_lt_of_lt few (by decide)
      let target := min (e - f) (max (m.log2 + 1 + e - (n.log2 + 1 + f) - 53) (-1074))
      have htarget : target =
        min (e - f) (max (m.log2 + 1 + e - (n.log2 + 1 + f) - 53) (-1074)) := rfl
      let sh := (e - f - target).toNat
      have hsh : sh = (e - f - target).toNat := rfl
      have divides : UnpackedFloat.div Format.binary64 (.finite s' m e posm) (.finite s n f pos) =
        roundWithAccuracy Format.binary64 (s' / s) ((m <<< sh) / n) target
          (accuracyOfFraction ((m <<< sh) % n) n) := rfl
      rw [divides]
      refine places_roundWithAccuracy ?_ ?_ low
      · have enough : m.log2 + 1 + sh ≤ (K - target).toNat + n.log2 := by omega
        rw [Nat.div_lt_iff_lt_mul pos, Nat.shiftLeft_eq]
        calc m * 2 ^ sh < 2 ^ (m.log2 + 1) * 2 ^ sh :=
              Nat.mul_lt_mul_of_pos_right Nat.lt_log2_self (Nat.two_pow_pos sh)
          _ = 2 ^ (m.log2 + 1 + sh) := (Nat.pow_add _ _ _).symm
          _ ≤ 2 ^ ((K - target).toNat + n.log2) := Nat.pow_le_pow_right (by decide) enough
          _ = 2 ^ (K - target).toNat * 2 ^ n.log2 := Nat.pow_add _ _ _
          _ ≤ 2 ^ (K - target).toNat * n :=
              Nat.mul_le_mul_left _ (Nat.log2_self_le (Nat.ne_of_gt pos))
      · omega

theorem mul_finite {t : Sign} {n : Nat} {f : Int} {posm : 0 < m} {posn : 0 < n} :
    UnpackedFloat.mul Format.binary64 (.finite s m e posm) (.finite t n f posn) =
      roundWithAccuracy Format.binary64 (s * t) (m * n) (e + f) .exact := rfl

theorem places_mul {u : UnpackedFloat} {n i : Nat} {f K : Int} {pos : 0 < n} (h : Places k u)
    (factor : n ≤ 2 ^ i) (moved : k + 53 + i + f ≤ K) (low : -1021 ≤ K) :
    Places (K - 52) (UnpackedFloat.mul Format.binary64 u (.finite s n f pos)) := by
  cases h with
  | zero s' => exact .zero _
  | @finite s' m e posm few lowe high =>
      refine places_roundWithAccuracy ?_ (by omega) low
      calc m * n < 2 ^ 53 * n := Nat.mul_lt_mul_of_pos_right few pos
        _ ≤ 2 ^ 53 * 2 ^ i := Nat.mul_le_mul_left _ factor
        _ = 2 ^ (53 + i) := (Nat.pow_add _ _ _).symm
        _ ≤ 2 ^ (K - (e + f)).toNat := Nat.pow_le_pow_right (by decide) (by omega)

theorem Places.neg {u : UnpackedFloat} (h : Places k u) : Places k u.neg := by
  cases h with
  | zero s => exact .zero _
  | finite s pos few low high => exact .finite _ pos few low high

theorem Places.isFinite {u : UnpackedFloat} (h : Places k u) : u.isFinite = true := by
  cases h <;> rfl

/-! ## Doubles -/

/-- A finite double whose last place is at most a power of two. -/
def LastPlace (k : Int) (x : Float) : Prop := ∃ b, ofFloat? x = some b ∧ b.exponent ≤ k

theorem LastPlace.mono {k' : Int} (h : LastPlace k x) (le : k ≤ k') : LastPlace k' x := by
  obtain ⟨b, found, high⟩ := h
  exact ⟨b, found, Int.le_trans high le⟩

theorem LastPlace.places (h : LastPlace k x) : Places k x.toModel.unpack := by
  obtain ⟨b, found, high⟩ := h
  have bounds := bounds_of_ofFloat? found
  rcases unpack_of_ofFloat? found with ⟨_, s, unpacked⟩ | ⟨s, pos, unpacked⟩
  · rw [unpacked]
    exact .zero s
  · rw [unpacked]
    exact .finite s pos bounds.1 bounds.2 high

theorem Places.lastPlace {u : UnpackedFloat} (h : Places k u) (low : -1074 ≤ k) (high : k ≤ 971) :
    LastPlace k (.ofModel (.pack u)) := by
  cases h with
  | zero s => exact ⟨_, ofFloat?_pack_zero s, low⟩
  | finite s pos few lowe highe =>
      obtain ⟨b, found, least⟩ := ofFloat?_pack (s := s) lowe (by omega)
      exact ⟨b, found, by omega⟩

theorem LastPlace.neg (h : LastPlace k x) (low : -1074 ≤ k) (high : k ≤ 971) :
    LastPlace k (-x) := by
  exact h.places.neg.lastPlace low high

theorem LastPlace.mul {K : Int} {i : Nat} {b : Binary} (h : LastPlace k x)
    (hy : ofFloat? y = some b) (nonzero : b.mantissa ≠ 0) (factor : b.mantissa ≤ 2 ^ i)
    (moved : k + 53 + i + b.exponent ≤ K) (low : -1021 ≤ K) (high : K ≤ 1023) :
    LastPlace (K - 52) (x * y) := by
  have multiplied : Places (K - 52) (UnpackedFloat.mul Format.binary64 x.toModel.unpack
      y.toModel.unpack) := by
    rcases unpack_of_ofFloat? hy with ⟨none, _⟩ | ⟨s, pos, unpacked⟩
    · exact absurd none nonzero
    · rw [unpacked]
      exact places_mul h.places factor moved low
  exact multiplied.lastPlace (by omega) (by omega)

/-- The conversion multiplies by one, which is one more rounding. -/
theorem lastPlace_ofNat {n j : Nat} (few : n < 2 ^ j) (high : j ≤ 1022) :
    LastPlace (j - 51) (Float.ofNat n) := by
  change LastPlace _ (Float.ofScientific n false 0)
  unfold Float.ofScientific
  split
  · rename_i small
    have same : n.toUInt64.toNat = n := by
      rw [Nat.toUInt64, UInt64.toNat_ofNat']
      omega
    have converted : LastPlace (j - 52) n.toUInt64.toFloat := by
      change LastPlace _ (.ofModel (.pack (UnpackedFloat.ofNat Format.binary64 n.toUInt64.toNat)))
      rw [same]
      exact (places_ofNat few).lastPlace (by omega) (by omega)
    have one : ofFloat? (Float.ofBits 0x3FF0000000000000) = some ⟨2 ^ 52, -52⟩ := by decide +kernel
    change LastPlace _ (n.toUInt64.toFloat * Float.ofBits 0x3FF0000000000000)
    have place : (j : Int) - 51 = j + 1 - 52 := by omega
    rw [place]
    exact converted.mul one (by decide) (Nat.le_refl _) (by dsimp only; omega) (by omega) (by omega)
  · have scaled : Places (j - 52) (UnpackedFloat.ofScientific Format.binary64 n 0) := by
      unfold UnpackedFloat.ofScientific
      by_cases none : n = 0
      · rw [dif_pos none]
        exact .zero _
      · have safe : ¬ (0 : Int) < -((2 ^ 11 : Int) + n.log2) := by omega
        rw [dif_neg none, if_neg (by decide), if_neg safe, if_pos (Int.le_refl 0), mul_finite]
        have place : ((j : Int) - (-53 + 0)).toNat = j + 53 := by omega
        refine places_roundWithAccuracy ?_ (by change (-53 : Int) + 0 ≤ _; omega) (by omega)
        change n <<< 53 * 1 < 2 ^ ((j : Int) - (-53 + 0)).toNat
        rw [place, Nat.mul_one, Nat.shiftLeft_eq, Nat.pow_add]
        exact Nat.mul_lt_mul_of_pos_right few (Nat.two_pow_pos 53)
    obtain ⟨b, found, least⟩ := scaled.lastPlace (by omega) (by omega)
    exact ⟨b, found, by omega⟩

theorem LastPlace.div {K : Int} {b : Binary} (h : LastPlace k x) (hy : ofFloat? y = some b)
    (nonzero : b.mantissa ≠ 0) (moved : k + 53 - b.mantissa.log2 - b.exponent ≤ K)
    (low : -1021 ≤ K) (high : K ≤ 1023) : LastPlace (K - 52) (x / y) := by
  have divided : Places (K - 52) (UnpackedFloat.div Format.binary64 x.toModel.unpack
      y.toModel.unpack) := by
    rcases unpack_of_ofFloat? hy with ⟨none, _⟩ | ⟨s, pos, unpacked⟩
    · exact absurd none nonzero
    · rw [unpacked]
      exact places_div h.places moved low
  exact divided.lastPlace (by omega) (by omega)

theorem LastPlace.isFinite (h : LastPlace k x) : x.isFinite = true := by
  exact h.places.isFinite

end Courier.Binary
