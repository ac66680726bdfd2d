import Courier.Proofs.Time.Reading
import Courier.Url.Encoding
import Mathlib.Data.List.Lex

/-! # Texts in the order of their bytes

Texts are compared by their bytes: the first bytes that differ decide, and where a text ends before it
differs it comes first. For texts of ASCII characters this is the order of the character codes. Numbers
written in fields of equal width come in their own order, whatever follows the fields, and fractions of
any width come in their own order in front of a character that comes before the digits.
-/

namespace Courier.Text

/-- Does a run of bytes come no later than another one? -/
def noLater : List UInt8 → List UInt8 → Bool
  | [], _ => true
  | _ :: _, [] => false
  | a :: as, b :: bs => if a = b then noLater as bs else decide (a.toNat < b.toNat)

def textNoLater (a b : String) : Bool := noLater (Url.utf8 a) (Url.utf8 b)

theorem noLater_refl (as : List UInt8) : noLater as as = true := by
  induction as with
  | nil => rfl
  | cons a as ih => rw [noLater, if_pos rfl, ih]

/-- A text comes before another one: where they differ first it has the smaller character, or it
ends. -/
abbrev Before (xs ys : List Char) : Prop := List.Lex (fun a b => a.toNat < b.toNat) xs ys

variable {cs xs ys : List Char} {c d : Char} {m n width : Nat}

theorem before_of_lt (h : c.toNat < d.toNat) : Before (c :: xs) (d :: ys) := .rel h

theorem Before.append (h : Before xs ys) (cs : List Char) : Before (cs ++ xs) (cs ++ ys) :=
  List.Lex.append_left _ h cs

/-! ## Bytes of ASCII texts -/

def Ascii (cs : List Char) : Prop := ∀ c ∈ cs, c.toNat < 128

instance (cs : List Char) : Decidable (Ascii cs) := List.decidableBAll _ cs

theorem Ascii.append (hx : Ascii xs) (hy : Ascii ys) : Ascii (xs ++ ys) := by
  intro c hc
  rcases List.mem_append.1 hc with front | back
  · exact hx c front
  · exact hy c back

theorem Ascii.cons (low : c.toNat < 128) (h : Ascii cs) : Ascii (c :: cs) :=
  List.forall_mem_cons.2 ⟨low, h⟩

theorem ascii_padded (width n : Nat) : Ascii (padded width n) := by
  intro c hc
  have digit := isDigit_of_mem_padded hc
  simp only [isDigit, Bool.and_eq_true, decide_eq_true_eq] at digit
  have high : c.toNat ≤ 57 := UInt32.le_iff_toNat_le.1 digit.2
  omega

def codes (cs : List Char) : List UInt8 := cs.map fun c => UInt8.ofNat c.toNat

/-- Bytes are listed from a place on, after those that were listed already. -/
theorem toList_loop (bytes : ByteArray) (listed : List UInt8) (i : Nat) :
    ByteArray.toList.loop bytes i listed = listed.reverse ++ bytes.data.toList.drop i := by
  induction left : bytes.size - i generalizing i listed with
  | zero =>
      have none : bytes.data.toList.drop i = [] := List.drop_eq_nil_of_le (by simp; omega)
      rw [ByteArray.toList.loop, if_neg (by omega), none, List.append_nil]
  | succ k ih =>
      have inside : i < bytes.data.toList.length := by simp; omega
      have byte : bytes.get! i = bytes.data.toList[i] := by
        rw [ByteArray.get!, Array.getElem_toList]
        exact getElem!_pos bytes.data i (by omega)
      rw [ByteArray.toList.loop, if_pos (by omega), ih _ _ (by omega), byte, List.reverse_cons,
        List.append_assoc, List.singleton_append, List.getElem_cons_drop]

theorem utf8_ofList (cs : List Char) :
    Url.utf8 (String.ofList cs) = cs.flatMap String.utf8EncodeChar := by
  simp [Url.utf8, ByteArray.toList, toList_loop, List.utf8Encode]

theorem utf8EncodeChar_ascii (low : c.toNat < 128) :
    String.utf8EncodeChar c = [UInt8.ofNat c.toNat] := by
  have size : c.utf8Size = 1 := Char.utf8Size_eq_one_iff.2 (UInt32.le_iff_toNat_le.2 (by
    change c.toNat ≤ 127
    omega))
  rw [String.utf8EncodeChar_eq_singleton size]
  rfl

/-- The bytes of ASCII characters are their codes. -/
theorem utf8_ascii (ascii : Ascii cs) : Url.utf8 (String.ofList cs) = codes cs := by
  rw [utf8_ofList]
  induction cs with
  | nil => rfl
  | cons c cs ih =>
      have low : c.toNat < 128 := ascii c List.mem_cons_self
      rw [List.flatMap_cons, utf8EncodeChar_ascii low, ih fun d hd => ascii d (.tail c hd)]
      rfl

theorem toNat_ofNat_ascii (low : c.toNat < 128) : (UInt8.ofNat c.toNat).toNat = c.toNat := by
  rw [UInt8.toNat_ofNat']
  omega

theorem noLater_of_before (h : Before xs ys) (hx : Ascii xs) (hy : Ascii ys) :
    noLater (codes xs) (codes ys) = true ∧ noLater (codes ys) (codes xs) = false := by
  induction h with
  | nil => exact ⟨rfl, rfl⟩
  | @rel a as b bs less =>
      have first := toNat_ofNat_ascii (hx a List.mem_cons_self)
      have second := toNat_ofNat_ascii (hy b List.mem_cons_self)
      have apart : UInt8.ofNat a.toNat ≠ UInt8.ofNat b.toNat := by
        intro same
        rw [same] at first
        omega
      simp only [codes, List.map_cons, noLater, if_neg apart, if_neg apart.symm, first, second,
        decide_eq_true_eq, decide_eq_false_iff_not]
      omega
  | @cons a as bs _ ih =>
      simp only [codes, List.map_cons, noLater, if_true]
      exact ih (fun c hc => hx c (.tail a hc)) fun c hc => hy c (.tail a hc)

/-- ASCII texts are in the order of their bytes if they are in that of their characters. -/
theorem textNoLater_of_before (h : Before xs ys) (hx : Ascii xs) (hy : Ascii ys) :
    textNoLater (String.ofList xs) (String.ofList ys) = true ∧
      textNoLater (String.ofList ys) (String.ofList xs) = false := by
  unfold textNoLater
  rw [utf8_ascii hx, utf8_ascii hy]
  exact noLater_of_before h hx hy

/-! ## Numbers in fields -/

def lastDigits : Nat → Nat → List Char
  | 0, _ => []
  | width + 1, n => lastDigits width (n / 10) ++ [digitChar n]

theorem padded_succ (n : Nat) (pos : 0 < width) :
    padded (width + 1) n = padded width (n / 10) ++ [digitChar n] := by
  unfold padded
  dsimp only
  rw [digits]
  split
  · rename_i small
    obtain ⟨k, rfl⟩ : ∃ k, width = k + 1 := ⟨width - 1, by omega⟩
    have none : n / 10 = 0 := by omega
    have zero : digits 0 = ['0'] := by
      rw [digits]
      rfl
    rw [none, zero, List.length_singleton, List.length_singleton, Nat.add_sub_cancel,
      Nat.add_sub_cancel, List.replicate_succ']
  · rw [List.length_append, List.length_singleton, Nat.add_sub_add_right, List.append_assoc]

/-- A field that is wide enough holds the last digits of its number. -/
theorem padded_eq_lastDigits (h : n < 10 ^ width) (pos : 0 < width) :
    padded width n = lastDigits width n := by
  induction width, pos using Nat.le_induction generalizing n with
  | base =>
      unfold padded
      rw [digits, if_pos (by omega)]
      rfl
  | succ width pos ih => rw [padded_succ n pos, ih (by omega), lastDigits]

theorem lastDigits_add (j k n : Nat) :
    lastDigits (j + k) n = lastDigits j (n / 10 ^ k) ++ lastDigits k n := by
  induction k generalizing n with
  | zero => rw [Nat.pow_zero, Nat.div_one, lastDigits, List.append_nil, Nat.add_zero]
  | succ k ih =>
      rw [← Nat.add_assoc, lastDigits, lastDigits, ih, Nat.div_div_eq_div_mul, ← List.append_assoc,
        Nat.pow_succ, Nat.mul_comm 10]

theorem lastDigits_before (h : m < n) (wide : n < 10 ^ width) :
    Before (lastDigits width m ++ xs) (lastDigits width n ++ ys) := by
  induction width generalizing m n xs ys with
  | zero => omega
  | succ width ih =>
      rw [lastDigits, lastDigits, List.append_assoc, List.append_assoc]
      by_cases same : m / 10 = n / 10
      · have less : (digitChar m).toNat < (digitChar n).toNat := by
          rw [digitChar_toNat, digitChar_toNat]
          omega
        rw [same]
        exact Before.append (before_of_lt less) _
      · exact ih (by omega) (by omega)

theorem padded_before (h : m < n) (wide : n < 10 ^ width) (pos : 0 < width) :
    Before (padded width m ++ xs) (padded width n ++ ys) := by
  rw [padded_eq_lastDigits wide pos, padded_eq_lastDigits (Nat.lt_trans h wide) pos]
  exact lastDigits_before h wide

/-- The number in a field decides, and what follows the field if the numbers are equal. -/
theorem field_before (h : m < n ∨ m = n ∧ Before xs ys) (wide : n < 10 ^ width) (pos : 0 < width) :
    Before (padded width m ++ xs) (padded width n ++ ys) := by
  rcases h with less | ⟨rfl, after⟩
  · exact padded_before less wide pos
  · exact Before.append after _

theorem lastDigits_cons (pos : 0 < width) (n : Nat) :
    ∃ k cs, lastDigits width n = digitChar k :: cs := by
  induction width, pos using Nat.le_induction generalizing n with
  | base => exact ⟨n, [], rfl⟩
  | succ width pos ih =>
      obtain ⟨k, cs, front⟩ := ih (n / 10)
      exact ⟨k, cs ++ [digitChar n], by rw [lastDigits, front, List.cons_append]⟩

/-! ## Fractions -/

variable {i j k a b places : Nat}

/-- The number with fewer decimals is not the greater one up to them, and if they are the same, it ends
where the other one goes on with a digit. -/
theorem lastDigits_before_longer (less : a * 10 ^ k < b) (wide : b < 10 ^ (i + k))
    (low : c.toNat < 48) :
    Before (lastDigits i a ++ c :: xs) (lastDigits (i + k) b ++ ys) := by
  have front : a ≤ b / 10 ^ k :=
    (Nat.le_div_iff_mul_le (Nat.pow_pos (by decide))).2 (Nat.le_of_lt less)
  rw [lastDigits_add, List.append_assoc]
  rcases Nat.lt_or_eq_of_le front with smaller | same
  · have short : b / 10 ^ k < 10 ^ i :=
      Nat.div_lt_of_lt_mul (by rwa [Nat.mul_comm, ← Nat.pow_add])
    exact lastDigits_before smaller short
  · have longer : 0 < k := by
      rcases Nat.eq_zero_or_pos k with rfl | longer
      · rw [Nat.pow_zero, Nat.div_one] at same
        omega
      · exact longer
    obtain ⟨d, ds, digits⟩ := lastDigits_cons longer b
    have stops : c.toNat < (digitChar d).toNat := by
      rw [digitChar_toNat]
      omega
    rw [← same, digits]
    exact Before.append (before_of_lt stops) _

/-- The number with more decimals is the smaller one up to those of the other. -/
theorem lastDigits_before_shorter (less : a < b * 10 ^ k) (wide : b < 10 ^ j) :
    Before (lastDigits (j + k) a ++ xs) (lastDigits j b ++ ys) := by
  have front : a / 10 ^ k < b := (Nat.div_lt_iff_lt_mul (Nat.pow_pos (by decide))).2 less
  rw [lastDigits_add, List.append_assoc]
  exact lastDigits_before front wide

/-- Decimals of a fraction of `10 ^ places`, followed by a character that comes before the digits. -/
theorem fraction_before (hi : i ≤ places) (hj : j ≤ places) (posi : 0 < i) (posj : 0 < j)
    (ha : a < 10 ^ i) (hb : b < 10 ^ j) (h : a * 10 ^ (places - i) < b * 10 ^ (places - j))
    (low : c.toNat < 48) : Before (padded i a ++ c :: xs) (padded j b ++ c :: ys) := by
  rw [padded_eq_lastDigits ha posi, padded_eq_lastDigits hb posj]
  rcases Nat.le_total i j with le | le
  · obtain ⟨k, rfl⟩ := Nat.exists_eq_add_of_le le
    have split : places - i = k + (places - (i + k)) := by omega
    rw [split, Nat.pow_add, ← Nat.mul_assoc] at h
    exact lastDigits_before_longer (Nat.lt_of_mul_lt_mul_right h) hb low
  · obtain ⟨k, rfl⟩ := Nat.exists_eq_add_of_le le
    have split : places - j = k + (places - (j + k)) := by omega
    rw [split, Nat.pow_add, ← Nat.mul_assoc] at h
    exact lastDigits_before_shorter (Nat.lt_of_mul_lt_mul_right h) hb

end Courier.Text
