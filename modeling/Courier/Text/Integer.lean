/-!
# Decimal integers

How whole numbers are written in messages, and which texts are read as a signed word of 64 bits: an
optional sign and at least one digit, of which leading zeros count for nothing.
-/

namespace Courier.Text

def digitChar (n : Nat) : Char := Char.ofNat (48 + n % 10)

def digitValue? (c : Char) : Option Nat :=
  if '0' ≤ c ∧ c ≤ '9' then some (c.toNat - 48) else none

def isDigit (c : Char) : Bool := '0' ≤ c && c ≤ '9'

/-- The decimal digits of a number, the most significant first. -/
def digits (n : Nat) : List Char :=
  if n < 10 then [digitChar n] else digits (n / 10) ++ [digitChar n]

/-- A number written with at least `width` digits, zeros in front. -/
def padded (width n : Nat) : List Char :=
  let ds := digits n
  List.replicate (width - ds.length) '0' ++ ds

def integer : Int → List Char
  | .ofNat n => digits n
  | .negSucc n => '-' :: digits (n + 1)

/-- The number that a run of digits denotes; nothing when some character is no digit. -/
def natural? (cs : List Char) : Option Nat :=
  cs.foldl (fun acc c => acc.bind fun n => (digitValue? c).map (10 * n + ·)) (some 0)

def number? : List Char → Option Nat
  | [] => none
  | cs => natural? cs

/-- A signed number: a sign may stand in front of the digits. -/
def signed? : List Char → Option Int
  | '-' :: cs => (number? cs).map fun n => -(n : Int)
  | '+' :: cs => (number? cs).map fun n => (n : Int)
  | cs => (number? cs).map fun n => (n : Int)

/-- The range of a signed word of 64 bits. -/
def InWord (n : Int) : Prop := -9223372036854775808 ≤ n ∧ n ≤ 9223372036854775807

instance (n : Int) : Decidable (InWord n) := inferInstanceAs (Decidable (_ ∧ _))

/-- The range of a signed word of 32 bits. -/
def InHalfWord (n : Int) : Prop := -2147483648 ≤ n ∧ n ≤ 2147483647

instance (n : Int) : Decidable (InHalfWord n) := inferInstanceAs (Decidable (_ ∧ _))

/-- A signed word of 64 bits in decimal; nothing when the text is no number or the number does not
fit. -/
def word? (s : String) : Option Int :=
  (signed? s.toList).filter fun n => decide (InWord n)

theorem digits_ne_nil (n : Nat) : digits n ≠ [] := by
  rw [digits]; split <;> simp

theorem digitChar_toNat (n : Nat) : (digitChar n).toNat = 48 + n % 10 := by
  have h : ∀ d, d < 10 → (Char.ofNat (48 + d)).toNat = 48 + d := by decide
  exact h _ (Nat.mod_lt _ (by decide))

theorem digitValue?_digitChar (n : Nat) : digitValue? (digitChar n) = some (n % 10) := by
  have h : n % 10 < 10 := Nat.mod_lt _ (by decide)
  have ht := digitChar_toNat n
  have hlo : '0' ≤ digitChar n := by
    show (48 : UInt32).toNat ≤ (digitChar n).val.toNat
    simp only [Char.toNat] at ht; rw [ht]; simp
  have hhi : digitChar n ≤ '9' := by
    show (digitChar n).val.toNat ≤ (57 : UInt32).toNat
    simp only [Char.toNat] at ht; rw [ht]; simp; omega
  simp [digitValue?, hlo, hhi, ht]

theorem natural?_append (xs ys : List Char) :
    natural? (xs ++ ys) =
      ys.foldl (fun acc c => acc.bind fun n => (digitValue? c).map (10 * n + ·)) (natural? xs) := by
  simp [natural?, List.foldl_append]

theorem natural?_digits (n : Nat) : natural? (digits n) = some n := by
  induction n using Nat.strongRecOn with
  | ind n ih =>
    rw [digits]
    split
    · rename_i h
      simp [natural?, digitValue?_digitChar, Nat.mod_eq_of_lt h]
    · rename_i h
      rw [natural?_append, ih (n / 10) (by omega)]
      simp [digitValue?_digitChar]
      omega

theorem number?_digits (n : Nat) : number? (digits n) = some n := by
  have h := natural?_digits n
  cases hd : digits n with
  | nil => exact absurd hd (digits_ne_nil n)
  | cons c cs => rw [hd] at h; exact h

theorem digits_head_isDigit (n : Nat) : ∃ k cs, k < 10 ∧ digits n = digitChar k :: cs := by
  induction n using Nat.strongRecOn with
  | ind n ih =>
    rw [digits]
    split
    · rename_i h
      exact ⟨n, [], h, rfl⟩
    · rename_i h
      obtain ⟨k, cs, hk, hd⟩ := ih (n / 10) (by omega)
      exact ⟨k, cs ++ [digitChar n], hk, by simp [hd]⟩

theorem signed?_integer (n : Int) : signed? (integer n) = some n := by
  cases n with
  | ofNat n =>
    obtain ⟨k, cs, hk, hd⟩ := digits_head_isDigit n
    have h := number?_digits n
    have hne : digitChar k ≠ '-' ∧ digitChar k ≠ '+' := by
      have ht := digitChar_toNat k
      constructor <;> intro he <;> rw [he] at ht <;> simp at ht <;> omega
    simp only [integer]
    rw [hd] at h ⊢
    unfold signed?
    split
    · rename_i cs' he; exact absurd (List.cons.inj he).1 hne.1
    · rename_i cs' he; exact absurd (List.cons.inj he).1 hne.2
    · simp [h]
  | negSucc n =>
    simp [integer, signed?, number?_digits]
    omega

end Courier.Text
