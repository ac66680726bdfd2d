import Courier.Text.Integer
import Mathlib.Data.List.Induction
import Mathlib.Data.Nat.Digits.Defs

/-! # Texts that denote a word

A text denotes a whole number if it is a run of at least one decimal digit, with or without a sign in
front; each digit counts by its place, so zeros in front and a plus sign count for nothing. Words of
64 bits are read from exactly the texts that denote a number that fits.
-/

namespace Courier.Text

variable {c : Char} {cs : List Char} {n : Int}

def place (cs : List Char) : Nat := Nat.ofDigits 10 (cs.reverse.map fun c => c.toNat - '0'.toNat)

structure DigitRun (cs : List Char) : Prop where
  some : cs ≠ []
  digit : ∀ c ∈ cs, '0' ≤ c ∧ c ≤ '9'

inductive Denotes : List Char → Int → Prop
  | unsigned {cs : List Char} (run : DigitRun cs) : Denotes cs (place cs)
  | plus {cs : List Char} (run : DigitRun cs) : Denotes ('+' :: cs) (place cs)
  | minus {cs : List Char} (run : DigitRun cs) : Denotes ('-' :: cs) (-(place cs : Int))

theorem place_append_singleton (cs : List Char) (c : Char) :
    place (cs ++ [c]) = 10 * place cs + (c.toNat - '0'.toNat) := by
  simp only [place, List.reverse_append, List.reverse_singleton, List.singleton_append,
    List.map_cons, Nat.ofDigits_cons]
  omega

theorem digitValue?_eq_some_iff {d : Nat} :
    digitValue? c = some d ↔ ('0' ≤ c ∧ c ≤ '9') ∧ d = c.toNat - '0'.toNat := by
  unfold digitValue?
  split
  · rename_i digit
    simp only [digit, true_and, Option.some_inj, and_self]
    exact eq_comm
  · rename_i other
    simp [other]

theorem natural?_eq_some_iff {n : Nat} :
    natural? cs = some n ↔ (∀ c ∈ cs, '0' ≤ c ∧ c ≤ '9') ∧ n = place cs := by
  induction cs using List.reverseRecOn generalizing n with
  | nil => simp [natural?, place, eq_comm]
  | append_singleton cs c ih =>
      rw [natural?_append, place_append_singleton]
      simp only [List.foldl_cons, List.foldl_nil, Option.bind_eq_some_iff, Option.map_eq_some_iff,
        ih, digitValue?_eq_some_iff, List.forall_mem_append, List.forall_mem_singleton]
      constructor
      · rintro ⟨_, ⟨digits, rfl⟩, _, ⟨digit, rfl⟩, rfl⟩
        exact ⟨⟨digits, digit⟩, rfl⟩
      · rintro ⟨⟨digits, digit⟩, rfl⟩
        exact ⟨_, ⟨digits, rfl⟩, _, ⟨digit, rfl⟩, rfl⟩

theorem number?_eq_some_iff {n : Nat} : number? cs = some n ↔ DigitRun cs ∧ n = place cs := by
  cases cs with
  | nil => exact ⟨nofun, fun h => absurd rfl h.1.some⟩
  | cons c cs =>
      refine natural?_eq_some_iff.trans (and_congr_left fun _ => ?_)
      exact ⟨fun digits => ⟨List.cons_ne_nil c cs, digits⟩, fun run => run.digit⟩

/-! ## Signs -/

theorem signed?_minus (cs : List Char) :
    signed? ('-' :: cs) = (number? cs).map fun n : Nat => -(n : Int) := by
  simp only [signed?]
  cases number? cs <;> rfl

theorem signed?_plus (cs : List Char) :
    signed? ('+' :: cs) = (number? cs).map fun n : Nat => (n : Int) := by
  simp only [signed?]
  cases number? cs <;> rfl

theorem signed?_unsigned (apart : c ≠ '-' ∧ c ≠ '+') :
    signed? (c :: cs) = (number? (c :: cs)).map fun n : Nat => (n : Int) := by
  unfold signed?
  split
  · rename_i same
    exact absurd (List.cons.inj same).1 apart.1
  · rename_i same
    exact absurd (List.cons.inj same).1 apart.2
  · cases number? (c :: cs) <;> rfl

theorem DigitRun.head_ne_sign (run : DigitRun (c :: cs)) : c ≠ '-' ∧ c ≠ '+' := by
  obtain ⟨low, _⟩ := run.digit c List.mem_cons_self
  constructor
  · rintro rfl
    exact absurd low (by decide)
  · rintro rfl
    exact absurd low (by decide)

theorem map_number?_eq_some_iff {f : Nat → Int} :
    (number? cs).map f = some n ↔ DigitRun cs ∧ f (place cs) = n := by
  simp only [Option.map_eq_some_iff, number?_eq_some_iff, and_assoc, exists_eq_left,
    exists_and_left]

/-- A signed number is read from exactly the texts that denote one. -/
theorem signed?_eq_some_iff : signed? cs = some n ↔ Denotes cs n := by
  constructor
  · intro h
    cases cs with
    | nil => cases h
    | cons c cs =>
        by_cases minus : c = '-'
        · rw [minus, signed?_minus, map_number?_eq_some_iff] at h
          obtain ⟨run, rfl⟩ := h
          exact minus ▸ .minus run
        · by_cases plus : c = '+'
          · rw [plus, signed?_plus, map_number?_eq_some_iff] at h
            obtain ⟨run, rfl⟩ := h
            exact plus ▸ .plus run
          · rw [signed?_unsigned ⟨minus, plus⟩, map_number?_eq_some_iff] at h
            obtain ⟨run, rfl⟩ := h
            exact .unsigned run
  · intro h
    cases h with
    | minus run => exact (signed?_minus _).trans (map_number?_eq_some_iff.2 ⟨run, rfl⟩)
    | plus run => exact (signed?_plus _).trans (map_number?_eq_some_iff.2 ⟨run, rfl⟩)
    | unsigned run =>
        cases cs with
        | nil => exact absurd rfl run.some
        | cons c cs =>
            rw [signed?_unsigned run.head_ne_sign]
            exact map_number?_eq_some_iff.2 ⟨run, rfl⟩

theorem word?_eq_some_iff {text : String} :
    word? text = some n ↔ Denotes text.toList n ∧ InWord n := by
  unfold word?
  rw [Option.filter_eq_some_iff, signed?_eq_some_iff, decide_eq_true_iff]

theorem Denotes.unique {m : Int} (h : Denotes cs m) (h' : Denotes cs n) : m = n :=
  Option.some.inj ((signed?_eq_some_iff.2 h).symm.trans (signed?_eq_some_iff.2 h'))

/-- A number that fits is read back from its own decimal text. -/
theorem word?_integer (fits : InWord n) : word? (String.ofList (integer n)) = some n := by
  rw [word?_eq_some_iff, String.toList_ofList, ← signed?_eq_some_iff]
  exact ⟨signed?_integer n, fits⟩

end Courier.Text
