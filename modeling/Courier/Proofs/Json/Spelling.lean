import Courier.Proofs.Decimal.Below
import Courier.Proofs.Decimal.Literal
import Courier.Proofs.Json.Reading

/-! # Doubles spelled and read

The text of a double whose value is small enough is a number of JSON: a sign, digits, and a fraction or
an exponent below zero. It is read as a double again, though not always as the same one.
-/

namespace Courier.Text

variable {c : Char} {d : Nat} {cs xs ys : List Char}

def values (cs : List Char) : List Nat := cs.filterMap digitValue?

theorem values_append (xs ys : List Char) : values (xs ++ ys) = values xs ++ values ys :=
  List.filterMap_append

theorem values_cons (h : digitValue? c = some d) (cs : List Char) :
    values (c :: cs) = d :: values cs := List.filterMap_cons_some h

theorem values_le (h : d ∈ values cs) : d ≤ 9 := by
  obtain ⟨c, _, hc⟩ := List.mem_filterMap.1 h
  unfold digitValue? at hc
  split at hc
  · rename_i range
    cases hc
    have high : c.toNat ≤ 57 := UInt32.le_iff_toNat_le.1 range.2
    omega
  · cases hc

theorem length_values (h : Digits cs) : (values cs).length = cs.length := by
  induction cs with
  | nil => rfl
  | cons c cs ih =>
      obtain ⟨d, hd⟩ := h c List.mem_cons_self
      rw [values_cons hd, List.length_cons, List.length_cons,
        ih (h.of_subset (List.subset_cons_self c cs))]

theorem value_values_digits (n : Nat) : Decimal.Literal.value (values (digits n)) = n := by
  induction n using Nat.strongRecOn with
  | ind n ih =>
      have last : values [digitChar n] = [n % 10] := values_cons (digitValue?_digitChar n) []
      rw [digits]
      split
      · rename_i small
        rw [last]
        simp [Decimal.Literal.value, Nat.mod_eq_of_lt small]
      · have rest := ih (n / 10) (by omega)
        rw [values_append, last]
        unfold Decimal.Literal.value at rest ⊢
        rw [List.foldl_append, rest, List.foldl_cons, List.foldl_nil]
        omega

end Courier.Text

namespace Courier.Json

open Courier.Text Courier.Decimal Courier.Binary

namespace Spelling

variable {c : Char} {cs w f : List Char} {negative : Bool} {s : Spelling} {e : Option Int}

/-! ## What is read -/

/-- The number with more digits of the part that is being read. -/
def more (s : Spelling) (ds : List Nat) : Spelling :=
  match s.phase with
  | .whole => { s with whole := ds.reverse ++ s.whole }
  | .fraction => { s with fraction := ds.reverse ++ s.fraction }
  | _ => { s with exponent := ds.reverse ++ s.exponent }

theorem run_part (hcs : Digits cs)
    (hp : s.phase = .whole ∨ s.phase = .fraction ∨ s.phase = .exponent) :
    s.run cs = some (s.more (values cs)) := by
  induction cs generalizing s with
  | nil =>
      cases s
      dsimp only at hp
      rcases hp with rfl | rfl | rfl <;> rfl
  | cons c cs ih =>
      obtain ⟨d, hd⟩ := hcs c List.mem_cons_self
      have rest := hcs.of_subset (List.subset_cons_self c cs)
      rw [run_cons, extend?, hd, values_cons hd]
      rcases hp with hp | hp | hp <;> simp [hp, ih rest, more]

/-- The first digits after a point or a sign begin a new part. -/
theorem run_first (hcs : Digits cs) (some : cs ≠ []) (hp : s.phase = .point ∨ s.phase = .sign) :
    s.run cs = .some ({ s with phase := part s.phase }.more (values cs)) := by
  cases cs with
  | nil => exact absurd rfl some
  | cons c cs =>
      obtain ⟨d, hd⟩ := hcs c List.mem_cons_self
      have rest := hcs.of_subset (List.subset_cons_self c cs)
      rw [run_cons, extend?, hd, values_cons hd]
      rcases hp with hp | hp <;> simp [hp, run_part rest, more, part]

/-- The digits before the point: a zero, or digits of which the first is none. -/
inductive Whole : List Char → Prop
  | zero : Whole ['0']
  | digits {c : Char} {cs : List Char} {d : Nat} (hc : digitValue? c = some d) (pos : d ≠ 0)
      (rest : Digits cs) : Whole (c :: cs)

theorem run_whole (negative : Bool) (h : Whole w) : ∃ p, (p = .zero ∨ p = .whole) ∧
    (signed negative).run w = some ⟨p, negative, (values w).reverse, [], false, []⟩ := by
  cases h with
  | zero => exact ⟨.zero, Or.inl rfl, rfl⟩
  | digits hc pos rest =>
      refine ⟨.whole, Or.inr rfl, ?_⟩
      rw [run_cons, extend?, hc, values_cons hc]
      simp [signed, pos, run_part rest, more]

/-- A number with a fraction and an exponent, both of which may be left out. -/
def spelt (w f : List Char) (e : Option Int) : List Char :=
  w ++ (if f.isEmpty then [] else '.' :: f) ++ (e.map exponentText).getD []

def literal (negative : Bool) (w f : List Char) (e : Option Int) : Literal :=
  ⟨negative, values w, values f, e.map fun e => (decide (e < 0), values (digits e.natAbs))⟩

theorem run_point (hp : s.phase = .zero ∨ s.phase = .whole) (fresh : s.fraction = [])
    (hf : Digits f) (some : f ≠ []) :
    s.run ('.' :: f) = .some { s with phase := .fraction, fraction := (values f).reverse } := by
  have point : s.extend? '.' = .some { s with phase := .point } := by
    rcases hp with hp | hp <;> rw [extend?, hp] <;> rfl
  rw [run_cons, point, Option.bind_some, run_first hf some (Or.inl rfl)]
  simp [more, part, fresh]

theorem run_exponentText (hp : s.phase = .zero ∨ s.phase = .whole ∨ s.phase = .fraction)
    (fresh : s.exponent = []) (grows : s.shrinks = false) (e : Int) :
    s.run (exponentText e) = some { s with
      phase := .exponent
      shrinks := decide (e < 0)
      exponent := (values (digits e.natAbs)).reverse } := by
  have mark : s.extend? 'e' = some { s with phase := .mark } := by
    rcases hp with hp | hp | hp <;> rw [extend?, hp] <;> rfl
  have sign : Spelling.extend? { s with phase := .mark } (if e < 0 then '-' else '+') =
      some { s with phase := .sign, shrinks := decide (e < 0) } := by
    by_cases neg : e < 0
    · rw [if_pos neg, decide_eq_true neg]
      rfl
    · rw [if_neg neg, decide_eq_false neg, ← grows]
      rfl
  rw [exponentText, run_cons, mark, Option.bind_some, run_cons, sign, Option.bind_some,
    run_first (digits_digits _) (digits_ne_nil _) (Or.inr rfl)]
  simp [more, part, fresh]

theorem literal?_spelt (negative : Bool) (hw : Whole w) (hf : Digits f) : ∃ s,
    (signed negative).run (spelt w f e) = some s ∧ s.literal? = some (literal negative w f e) := by
  obtain ⟨p, hp, whole⟩ := run_whole negative hw
  obtain ⟨q, hq, fraction⟩ : ∃ q, (q = .zero ∨ q = .whole ∨ q = .fraction) ∧
      (signed negative).run (w ++ if f.isEmpty then [] else '.' :: f) =
        some ⟨q, negative, (values w).reverse, (values f).reverse, false, []⟩ := by
    rw [run_append, whole, Option.bind_some]
    cases f with
    | nil => exact ⟨p, by rcases hp with rfl | rfl <;> simp, rfl⟩
    | cons c cs => exact ⟨.fraction, by simp, run_point hp rfl hf (List.cons_ne_nil c cs)⟩
  rw [spelt, run_append, fraction, Option.bind_some]
  cases e with
  | none =>
      refine ⟨_, rfl, ?_⟩
      rcases hq with rfl | rfl | rfl <;> simp [literal?, literal]
  | some e => exact ⟨_, run_exponentText hq rfl rfl e, by simp [literal?, literal]⟩

/-- The parts of a written decimal: few digits before the point, and then a point or an exponent
below zero. -/
structure Parts (n : Nat) (d : Decimal) (w f : List Char) (e : Option Int) : Prop where
  text : Decimal.write .inMessages d = spelt w f e
  whole : Whole w
  fraction : Digits f
  few : w.length ≤ n
  shrinks : (e = none ∧ f ≠ []) ∨ ∃ e' < 0, e = some e'

theorem spelt_point (w : List Char) (some : f ≠ []) : spelt w f none = w ++ '.' :: f := by
  simp [spelt, some]

theorem write_of_ne_zero {d : Decimal} {point : Int} (h : d.coefficient ≠ 0)
    (hp : ((digits d.coefficient).length : Int) + d.exponent = point) :
    Decimal.write .inMessages d =
      if point < -4 ∨ 16 < point then
        spelt ((digits d.coefficient).take 1) ((digits d.coefficient).drop 1) (some (point - 1))
      else if point ≤ 0 then
        ['0'] ++ '.' :: (List.replicate (-point).toNat '0' ++ digits d.coefficient)
      else if ((digits d.coefficient).length : Int) ≤ point then
        digits d.coefficient ++
          List.replicate (point.toNat - (digits d.coefficient).length) '0' ++ ['.', '0']
      else (digits d.coefficient).take point.toNat ++ '.' ::
        (digits d.coefficient).drop point.toNat := by
  unfold Decimal.write
  dsimp only
  rw [if_neg h, hp]
  simp [Style.inMessages, spelt]

theorem exists_parts {n : Nat} {d : Decimal} (h : d.Below n) (pos : 1 ≤ n) (room : n ≤ 16) :
    ∃ w f e, Parts n d w f e := by
  by_cases zero : d.coefficient = 0
  · refine ⟨['0'], ['0'], none, ?_, .zero, digits_zeros 1, pos, Or.inl ⟨rfl, by simp⟩⟩
    simp [Decimal.write, zero, Style.inMessages, spelt]
  · have few := h.point zero
    generalize hpoint : ((digits d.coefficient).length : Int) + d.exponent = point at few
    have written := write_of_ne_zero zero hpoint
    have numerals := digits_digits d.coefficient
    obtain ⟨c, cs, v, hds, hc, nonzero⟩ := digits_head_pos (Nat.pos_of_ne_zero zero)
    rw [hds] at numerals written
    have rest : Digits cs := numerals.of_subset (List.subset_cons_self c cs)
    by_cases outside : point < -4 ∨ 16 < point
    · -- an exponent, which is below zero since the point cannot stand so far to the right
      rw [if_pos outside] at written
      exact ⟨[c], cs, some (point - 1), written, .digits hc nonzero (by simp [Digits]), rest, pos,
        Or.inr ⟨_, by omega, rfl⟩⟩
    · rw [if_neg outside] at written
      by_cases fractional : point ≤ 0
      · have some : List.replicate (-point).toNat '0' ++ c :: cs ≠ [] := by simp
        rw [if_pos fractional, ← spelt_point _ some] at written
        exact ⟨_, _, none, written, .zero, (digits_zeros _).append numerals, pos,
          Or.inl ⟨rfl, some⟩⟩
      · rw [if_neg fractional] at written
        by_cases integral : ((c :: cs).length : Int) ≤ point
        · have some : ['0'] ≠ [] := List.cons_ne_nil _ _
          rw [if_pos integral, ← spelt_point _ some] at written
          refine ⟨_, _, none, written, .digits hc nonzero (rest.append (digits_zeros _)),
            digits_zeros 1, ?_, Or.inl ⟨rfl, some⟩⟩
          rw [List.length_append, List.length_replicate]
          omega
        · -- the point stands between two digits
          obtain ⟨k, hk⟩ := Nat.exists_eq_succ_of_ne_zero (show point.toNat ≠ 0 by omega)
          rw [if_neg integral, hk, List.take_succ_cons, List.drop_succ_cons] at written
          have some : cs.drop k ≠ [] := by
            rw [Ne, List.drop_eq_nil_iff]
            rw [List.length_cons] at integral
            omega
          rw [← spelt_point _ some] at written
          refine ⟨_, _, none, written, .digits hc nonzero (rest.of_subset (List.take_subset k cs)),
            rest.of_subset (List.drop_subset k cs), ?_, Or.inl ⟨rfl, some⟩⟩
          rw [List.length_cons, List.length_take]
          omega

theorem Whole.digits_of (h : Whole w) : Digits w := by
  cases h with
  | zero => exact digits_zeros 1
  | @digits c cs d hc pos rest =>
      intro x hx
      rcases List.mem_cons.1 hx with rfl | hx
      · exact ⟨d, hc⟩
      · exact rest x hx

theorem Parts.modest (h : Parts n d w f e) (negative : Bool) :
    (literal negative w f e).Modest n where
  digits := by
    intro d hd
    rcases List.mem_append.1 hd with hd | hd
    · exact values_le hd
    · exact values_le hd
  short := Nat.le_trans (Nat.le_of_eq (length_values h.whole.digits_of)) h.few
  shrinks := by
    rcases h.shrinks with ⟨rfl, some⟩ | ⟨e', neg, rfl⟩
    · refine Or.inl ⟨rfl, fun none => some (List.length_eq_zero_iff.1 ?_)⟩
      rw [← length_values h.fraction]
      exact List.length_eq_zero_iff.2 none
    · refine Or.inr ⟨values (digits e'.natAbs), ?_, ?_⟩
      · simp [literal, neg]
      · rw [value_values_digits]
        omega

end Spelling

variable {x : Float} {b : Binary} {n i : Nat}

/-- The text of a small enough double is a number, and is read as a double. -/
theorem exists_number (found : ofFloat? x = some b) (small : b.Small n) (room : n + 1 ≤ 16)
    (wide : 10 ^ (n + 1) ≤ 2 ^ i) (low : i ≤ 64) : ∃ l y, source (Json.float x) = .number l ∧
      l.number? = some (.float y) ∧ LastPlace (i - 49) y := by
  obtain ⟨w, f, e, parts⟩ := Spelling.exists_parts small.shortest (Nat.le_add_left 1 n) room
  obtain ⟨s, run, spelt⟩ := Spelling.literal?_spelt (signBit x) (e := e)
    parts.whole parts.fraction
  rw [← parts.text] at run
  have finite : x.isFinite = true := LastPlace.isFinite ⟨b, found, Int.le_refl _⟩
  have text : numberText (.float x) =
      (if signBit x then ['-'] else []) ++ Decimal.write .inMessages b.shortest := by
    rw [numberText, Decimal.float?, found, Option.map_some, Option.getD_some]
  have read := literal?_signed run spelt
  obtain ⟨y, value, place⟩ := (parts.modest (signBit x)).number? (by omega) wide low
  refine ⟨_, y, ?_, value, place⟩
  rw [Json.float, if_pos finite, source, text, read]
  rfl

end Courier.Json
