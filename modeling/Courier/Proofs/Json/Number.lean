import Courier.Json.Value

/-! # Numbers as they are written

Whatever number is written, a whole one or a double with a point or an exponent, its text is one
literal. A whole number that fits a word is the value of its own literal; a double need not be.
-/

namespace Courier.Text

/-! ## Runs of digits -/

def Digits (cs : List Char) : Prop := ∀ c ∈ cs, ∃ d, digitValue? c = some d

variable {cs xs ys : List Char}

theorem Digits.append (hx : Digits xs) (hy : Digits ys) : Digits (xs ++ ys) := by
  intro c hc
  rcases List.mem_append.1 hc with hc | hc
  · exact hx c hc
  · exact hy c hc

theorem Digits.of_subset (hy : Digits ys) (h : xs ⊆ ys) : Digits xs := fun c hc => hy c (h hc)

theorem digits_zeros (n : Nat) : Digits (List.replicate n '0') := by
  intro c hc
  rw [(List.mem_replicate.1 hc).2]
  exact ⟨0, rfl⟩

theorem digits_digits (n : Nat) : Digits (digits n) := by
  induction n using Nat.strongRecOn with
  | ind n ih =>
      have last : Digits [digitChar n] := by
        intro c hc
        rw [List.mem_singleton.1 hc]
        exact ⟨_, digitValue?_digitChar n⟩
      rw [digits]
      split
      · exact last
      · exact (ih (n / 10) (by omega)).append last

theorem digits_head_pos {n : Nat} (hn : 0 < n) :
    ∃ c cs d, digits n = c :: cs ∧ digitValue? c = some d ∧ d ≠ 0 := by
  induction n using Nat.strongRecOn with
  | ind n ih =>
      rw [digits]
      split
      · refine ⟨_, _, _, rfl, digitValue?_digitChar n, ?_⟩
        omega
      · obtain ⟨c, cs, d, hd, hc, pos⟩ := ih (n / 10) (by omega) (by omega)
        exact ⟨c, cs ++ [digitChar n], d, by rw [hd]; rfl, hc, pos⟩

end Courier.Text

namespace Courier.Json

open Courier.Text Courier.Decimal

namespace Spelling

variable {s t : Spelling} {c : Char} {cs xs ys : List Char} {d : Nat} {p q r : Phase}

def signed (negative : Bool) : Spelling := ⟨.minus, negative, [], [], false, []⟩

def run (s : Spelling) (cs : List Char) : Option Spelling := cs.foldlM extend? s

@[simp] theorem run_nil (s : Spelling) : s.run [] = some s := rfl

theorem run_cons (s : Spelling) (c : Char) (cs : List Char) :
    s.run (c :: cs) = (s.extend? c).bind fun s => s.run cs := by
  simp [run, List.foldlM_cons, bind]

theorem run_append (s : Spelling) (xs ys : List Char) :
    s.run (xs ++ ys) = (s.run xs).bind fun s => s.run ys := by
  simp [run, List.foldlM_append, bind]

/-! ## Phases -/

def Leads (p : Phase) (cs : List Char) (q : Phase) : Prop :=
  ∀ s : Spelling, s.phase = p → ∃ t, s.run cs = some t ∧ t.phase = q

theorem Leads.nil : Leads p [] p := fun s hs => ⟨s, rfl, hs⟩

theorem Leads.append (hx : Leads p xs q) (hy : Leads q ys r) : Leads p (xs ++ ys) r := by
  intro s hs
  obtain ⟨t, ht, hp⟩ := hx s hs
  obtain ⟨u, hu, hq⟩ := hy t hp
  exact ⟨u, by rw [run_append, ht, Option.bind_some, hu], hq⟩

theorem Leads.cons (hc : Leads p [c] q) (hcs : Leads q cs r) : Leads p (c :: cs) r :=
  Leads.append hc hcs

theorem Leads.single (h : ∀ s : Spelling, s.phase = p → ∃ t, s.extend? c = some t ∧ t.phase = q) :
    Leads p [c] q := by
  intro s hs
  obtain ⟨t, ht, hp⟩ := h s hs
  exact ⟨t, by rw [run_cons, ht, Option.bind_some, run_nil], hp⟩

/-- The phase in which the digits of a part are read. -/
def part : Phase → Phase
  | .point => .fraction
  | .mark | .sign => .exponent
  | p => p

theorem leads_first (hc : digitValue? c = some d) (hd : d ≠ 0) : Leads .minus [c] .whole := by
  refine .single fun s hs => ⟨_, by rw [extend?, hc, hs], ?_⟩
  simp [hd]

theorem leads_zero : Leads .minus ['0'] .zero :=
  .single fun s hs => ⟨_, by rw [extend?, hs]; rfl, rfl⟩

theorem leads_digit (hc : digitValue? c = some d) (hp : p ≠ .minus) (hz : p ≠ .zero) :
    Leads p [c] (part p) := by
  refine .single fun s hs => ?_
  rw [extend?, hc]
  cases p <;> simp_all [part]

theorem leads_part (hcs : Digits cs) (hp : p = .whole ∨ p = .fraction ∨ p = .exponent) :
    Leads p cs p := by
  induction cs with
  | nil => exact .nil
  | cons c cs ih =>
      obtain ⟨d, hd⟩ := hcs c List.mem_cons_self
      have same : part p = p := by rcases hp with rfl | rfl | rfl <;> rfl
      have first : Leads p [c] (part p) := by
        apply leads_digit hd <;> rcases hp with rfl | rfl | rfl <;> simp
      rw [same] at first
      exact first.cons (ih (hcs.of_subset (List.subset_cons_self c cs)))

/-- The digits of a part, of which there has to be one. -/
theorem leads_digits (hcs : Digits cs) (some : cs ≠ [])
    (hp : p = .point ∨ p = .mark ∨ p = .sign) : Leads p cs (part p) := by
  cases cs with
  | nil => exact absurd rfl some
  | cons c cs =>
      obtain ⟨d, hd⟩ := hcs c List.mem_cons_self
      have first : Leads p [c] (part p) := by
        apply leads_digit hd <;> rcases hp with rfl | rfl | rfl <;> simp
      refine first.cons (leads_part (hcs.of_subset (List.subset_cons_self c cs)) ?_)
      rcases hp with rfl | rfl | rfl <;> simp [part]

theorem leads_point (hp : p = .zero ∨ p = .whole) : Leads p ['.'] .point := by
  refine .single fun s hs => ?_
  rcases hp with rfl | rfl <;> exact ⟨_, by rw [extend?, hs]; rfl, rfl⟩

theorem leads_exponent (hp : p = .whole ∨ p = .fraction) (e : Int) :
    Leads p (exponentText e) .exponent := by
  have mark : Leads p ['e'] .mark := by
    refine .single fun s hs => ?_
    rcases hp with rfl | rfl <;> exact ⟨_, by rw [extend?, hs]; rfl, rfl⟩
  have sign : Leads .mark [if e < 0 then '-' else '+'] .sign := by
    refine .single fun s hs => ?_
    split <;> exact ⟨_, by rw [extend?, hs]; rfl, rfl⟩
  have value : Leads .sign (digits e.natAbs) .exponent :=
    leads_digits (digits_digits _) (digits_ne_nil _) (Or.inr (Or.inr rfl))
  exact mark.cons (sign.cons value)

/-- A decimal without a sign is read to an end. -/
theorem leads_write (d : Decimal) :
    ∃ q, (q = .fraction ∨ q = .exponent) ∧ Leads .minus (Decimal.write .inMessages d) q := by
  have zero : Leads .point ['0'] .fraction :=
    leads_digits (digits_zeros 1) (List.cons_ne_nil _ _) (Or.inl rfl)
  unfold Decimal.write
  dsimp only
  split
  · exact ⟨.fraction, Or.inl rfl, leads_zero.cons ((leads_point (Or.inl rfl)).cons zero)⟩
  · rename_i nonzero
    have numerals := digits_digits d.coefficient
    obtain ⟨c, cs, n, hds, hc, pos⟩ := digits_head_pos (Nat.pos_of_ne_zero nonzero)
    rw [hds] at numerals ⊢
    have rest : Digits cs := numerals.of_subset (List.subset_cons_self c cs)
    have whole {xs : List Char} (hxs : Digits xs) : Leads .minus (c :: xs) .whole :=
      (leads_first hc pos).cons (leads_part hxs (Or.inl rfl))
    split
    · -- one digit, the others behind a point, and an exponent
      refine ⟨.exponent, Or.inr rfl, ?_⟩
      by_cases single : cs = []
      · subst single
        exact (whole rest).append (leads_exponent (Or.inl rfl) _)
      · have fraction := (leads_point (Or.inr rfl)).cons (leads_digits rest single (Or.inl rfl))
        have fraction := (whole (digits_zeros 0)).append fraction
        simpa [single] using fraction.append (leads_exponent (Or.inr rfl) _)
    · refine ⟨.fraction, Or.inl rfl, ?_⟩
      split
      · exact leads_zero.cons ((leads_point (Or.inl rfl)).cons
          (leads_digits ((digits_zeros _).append numerals) (by simp) (Or.inl rfl)))
      · rename_i above
        split
        · exact (whole (rest.append (digits_zeros _))).append ((leads_point (Or.inr rfl)).cons zero)
        · rename_i below
          -- the point stands between two digits
          obtain ⟨k, hk⟩ : ∃ k, (((c :: cs).length : Int) + d.exponent).toNat = k + 1 :=
            ⟨_, (Nat.succ_pred (by omega)).symm⟩
          rw [hk, List.take_succ_cons, List.drop_succ_cons]
          have some : cs.drop k ≠ [] := by
            rw [Ne, List.drop_eq_nil_iff]
            simp only [List.length_cons] at below hk
            omega
          exact (whole (rest.of_subset (List.take_subset k cs))).append
            ((leads_point (Or.inr rfl)).cons
              (leads_digits (rest.of_subset (List.drop_subset k cs)) some (Or.inl rfl)))

theorem literal?_isSome (h : s.phase = .fraction ∨ s.phase = .exponent) :
    ∃ l, s.literal? = some l := by
  unfold literal?
  rcases h with h | h <;> exact ⟨_, by rw [h]⟩

/-! ## Whole numbers -/

theorem run_digits {n : Nat} (negative : Bool) (hn : 0 < n) :
    ∃ w, (signed negative).run (digits n) = some ⟨.whole, negative, w, [], false, []⟩ ∧
      Literal.value w.reverse = n := by
  induction n using Nat.strongRecOn with
  | ind n ih =>
      have last : n % 10 = n - n / 10 * 10 := by omega
      rw [digits]
      split
      · rename_i small
        have nonzero : n % 10 ≠ 0 := by omega
        refine ⟨[n % 10], ?_, by simp [Literal.value, Nat.mod_eq_of_lt small]⟩
        simp [run_cons, extend?, digitValue?_digitChar, signed, nonzero]
      · obtain ⟨w, hrun, hvalue⟩ := ih (n / 10) (by omega) (by omega)
        refine ⟨n % 10 :: w, ?_, ?_⟩
        · rw [run_append, hrun]
          simp [run_cons, extend?, digitValue?_digitChar]
        · rw [Literal.value] at hvalue ⊢
          rw [List.reverse_cons, List.foldl_append, hvalue, List.foldl_cons, List.foldl_nil]
          omega

end Spelling

/-! ## Literals -/

def literal? : List Char → Option Literal
  | [] => none
  | c :: cs => (Spelling.start? c).bind fun s => (s.run cs).bind Spelling.literal?

theorem literal?_signed {negative : Bool} {cs : List Char} {s : Spelling} {l : Literal}
    (hrun : (Spelling.signed negative).run cs = some s) (hl : s.literal? = some l) :
    literal? ((if negative then ['-'] else []) ++ cs) = some l := by
  cases negative with
  | true =>
      have start : Spelling.start? '-' = some (Spelling.signed true) := rfl
      simp [literal?, start, hrun, hl]
  | false =>
      cases cs with
      | nil =>
          cases hrun
          cases hl
      | cons c cs =>
          have start : Spelling.start? c = (Spelling.signed false).extend? c := by
            cases hc : digitValue? c with
            | none =>
                rw [Spelling.run_cons] at hrun
                simp [Spelling.extend?, hc, Spelling.signed] at hrun
            | some d => simp [Spelling.start?, Spelling.extend?, hc, Spelling.signed]
          have all : literal? (c :: cs) =
              ((Spelling.signed false).run (c :: cs)).bind Spelling.literal? := by
            rw [literal?, start, Spelling.run_cons, Option.bind_assoc]
          simpa [all, hrun] using hl

theorem literal?_float {x : Float} {cs : List Char} (h : Decimal.float? .inMessages x = some cs) :
    ∃ l, literal? cs = some l := by
  obtain ⟨b, _, rfl⟩ := Option.map_eq_some_iff.1 h
  obtain ⟨q, hq, leads⟩ := Spelling.leads_write b.shortest
  obtain ⟨s, hrun, hs⟩ := leads (Spelling.signed (signBit x)) rfl
  rw [← hs] at hq
  obtain ⟨l, hl⟩ := Spelling.literal?_isSome hq
  exact ⟨l, literal?_signed hrun hl⟩

theorem literal?_integer (n : Int) : ∃ l, literal? (integer n) = some l ∧
    (-9223372036854775808 ≤ n → n ≤ Literal.wordMax → l.number? = some (.int n)) := by
  cases n with
  | ofNat n =>
      cases n with
      | zero => exact ⟨⟨false, [0], [], none⟩, by rw [integer, digits]; rfl, fun _ _ => rfl⟩
      | succ n =>
          obtain ⟨w, hrun, hvalue⟩ := Spelling.run_digits false n.succ_pos
          refine ⟨_, literal?_signed hrun rfl, fun _ high => ?_⟩
          have fits : n + 1 ≤ Literal.wordMax := Int.ofNat_le.1 high
          simp [Literal.number?, Literal.isWhole, hvalue, fits]
  | negSucc n =>
      obtain ⟨w, hrun, hvalue⟩ := Spelling.run_digits true n.succ_pos
      refine ⟨_, literal?_signed hrun rfl, fun low _ => ?_⟩
      have fits : n + 1 ≤ 9223372036854775808 := by omega
      simp [Literal.number?, Literal.isWhole, hvalue, fits]
      omega

theorem literal?_numberText (n : Number) :
    (∃ l, literal? (numberText n) = some l) ∨ numberText n = "null".toList := by
  cases n with
  | int n =>
      obtain ⟨l, hl, _⟩ := literal?_integer n
      exact Or.inl ⟨l, hl⟩
  | float x =>
      cases hx : Decimal.float? .inMessages x with
      | none => exact Or.inr (by rw [numberText, hx]; rfl)
      | some cs =>
          rw [numberText, hx]
          exact Or.inl (literal?_float hx)

end Courier.Json
