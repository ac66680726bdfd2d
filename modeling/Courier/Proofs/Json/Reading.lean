import Courier.Json.Document
import Courier.Proofs.Json.Text
import Mathlib.Data.List.Forall2

/-! # Values read back

What the text of a value is read as follows the value: arrays item by item, objects member by member
with the members sorted. Strings and whole numbers that fit a word come back as they were. A double
is read as whatever its own text is read as, which need not be the same double.
-/

namespace Courier.Json

variable {d : Nat} {v w : Json} {vs ws done : List Json} {ms ns acc : List (String × Json)}

/-- What the tree of a value, at most so deep, is read as. -/
def Reads (depth : Nat) (v w : Json) : Prop := ofSource? depth (source v) = some w

def ReadsMember (depth : Nat) (m n : String × Json) : Prop := n.1 = m.1 ∧ Reads depth m.2 n.2

theorem ofText?_text_eq_some : ofText? v.text = some w ↔ Reads depthLimit v w := by
  rw [ofText?, Source.ofText?_text, Option.bind_some, Reads]

theorem reads_string {s : String} : Reads d (.string s) w ↔ w = .string s := by
  rw [Reads, source, ofSource?, text?_map_char, Option.map_some, Option.some_inj, eq_comm]

theorem reads_int {n : Int} (fits : Text.InWord n) : Reads d (.int n) w ↔ w = .int n := by
  obtain ⟨l, hl, value⟩ := literal?_integer n
  have high : n ≤ Decimal.Literal.wordMax := Int.le_trans fits.2 (by decide)
  rw [Reads, int, source, numberText, hl, Option.map_some, Option.getD_some, ofSource?,
    value fits.1 high, Option.map_some, Option.some_inj, eq_comm]

/-- What a double is read as does not depend on what it stands in. -/
theorem Reads.float {x : Float} {e : Nat} (h : Reads d (.float x) w) : Reads e (.float x) w := by
  rw [Reads] at *
  rw [← h, Json.float]
  split
  · rw [source]
    cases literal? (numberText (.float x)) <;> simp [ofSource?]
  · simp [source, ofSource?]

/-! ## Arrays and objects -/

theorem ofItems?_eq_some :
    ofItems? d done (sources vs) = some ws ↔
      ∃ items, List.Forall₂ (Reads d) vs items ∧ done.reverse ++ items = ws := by
  induction vs generalizing done with
  | nil => simp [sources, ofItems?]
  | cons v vs ih =>
      rw [sources, ofItems?]
      cases hv : ofSource? d (source v) with
      | none => simp [List.forall₂_cons_left_iff, Reads, hv]
      | some w => simp [List.forall₂_cons_left_iff, Reads, hv, ih]

theorem reads_array : Reads (d + 1) (.array vs) w ↔
    ∃ items, List.Forall₂ (Reads d) vs items ∧ w = .array items := by
  rw [Reads, source, ofSource?, Option.map_eq_some_iff]
  simp only [ofItems?_eq_some]
  constructor
  · rintro ⟨_, ⟨items, h, rfl⟩, rfl⟩
    exact ⟨items, h, rfl⟩
  · rintro ⟨items, h, rfl⟩
    exact ⟨_, ⟨items, h, rfl⟩, rfl⟩

theorem ofMembers?_eq_some :
    ofMembers? d acc (memberSources ms) = some ns ↔
      ∃ members, List.Forall₂ (ReadsMember d) ms members ∧
        members.foldl (fun sorted (k, v) => insertMember k v sorted) acc = ns := by
  induction ms generalizing acc with
  | nil => simp [memberSources, ofMembers?]
  | cons m ms ih =>
      obtain ⟨k, v⟩ := m
      rw [memberSources, ofMembers?, text?_map_char]
      cases hv : ofSource? d (source v) with
      | none => simp [List.forall₂_cons_left_iff, Reads, ReadsMember, hv]
      | some w => simp [List.forall₂_cons_left_iff, Reads, ReadsMember, hv, ih]

theorem reads_object : Reads (d + 1) (.object ms) w ↔
    ∃ members, List.Forall₂ (ReadsMember d) ms members ∧ w = .ofMembers members := by
  rw [Reads, source, ofSource?, Option.map_eq_some_iff]
  simp only [ofMembers?_eq_some]
  constructor
  · rintro ⟨_, ⟨members, h, rfl⟩, rfl⟩
    exact ⟨members, h, rfl⟩
  · rintro ⟨members, h, rfl⟩
    exact ⟨_, ⟨members, h, rfl⟩, rfl⟩

theorem reads_ints {ns : List Int} (fits : ∀ n ∈ ns, Text.InWord n) :
    Reads (d + 1) (.array (ns.map .int)) w ↔ w = .array (ns.map .int) := by
  have items (vs : List Json) : List.Forall₂ (Reads d) (ns.map .int) vs ↔ vs = ns.map .int := by
    induction ns generalizing vs with
    | nil => simp
    | cons n ns ih =>
        have first (v : Json) : Reads d (.int n) v ↔ v = .int n := reads_int (fits n (by simp))
        have rest := ih fun m hm => fits m (List.mem_cons_of_mem n hm)
        simp [List.forall₂_cons_left_iff, first, rest]
  simp [reads_array, items]

/-- Nothing in so many arrays, each in the next. -/
def nested : Nat → Json
  | 0 => .null
  | n + 1 => .array [nested n]

/-- Only so many arrays are opened. -/
theorem not_reads_nested {n : Nat} (deep : d < n) : ¬ Reads d (nested n) w := by
  induction d generalizing n w with
  | zero =>
      cases n with
      | zero => omega
      | succ n => simp [nested, Reads, source, ofSource?]
  | succ d ih =>
      cases n with
      | zero => omega
      | succ n =>
          intro reads
          obtain ⟨items, inner, _⟩ := reads_array.1 reads
          obtain ⟨v, _, first, _, _⟩ := List.forall₂_cons_left_iff.1 inner
          exact ih (Nat.lt_of_succ_lt_succ deep) first

/-! ## Members -/

theorem lookup_cons (k key : String) (v : Json) (ms : List (String × Json)) :
    ((key, v) :: ms).lookup k = if k = key then some v else ms.lookup k := by
  by_cases h : k = key
  · simp [h]
  · rw [List.lookup_cons, beq_eq_false_iff_ne.2 h, if_neg h]

theorem lookup_insertMember (k key : String) (v : Json) (ms : List (String × Json)) :
    (insertMember key v ms).lookup k = if k = key then some v else ms.lookup k := by
  induction ms with
  | nil => exact lookup_cons k key v []
  | cons m ms ih =>
      obtain ⟨name, x⟩ := m
      unfold insertMember
      split
      · exact lookup_cons k key v _
      · split
        · rename_i same
          rw [lookup_cons, lookup_cons, same]
          split <;> rfl
        · rename_i other
          rw [lookup_cons, lookup_cons, ih]
          by_cases h : k = name
          · have : ¬ k = key := fun same => other (same.symm.trans h)
            rw [if_pos h, if_neg this, if_pos h]
          · rw [if_neg h, if_neg h]

theorem lookup_foldl_of_notMem {k : String} (h : k ∉ ms.map (·.1)) :
    (ms.foldl (fun sorted (k, v) => insertMember k v sorted) acc).lookup k = acc.lookup k := by
  induction ms generalizing acc with
  | nil => rfl
  | cons m ms ih =>
      obtain ⟨other, rest⟩ := not_or.1 (fun hm => h (List.mem_cons.2 hm))
      rw [List.foldl_cons, ih rest, lookup_insertMember, if_neg other]

/-- Sorting keeps the value of every key, if no key occurs twice. -/
theorem lookup_foldl_of_mem {k : String} (h : (k, v) ∈ ms) (once : (ms.map (·.1)).Nodup) :
    (ms.foldl (fun sorted (k, v) => insertMember k v sorted) acc).lookup k = some v := by
  induction ms generalizing acc with
  | nil => cases h
  | cons m ms ih =>
      obtain ⟨apart, once⟩ := List.nodup_cons.1 once
      rw [List.foldl_cons]
      rcases List.mem_cons.1 h with rfl | h
      · rw [lookup_foldl_of_notMem apart, lookup_insertMember, if_pos rfl]
      · exact ih h once

theorem keys_of_reads (h : List.Forall₂ (ReadsMember d) ms ns) : ns.map (·.1) = ms.map (·.1) := by
  induction h with
  | nil => rfl
  | cons first _ ih => rw [List.map_cons, List.map_cons, first.1, ih]

theorem mem_of_reads {k : String} (h : List.Forall₂ (ReadsMember d) ms ns) (hm : (k, v) ∈ ms) :
    ∃ x, (k, x) ∈ ns ∧ Reads d v x := by
  induction h with
  | nil => cases hm
  | @cons _ n _ _ first _ ih =>
      rcases List.mem_cons.1 hm with rfl | hm
      · obtain ⟨name, x⟩ := n
        obtain ⟨rfl, value⟩ := first
        exact ⟨x, List.mem_cons_self, value⟩
      · obtain ⟨x, hx, value⟩ := ih hm
        exact ⟨x, List.mem_cons_of_mem _ hx, value⟩

/-- A member of an object is read as the member of the same key. -/
theorem Reads.get? {k : String} (h : Reads (d + 1) (.object ms) w) (once : (ms.map (·.1)).Nodup)
    (hm : (k, v) ∈ ms) : ∃ x, w.get? k = some x ∧ Reads d v x := by
  obtain ⟨members, reads, rfl⟩ := reads_object.1 h
  obtain ⟨x, hx, value⟩ := mem_of_reads reads hm
  rw [← keys_of_reads reads] at once
  exact ⟨x, lookup_foldl_of_mem hx once, value⟩

end Courier.Json

/-! ## Columns -/

namespace Courier.Document

variable {v w : Json}

theorem value?_ofJson : (ofJson v).value? = Json.ofText? v.text := rfl

/-- A value that is nested too deep can be stored, and what was stored cannot be read. -/
theorem value?_nested {n : Nat} (deep : Json.depthLimit < n) : (ofJson (.nested n)).value? = none := by
  rw [value?_ofJson]
  cases read : Json.ofText? (Json.nested n).text with
  | none => rfl
  | some w => exact absurd (Json.ofText?_text_eq_some.1 read) (Json.not_reads_nested deep)

theorem value_of_value? {d : Document} (h : d.value? = some w) : d.value = w := by
  rw [value, h, Option.getD_some]

end Courier.Document
