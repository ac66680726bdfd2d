import Courier.Proofs.Json.Number

/-! # Texts of values

A value is written behind a text. The reader, which has taken the text up to there, is followed
through everything that the writer appends: it ends up with just the tree of the value, so every
value has a text that is JSON.
-/

namespace Courier.Json

open Courier.Text Courier.Decimal

/-! ## Tokens -/

inductive Mark : Char → Token → Prop
  | openBrace : Mark '\x7b' .openBrace
  | closeBrace : Mark '\x7d' .closeBrace
  | openBracket : Mark '[' .openBracket
  | closeBracket : Mark ']' .closeBracket
  | colon : Mark ':' .colon
  | comma : Mark ',' .comma

theorem Spelling.extend?_mark {c : Char} {t : Token} (m : Mark c t) (s : Spelling) :
    s.extend? c = none := by
  cases m <;> cases h : s.phase <;> simp [extend?, h, digitValue?]

namespace Scanner

/-- The tokens of a scanner that may be in the middle of a number, but of nothing else. -/
inductive Ended : Scanner → List Token → Prop
  | between (ts : List Token) : Ended ⟨.between, ts⟩ ts
  | number {n : Spelling} {l : Literal} (ts : List Token) (whole : n.literal? = some l) :
      Ended ⟨.number n, ts⟩ (.number l :: ts)

variable {s s' : Scanner} {c : Char} {cs : List Char} {t : Token} {ts : List Token}
  {n m : Spelling} {l : Literal}

theorem begin?_mark (m : Mark c t) (ts : List Token) : begin? ts c = some ⟨.between, t :: ts⟩ := by
  cases m <;> rfl

theorem Ended.mark (h : Ended s ts) (m : Mark c t) : s.step c = some ⟨.between, t :: ts⟩ := by
  cases h with
  | between ts => exact begin?_mark m ts
  | number ts whole => simp [step, Spelling.extend?_mark m, whole, begin?_mark m]

theorem Ended.finish? (h : Ended s ts) : s.finish? = some ts.reverse := by
  cases h with
  | between ts => rfl
  | number ts whole => simp [Scanner.finish?, whole]

/-! ## Numbers -/

theorem begin?_number (h : Spelling.start? c = some n) : begin? ts c = some ⟨.number n, ts⟩ := by
  have none {x : Char} (hx : Spelling.start? x = none) : ¬ c = x := by
    rintro rfl
    rw [hx] at h
    cases h
  have blank : ¬ (c = ' ' ∨ c = '\t' ∨ c = '\n' ∨ c = '\r') := by
    rintro (rfl | rfl | rfl | rfl) <;> cases h
  simp only [begin?, if_neg blank, if_neg (none (x := '\x7b') rfl), if_neg (none (x := '\x7d') rfl),
    if_neg (none (x := '[') rfl), if_neg (none (x := ']') rfl), if_neg (none (x := ':') rfl),
    if_neg (none (x := ',') rfl), if_neg (none (x := '"') rfl), if_neg (none (x := 'n') rfl),
    if_neg (none (x := 't') rfl), if_neg (none (x := 'f') rfl), h, Option.map_some]

theorem run_number (h : n.run cs = some m) :
    Scanner.run ⟨.number n, ts⟩ cs = some ⟨.number m, ts⟩ := by
  induction cs generalizing n with
  | nil =>
      cases h
      rfl
  | cons c cs ih =>
      rw [Spelling.run_cons] at h
      obtain ⟨k, hk, h⟩ := Option.bind_eq_some_iff.1 h
      simp [step, hk, ih h]

theorem run_literal (ts : List Token) (h : literal? cs = some l) :
    ∃ s, Scanner.run ⟨.between, ts⟩ cs = some s ∧ s.Ended (.number l :: ts) := by
  cases cs with
  | nil => cases h
  | cons c cs =>
      obtain ⟨n, hn, h⟩ := Option.bind_eq_some_iff.1 h
      obtain ⟨m, hm, h⟩ := Option.bind_eq_some_iff.1 h
      exact ⟨_, by simp [step, begin?_number hn, run_number hm], .number ts h⟩

/-! ## Strings -/

theorem run_escape (text : List Piece) (c : Char) :
    Scanner.run ⟨.string text, ts⟩ (escape c) = some ⟨.string (.char c :: text), ts⟩ := by
  by_cases quote : c = '"' ∨ c = '\\'
  · rcases quote with rfl | rfl <;> rfl
  by_cases backspace : c = '\x08'
  · subst backspace; rfl
  by_cases feed : c = '\x0c'
  · subst feed; rfl
  by_cases line : c = '\n'
  · subst line; rfl
  by_cases carriage : c = '\r'
  · subst carriage; rfl
  by_cases tab : c = '\t'
  · subst tab; rfl
  have short : shortEscape? c = none := by
    simp [shortEscape?, quote, backspace, feed, line, carriage, tab]
  by_cases control : c.toNat < 0x20
  · have high := hexValue?_hexDigit (n := c.toNat / 16) (by omega)
    have low := hexValue?_hexDigit (n := c.toNat % 16) (by omega)
    have code : 16 * (c.toNat / 16) + c.toNat % 16 = c.toNat := by omega
    have piece : Piece.ofCode c.toNat = .char c := by
      rw [Piece.ofCode, if_neg (by omega), Char.ofNat_toNat]
    have zero : hexValue? '0' = some 0 := rfl
    simp [escape, short, control, step, zero, high, low, code, piece]
  · rw [not_or] at quote
    simp [escape, short, control, step, quote]

theorem run_string (text : List Piece) (cs : List Char) :
    Scanner.run ⟨.string text, ts⟩ (cs.flatMap escape) =
      some ⟨.string ((cs.map .char).reverse ++ text), ts⟩ := by
  induction cs generalizing text with
  | nil => rfl
  | cons c cs ih =>
      rw [List.flatMap_cons, run_append, run_escape, Option.bind_some, ih]
      simp

end Scanner

/-! ## Reading along -/

mutual

def source : Json → Source
  | .null => .null
  | .bool b => .bool b
  | .number n => ((literal? (numberText n)).map .number).getD .null
  | .string s => .string (s.toList.map .char)
  | .array vs => .array (sources vs)
  | .object ms => .object (memberSources ms)

def sources : List Json → List Source
  | [] => []
  | v :: vs => source v :: sources vs

def memberSources : List (String × Json) → List (List Piece × Source)
  | [] => []
  | (k, v) :: ms => (k.toList.map .char, source v) :: memberSources ms

end

/-- A text is read up to some point, and in the middle of no token. -/
def Clear (out : String) (r : Reader) : Prop :=
  ∃ ts, Scanner.start.run out.toList = some ⟨.between, ts⟩ ∧ Reader.start.run ts.reverse = some r

/-- A text is read up to some point if the number that it may end with is over. -/
def Reached (out : String) (r : Reader) : Prop :=
  ∃ s ts, Scanner.start.run out.toList = some s ∧ s.Ended ts ∧ Reader.start.run ts.reverse = some r

/-- A value may begin, inside these frames. -/
def Reader.Takes (r : Reader) (frames : List Frame) : Prop :=
  ∀ t, t ≠ .closeBracket → r.step t = Reader.begin? frames t

variable {out : String} {r r' : Reader} {frames : List Frame} {c : Char} {t : Token}

theorem Reader.takes_value : Reader.Takes ⟨.value, frames⟩ frames := fun _ _ => rfl

theorem Reader.takes_item : Reader.Takes ⟨.firstItem, frames⟩ (.array [] :: frames) := by
  intro t ht
  cases t <;> first | rfl | exact absurd rfl ht

theorem Reader.run_snoc {ts : List Token} (h : Reader.start.run ts.reverse = some r)
    (hr : r.step t = some r') : Reader.start.run (t :: ts).reverse = some r' := by
  rw [List.reverse_cons, Reader.run_append, h, Option.bind_some, Reader.run_cons, hr,
    Option.bind_some, Reader.run_nil]

theorem Clear.empty : Clear "" Reader.start := ⟨[], rfl, rfl⟩

theorem Clear.reached (h : Clear out r) : Reached out r := by
  obtain ⟨ts, hs, hr⟩ := h
  exact ⟨_, ts, hs, .between ts, hr⟩

theorem append_toList (out : String) (cs : List Char) :
    (append out cs).toList = out.toList ++ cs := by
  induction cs generalizing out with
  | nil => simp [append]
  | cons c cs ih =>
      have := ih (out.push c)
      simpa [append] using this

theorem Reached.mark (h : Reached out r) (m : Mark c t) (hr : r.step t = some r') :
    Clear (out.push c) r' := by
  obtain ⟨s, ts, hs, ended, hread⟩ := h
  refine ⟨t :: ts, ?_, Reader.run_snoc hread hr⟩
  rw [String.toList_push, Scanner.run_append, hs, Option.bind_some, Scanner.run_cons, ended.mark m]
  rfl

theorem Clear.word {w : String} (h : Clear out r)
    (hw : ∀ ts, Scanner.run ⟨.between, ts⟩ w.toList = some ⟨.between, t :: ts⟩)
    (hr : r.step t = some r') : Clear (out ++ w) r' := by
  obtain ⟨ts, hs, hread⟩ := h
  refine ⟨t :: ts, ?_, Reader.run_snoc hread hr⟩
  rw [String.toList_append, Scanner.run_append, hs, Option.bind_some, hw]

theorem Clear.number {cs : List Char} {l : Literal} (h : Clear out r) (hl : literal? cs = some l)
    (hr : r.step (.number l) = some r') : Reached (append out cs) r' := by
  obtain ⟨ts, hs, hread⟩ := h
  obtain ⟨s, hrun, ended⟩ := Scanner.run_literal ts hl
  refine ⟨s, _, ?_, ended, Reader.run_snoc hread hr⟩
  rw [append_toList, Scanner.run_append, hs, Option.bind_some, hrun]

theorem writeString_toList (out s : String) :
    (writeString out s).toList = out.toList ++ '"' :: (s.toList.flatMap escape ++ ['"']) := by
  have body (cs : List Char) (out : String) :
      (cs.foldl (fun out c => append out (escape c)) out).toList =
        out.toList ++ cs.flatMap escape := by
    induction cs generalizing out with
    | nil => simp
    | cons c cs ih => simp [ih, append_toList]
  simp [writeString, body]

theorem Clear.string (h : Clear out r) (s : String)
    (hr : r.step (.string (s.toList.map .char)) = some r') : Clear (writeString out s) r' := by
  obtain ⟨ts, hs, hread⟩ := h
  refine ⟨_, ?_, Reader.run_snoc hread hr⟩
  rw [writeString_toList, Scanner.run_append, hs, Option.bind_some, Scanner.run_cons]
  have quote : Scanner.step ⟨.between, ts⟩ '"' = some ⟨.string [], ts⟩ := rfl
  rw [quote, Option.bind_some, Scanner.run_append, Scanner.run_string]
  simp [Scanner.step, Scanner.push]

/-! ## Writing and reading -/

theorem append_eq (out w : String) : append out w.toList = out ++ w := by
  rw [← String.toList_inj, append_toList, String.toList_append]

theorem Clear.numberText (h : Clear out r) (n : Number) (hr : r.Takes frames) :
    Reached (append out (numberText n)) ⟨.next (source (.number n)), frames⟩ := by
  rcases literal?_numberText n with ⟨l, hl⟩ | null
  · have tree : source (.number n) = .number l := by rw [source, hl]; rfl
    rw [tree]
    exact h.number hl (hr _ (by simp))
  · have tree : source (.number n) = .null := by rw [source, null]; rfl
    rw [tree, null, append_eq]
    exact (h.word (fun _ => rfl) (hr .null (by simp))).reached

mutual

/-- The reader takes what the writer appends for a value. -/
theorem Clear.write (v : Json) {out : String} {r : Reader} {frames : List Frame}
    (h : Clear out r) (hr : r.Takes frames) :
    Reached (v.write out) ⟨.next (source v), frames⟩ := by
  cases v with
  | null => exact (h.word (fun _ => rfl) (hr .null (by simp))).reached
  | bool b =>
      have step := hr (.bool b) (by simp)
      cases b with
      | true => exact (h.word (fun _ => rfl) step).reached
      | false => exact (h.word (fun _ => rfl) step).reached
  | number n => exact h.numberText n hr
  | string s => exact (h.string s (hr _ (by simp))).reached
  | array vs =>
      have opened := h.reached.mark .openBracket (hr .openBracket (by simp))
      cases vs with
      | nil =>
          have pair : out ++ "[]" = (out.push '[').push ']' := by simp [← String.toList_inj]
          rw [Json.write, pair]
          exact (opened.reached.mark .closeBracket rfl).reached
      | cons v vs =>
          have first := Clear.write v opened Reader.takes_item
          obtain ⟨done, acc, rest, trees⟩ := Reached.writeItems vs first
          have closed := rest.mark .closeBracket rfl
          rw [trees] at closed
          exact closed.reached
  | object ms =>
      have opened := h.reached.mark .openBrace (hr .openBrace (by simp))
      cases ms with
      | nil =>
          have pair : out ++ "\x7b\x7d" = (out.push '\x7b').push '\x7d' := by
            simp [← String.toList_inj]
          rw [Json.write, pair]
          exact (opened.reached.mark .closeBrace rfl).reached
      | cons m ms =>
          obtain ⟨k, v⟩ := m
          have key := (opened.string k rfl).reached.mark .colon rfl
          have first := Clear.write v key Reader.takes_value
          obtain ⟨done, name, acc, rest, trees⟩ := Reached.writeMembers ms first
          have closed := rest.mark .closeBrace rfl
          rw [trees] at closed
          exact closed.reached

theorem Reached.writeItems (vs : List Json) {out : String} {frames : List Frame} {done : Source}
    {acc : List Source} (h : Reached out ⟨.next done, .array acc :: frames⟩) :
    ∃ done' acc', Reached (writeItems out vs) ⟨.next done', .array acc' :: frames⟩ ∧
      (done' :: acc').reverse = (done :: acc).reverse ++ sources vs := by
  cases vs with
  | nil => exact ⟨done, acc, h, by simp [sources]⟩
  | cons v vs =>
      have item := Clear.write v (h.mark .comma rfl) Reader.takes_value
      obtain ⟨done', acc', rest, trees⟩ := Reached.writeItems vs item
      exact ⟨done', acc', rest, by simp [trees, sources]⟩

theorem Reached.writeMembers (ms : List (String × Json)) {out : String} {frames : List Frame}
    {done : Source} {key : List Piece} {acc : List (List Piece × Source)}
    (h : Reached out ⟨.next done, .object acc key :: frames⟩) :
    ∃ done' key' acc', Reached (writeMembers out ms) ⟨.next done', .object acc' key' :: frames⟩ ∧
      ((key', done') :: acc').reverse = ((key, done) :: acc).reverse ++ memberSources ms := by
  cases ms with
  | nil => exact ⟨done, key, acc, h, by simp [memberSources]⟩
  | cons m ms =>
      obtain ⟨k, v⟩ := m
      have name := ((h.mark .comma rfl).string k rfl).reached.mark .colon rfl
      have member := Clear.write v name Reader.takes_value
      obtain ⟨done', key', acc', rest, trees⟩ := Reached.writeMembers ms member
      exact ⟨done', key', acc', rest, by simp [trees, memberSources]⟩

end

theorem Source.ofText?_text (v : Json) : Source.ofText? v.text = some (source v) := by
  obtain ⟨s, ts, hscan, ended, hread⟩ := Clear.write v Clear.empty Reader.takes_value
  have tokens : tokens? v.text.toList = some ts.reverse := by
    rw [tokens?, text, hscan]
    exact ended.finish?
  rw [Source.ofText?, tokens, Option.bind_some, hread]
  rfl

end Courier.Json
