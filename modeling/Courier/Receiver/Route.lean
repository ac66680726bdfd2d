/-!
# Routes

The path that a receiver listens on is a pattern: plain text in which a name in braces stands for
one segment and a name with a star for everything up to the end. A doubled brace is plain text.
-/

namespace Courier.Receiver

inductive Part
  | text (cs : List Char)
  | segment
  | rest
  deriving DecidableEq, Repr

abbrev Route := List Part

namespace Route

/-- A character of a pattern, and whether its brace was doubled. -/
structure Mark where
  char : Char
  doubled : Bool
  deriving DecidableEq, Repr

def Mark.isBrace (m : Mark) (c : Char) : Bool := m.char == c && !m.doubled

def marks : List Char → List Mark
  | '\x7b' :: '\x7b' :: cs => ⟨'\x7b', true⟩ :: marks cs
  | '\x7d' :: '\x7d' :: cs => ⟨'\x7d', true⟩ :: marks cs
  | c :: cs => ⟨c, false⟩ :: marks cs
  | [] => []

/-- Where the reader of a pattern is: in plain text, behind an opening brace, in a name, or behind
a closing brace. -/
inductive Mode
  | text (reversed : List Char)
  | opened
  | name (rest first : Bool)
  | closed (rest : Bool)
  deriving DecidableEq, Repr

structure Reader where
  parts : List Part
  mode : Mode
  deriving DecidableEq, Repr

def withText (parts : List Part) : List Char → List Part
  | [] => parts
  | reversed => .text reversed.reverse :: parts

/-- The reader one character on. A name is not empty and holds no slash or star behind its first
character; nothing but a slash may follow a segment and nothing at all a rest. -/
def Reader.step (r : Reader) (m : Mark) : Option Reader :=
  match r.mode with
  | .text reversed =>
    if m.isBrace '\x7b' then some ⟨withText r.parts reversed, .opened⟩
    else if m.isBrace '\x7d' then none
    else some { r with mode := .text (m.char :: reversed) }
  | .opened => if m.char = '\x7d' then none else some { r with mode := .name (m.char == '*') true }
  | .name rest first =>
    if m.isBrace '\x7d' then
      if rest && first then none
      else some ⟨(if rest then .rest else .segment) :: r.parts, .closed rest⟩
    else if m.char = '*' ∨ m.char = '/' then none
    else some { r with mode := .name rest false }
  | .closed rest => if rest || m.char != '/' then none else some { r with mode := .text ['/'] }

def Reader.finish? (r : Reader) : Option Route :=
  match r.mode with
  | .text reversed => some (withText r.parts reversed).reverse
  | .closed _ => some r.parts.reverse
  | _ => none

def segmentLimit : Nat := 25

/-- A segment may not begin with a colon or a star. -/
def startsPlainly : List Char → Bool
  | '/' :: c :: cs => c != ':' && c != '*' && startsPlainly (c :: cs)
  | _ :: cs => startsPlainly cs
  | [] => true

/-- The pattern that a text spells. It begins with a slash. -/
def ofText? (s : String) : Option Route :=
  if s.toList.head? = some '/' && startsPlainly s.toList then
    (((marks s.toList).foldlM Reader.step ⟨[], .text []⟩).bind Reader.finish?).filter fun r =>
      r.count .segment ≤ segmentLimit
  else none

def behind? : List Char → List Char → Option (List Char)
  | [], cs => some cs
  | _ :: _, [] => none
  | x :: xs, c :: cs => if x = c then behind? xs cs else none

/-- Does a path follow a pattern? A segment and a rest are not empty. -/
def accepts : Route → List Char → Bool
  | [], cs => cs.isEmpty
  | .text xs :: parts, cs =>
    match behind? xs cs with
    | some cs => accepts parts cs
    | none => false
  | .segment :: parts, cs =>
    cs.head?.any (· != '/') && accepts parts (cs.dropWhile (· != '/'))
  | .rest :: _, cs => !cs.isEmpty

theorem accepts_text (xs cs : List Char) : accepts [.text xs] cs = true ↔ cs = xs := by
  suffices h : ∀ cs, behind? xs cs = some [] ↔ cs = xs by
    rw [← h]
    unfold accepts
    cases hb : behind? xs cs with
    | none => simp
    | some r => cases r <;> simp [accepts]
  induction xs with
  | nil => intro cs; simp [behind?]
  | cons x xs ih =>
    intro cs
    cases cs with
    | nil => simp [behind?]
    | cons c cs => by_cases h : x = c <;> simp [behind?, h, ih, eq_comm]

end Route

end Courier.Receiver
