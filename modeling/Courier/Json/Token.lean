import Courier.Decimal.Literal
import Courier.Text.Hex

/-!
# Tokens of a JSON text

One pass over the characters, a step for each, that cuts a text into its marks, bare words, numbers
and strings. The grammar is RFC 8259 to the letter: four blanks, no leading zeros, no bare control
character in a string. Escapes of surrogates are kept apart, since whether they must pair up depends
on whether the string is used at all.
-/

namespace Courier.Json

open Courier.Text

/-- A piece of a string: a character, or half a character as an escape may spell it. -/
inductive Piece
  | char (c : Char)
  | surrogate (code : Nat)
  deriving DecidableEq, Repr

inductive Token
  | openBrace
  | closeBrace
  | openBracket
  | closeBracket
  | colon
  | comma
  | null
  | bool (b : Bool)
  | number (l : Decimal.Literal)
  | string (pieces : List Piece)
  deriving DecidableEq, Repr

inductive Phase
  | minus
  | zero
  | whole
  | point
  | fraction
  | mark
  | sign
  | exponent
  deriving DecidableEq, Repr

/-- A number being read; each run of digits is kept with its last digit first. -/
structure Spelling where
  phase : Phase
  negative : Bool
  whole : List Nat
  fraction : List Nat
  shrinks : Bool
  exponent : List Nat
  deriving DecidableEq, Repr

namespace Spelling

def start? (c : Char) : Option Spelling :=
  match digitValue? c with
  | some d => some ⟨if d = 0 then .zero else .whole, false, [d], [], false, []⟩
  | none => if c = '-' then some ⟨.minus, true, [], [], false, []⟩ else none

def extend? (s : Spelling) (c : Char) : Option Spelling :=
  match digitValue? c with
  | some d =>
    match s.phase with
    | .minus => some { s with phase := if d = 0 then .zero else .whole, whole := [d] }
    | .zero => none
    | .whole => some { s with whole := d :: s.whole }
    | .point | .fraction => some { s with phase := .fraction, fraction := d :: s.fraction }
    | .mark | .sign | .exponent => some { s with phase := .exponent, exponent := d :: s.exponent }
  | none =>
    match s.phase with
    | .zero | .whole =>
      if c = '.' then some { s with phase := .point }
      else if c = 'e' ∨ c = 'E' then some { s with phase := .mark }
      else none
    | .fraction => if c = 'e' ∨ c = 'E' then some { s with phase := .mark } else none
    | .mark =>
      if c = '+' then some { s with phase := .sign }
      else if c = '-' then some { s with phase := .sign, shrinks := true }
      else none
    | _ => none

def literal? (s : Spelling) : Option Decimal.Literal :=
  let l (e : Option (Bool × List Nat)) : Decimal.Literal :=
    ⟨s.negative, s.whole.reverse, s.fraction.reverse, e⟩
  match s.phase with
  | .zero | .whole | .fraction => some (l none)
  | .exponent => some (l (some (s.shrinks, s.exponent.reverse)))
  | _ => none

end Spelling

/-- What the scanner is in the middle of; strings are kept with their last piece first. -/
inductive Mode
  | between
  | word (rest : List Char) (token : Token)
  | number (s : Spelling)
  | string (text : List Piece)
  | escape (text : List Piece)
  | code (text : List Piece) (left : Nat) (value : Nat)
  deriving DecidableEq, Repr

/-- A text read up to some character; the tokens are kept with the last first. -/
structure Scanner where
  mode : Mode
  tokens : List Token
  deriving DecidableEq, Repr

def escaped? (c : Char) : Option Char :=
  if c = '"' ∨ c = '\\' ∨ c = '/' then some c
  else if c = 'b' then some '\x08'
  else if c = 'f' then some '\x0c'
  else if c = 'n' then some '\n'
  else if c = 'r' then some '\r'
  else if c = 't' then some '\t'
  else none

def Piece.ofCode (n : Nat) : Piece :=
  if 0xD800 ≤ n ∧ n ≤ 0xDFFF then .surrogate n else .char (Char.ofNat n)

namespace Scanner

def start : Scanner := ⟨.between, []⟩

def push (s : Scanner) (t : Token) : Scanner := ⟨.between, t :: s.tokens⟩

def begin? (tokens : List Token) (c : Char) : Option Scanner :=
  if c = ' ' ∨ c = '\t' ∨ c = '\n' ∨ c = '\r' then some ⟨.between, tokens⟩
  else if c = '\x7b' then some ⟨.between, .openBrace :: tokens⟩
  else if c = '\x7d' then some ⟨.between, .closeBrace :: tokens⟩
  else if c = '[' then some ⟨.between, .openBracket :: tokens⟩
  else if c = ']' then some ⟨.between, .closeBracket :: tokens⟩
  else if c = ':' then some ⟨.between, .colon :: tokens⟩
  else if c = ',' then some ⟨.between, .comma :: tokens⟩
  else if c = '"' then some ⟨.string [], tokens⟩
  else if c = 'n' then some ⟨.word ['u', 'l', 'l'] .null, tokens⟩
  else if c = 't' then some ⟨.word ['r', 'u', 'e'] (.bool true), tokens⟩
  else if c = 'f' then some ⟨.word ['a', 'l', 's', 'e'] (.bool false), tokens⟩
  else (Spelling.start? c).map fun s => ⟨.number s, tokens⟩

def step (s : Scanner) (c : Char) : Option Scanner :=
  match s.mode with
  | .between => begin? s.tokens c
  | .word [] _ => none
  | .word [x] t => if c = x then some (s.push t) else none
  | .word (x :: rest) t => if c = x then some { s with mode := .word rest t } else none
  | .number n =>
    match n.extend? c with
    | some n => some { s with mode := .number n }
    | none => n.literal?.bind fun l => begin? (.number l :: s.tokens) c
  | .string text =>
    if c = '"' then some (s.push (.string text.reverse))
    else if c = '\\' then some { s with mode := .escape text }
    else if c.toNat < 0x20 then none
    else some { s with mode := .string (.char c :: text) }
  | .escape text =>
    if c = 'u' then some { s with mode := .code text 4 0 }
    else (escaped? c).map fun e => { s with mode := .string (.char e :: text) }
  | .code text left value =>
    (hexValue? c).map fun d =>
      let value := 16 * value + d
      if left ≤ 1 then { s with mode := .string (Piece.ofCode value :: text) }
      else { s with mode := .code text (left - 1) value }

def finish? (s : Scanner) : Option (List Token) :=
  match s.mode with
  | .between => some s.tokens.reverse
  | .number n => n.literal?.map fun l => (Token.number l :: s.tokens).reverse
  | _ => none

def run (s : Scanner) (cs : List Char) : Option Scanner := cs.foldlM step s

@[simp] theorem run_nil (s : Scanner) : s.run [] = some s := rfl

@[simp] theorem run_cons (s : Scanner) (c : Char) (cs : List Char) :
    s.run (c :: cs) = (s.step c).bind fun s => s.run cs := by
  simp [run, List.foldlM_cons, bind]

theorem run_append (s : Scanner) (xs ys : List Char) :
    s.run (xs ++ ys) = (s.run xs).bind fun s => s.run ys := by
  simp [run, List.foldlM_append, bind]

end Scanner

def tokens? (cs : List Char) : Option (List Token) :=
  (Scanner.start.run cs).bind Scanner.finish?

end Courier.Json
