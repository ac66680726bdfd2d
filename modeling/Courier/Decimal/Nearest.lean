import Courier.Text.Integer

/-!
# Doubles from running text

Reads the spellings people use for a double, the infinities and the undefined value included, and
gives the double next to the number that is spelled.
-/

namespace Courier.Decimal

open Courier.Text

/-- The double next to `coefficient · 10 ^ e`. -/
def nearest (coefficient : Nat) (e : Int) : Float :=
  let size := ((digits coefficient).length : Int) + e
  if coefficient = 0 || size < -400 then 0.0
  else if 400 < size then 1.0 / 0.0
  else Float.ofScientific coefficient (decide (e < 0)) e.natAbs

def exponentPart? : List Char → Option Int
  | [] => some 0
  | c :: cs => if c = 'e' ∨ c = 'E' then signed? cs else none

def positional? (cs : List Char) : Option Float :=
  let whole := cs.takeWhile isDigit
  let rest := cs.dropWhile isDigit
  let (fraction, rest) := match rest with
    | '.' :: r => (r.takeWhile isDigit, r.dropWhile isDigit)
    | r => ([], r)
  if whole.isEmpty && fraction.isEmpty then none
  else
    (exponentPart? rest).bind fun e =>
      (natural? (whole ++ fraction)).map fun n => nearest n (e - fraction.length)

def unsigned? (cs : List Char) : Option Float :=
  let word := cs.map Char.toLower
  if word = "inf".toList || word = "infinity".toList then some (1.0 / 0.0)
  else if word = "nan".toList then some (0.0 / 0.0)
  else positional? cs

/-- A double as people spell it; nothing for any other text. -/
def spelled? (s : String) : Option Float :=
  match s.toList with
  | '-' :: cs => (unsigned? cs).map fun x => -x
  | '+' :: cs => unsigned? cs
  | cs => unsigned? cs

end Courier.Decimal
