import Courier.Decimal.Shortest
import Courier.Text.Integer

/-!
# Written doubles

Two ways to write the shortest decimal of a double: with a point or an exponent, so that it cannot
be taken for a whole number, and positionally, as plain as it gets.
-/

namespace Courier.Decimal

open Courier.Text

structure Style where
  /-- A number below `10 ^ (lowest - 1)` gets an exponent. -/
  lowest : Option Int
  /-- A number from `10 ^ highest` on gets an exponent. -/
  highest : Option Int
  /-- Is a whole number written with a zero fraction? -/
  pointed : Bool
  deriving DecidableEq, Repr

/-- Numbers in messages: positional from `1e-5` up to `1e16`, and never without a point or an
exponent. -/
def Style.inMessages : Style := ⟨some (-4), some 16, true⟩

/-- Numbers in running text: always positional, whole numbers without a point. -/
def Style.inText : Style := ⟨none, none, false⟩

def exponentText (e : Int) : List Char :=
  'e' :: (if e < 0 then '-' else '+') :: digits e.natAbs

def write (style : Style) (d : Decimal) : List Char :=
  let ds := digits d.coefficient
  let point := (ds.length : Int) + d.exponent
  if d.coefficient = 0 then (if style.pointed then ['0', '.', '0'] else ['0'])
  else if (style.lowest.any (point < ·)) || (style.highest.any (· < point)) then
    let fraction := ds.drop 1
    ds.take 1 ++ (if fraction.isEmpty then [] else '.' :: fraction) ++ exponentText (point - 1)
  else if point ≤ 0 then
    '0' :: '.' :: (List.replicate (-point).toNat '0' ++ ds)
  else if (ds.length : Int) ≤ point then
    ds ++ List.replicate (point.toNat - ds.length) '0' ++ (if style.pointed then ['.', '0'] else [])
  else ds.take point.toNat ++ '.' :: ds.drop point.toNat

def signBit (x : Float) : Bool := 9223372036854775808 ≤ x.toBits.toNat

def float? (style : Style) (x : Float) : Option (List Char) :=
  (Binary.ofFloat? x).map fun b =>
    (if signBit x then ['-'] else []) ++ write style b.shortest

end Courier.Decimal
