import Courier.Text.Integer

/-!
# Number literals

A number as it is spelled in a message, and the value it is read as. Whole numbers that fit a word
of 64 bits stay whole. All others become doubles: up to 64 bits of the digits form a significand,
which is rounded once and then scaled by powers of ten in floating point. The result is the double
next to the decimal in all but a few cases, where it misses by a last place; a value too large for
a double is refused.
-/

namespace Courier

inductive Number
  | int (n : Int)
  | float (x : Float)

namespace Number

def toFloat : Number → Float
  | int n => if n < 0 then -Float.ofNat n.natAbs else Float.ofNat n.natAbs
  | float x => x

end Number

namespace Decimal

/-- A number as it is spelled: the digits before the point, those after it, and the exponent with
its sign. -/
structure Literal where
  negative : Bool
  whole : List Nat
  fraction : List Nat
  exponent : Option (Bool × List Nat)
  deriving DecidableEq, Repr

namespace Literal

def value (ds : List Nat) : Nat := ds.foldl (fun n d => 10 * n + d) 0

def wordMax : Nat := 18446744073709551615

/-- Digits appended to a significand while it fits a word: the significand, and how many digits
were taken. -/
def absorb (significand : Nat) (ds : List Nat) : Nat × Nat :=
  ds.foldl (fun (s, taken, full) d =>
    if full || wordMax < 10 * s + d then (s, taken, true) else (10 * s + d, taken + 1, false))
    (significand, 0, false) |> fun (s, taken, _) => (s, taken)

/-- The double next to a power of ten. -/
def powerOfTen (k : Nat) : Float := Float.ofScientific 1 false k

/-- A significand scaled by a power of ten, two steps at most; nothing on overflow. -/
def scale (significand : Nat) (e : Int) : Option Float :=
  let x := Float.ofNat significand
  if 0 ≤ e then
    if significand = 0 then some 0.0
    else if 308 < e then none
    else
      let y := x * powerOfTen e.toNat
      if y.isInf then none else some y
  else if -308 ≤ e then some (x / powerOfTen (-e).toNat)
  else if -616 ≤ e then some (x / powerOfTen 308 / powerOfTen (-e - 308).toNat)
  else some 0.0

/-- The exponent part as a number; nothing when it does not fit a signed word of 32 bits. -/
def exponentValue? : Option (Bool × List Nat) → Option Int
  | none => some 0
  | some (negative, ds) =>
    let n := value ds
    if 2147483647 < n then none else some (if negative then -(n : Int) else n)

/-- The literal as a double without its sign; nothing on overflow. -/
def magnitude? (l : Literal) : Option Float :=
  let (s, taken) := absorb 0 l.whole
  let (t, places) := absorb s l.fraction
  let skipped := l.whole.length - taken
  match exponentValue? l.exponent with
  | some e => scale t ((skipped : Int) - places + e)
  | none =>
    let shrinks := l.exponent.any (·.1)
    if shrinks || t == 0 then some 0.0 else none

def float? (l : Literal) : Option Float :=
  l.magnitude?.map fun x => if l.negative then -x else x

/-- No point and no exponent. -/
def isWhole (l : Literal) : Bool := l.fraction.isEmpty && l.exponent.isNone

/-- The value of the literal. Zero with a minus sign is no whole number. -/
def number? (l : Literal) : Option Number :=
  let n := value l.whole
  if l.isWhole && n ≤ (if l.negative then 9223372036854775808 else wordMax)
      && !(l.negative && n == 0) then
    some (.int (if l.negative then -(n : Int) else n))
  else l.float?.map .float

def int? (l : Literal) : Option Int :=
  match l.number? with
  | some (.int n) => some n
  | _ => none

end Literal

end Decimal

end Courier
