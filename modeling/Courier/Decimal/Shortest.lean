/-!
# Shortest decimals

A finite double is `mantissa · 2 ^ exponent`, and every real between the midpoints to its two
neighbours rounds to it. Among the decimals in that interval this module finds one with the fewest
digits and, of those, the nearest to the double.
-/

namespace Courier

/-- The number `coefficient · 10 ^ exponent`. -/
structure Decimal where
  coefficient : Nat
  exponent : Int
  deriving DecidableEq, Repr

/-- A finite double, apart from its sign: the number `mantissa · 2 ^ exponent`. -/
structure Binary where
  mantissa : Nat
  exponent : Int
  deriving DecidableEq, Repr

namespace Binary

/-- The leading bit of a normal mantissa, which is not written into the double: two to the power
52. -/
def leadingBit : Nat := Nat.pow 2 52

/-- The magnitude of a double; nothing for an infinity or for a value that is no number. -/
def ofFloat? (x : Float) : Option Binary :=
  let bits := x.toBits.toNat
  let biased : Nat := bits / leadingBit % 2048
  let fraction : Nat := bits % leadingBit
  if biased = 2047 then none
  else if biased = 0 then some ⟨fraction, -1074⟩
  else some ⟨leadingBit + fraction, (biased : Int) - 1075⟩

/-- The gap below a power of two is half the gap above it, the smallest normal double apart. -/
def gapHalves (b : Binary) : Bool := b.mantissa == leadingBit && b.exponent != -1074

/-- A grid on which doubles and decimals are both whole: a quarter of the last binary place counts
`quarter` and the decimal place counts `place`. -/
structure Grid where
  quarter : Nat
  place : Nat
  deriving DecidableEq, Repr

def grid (b : Binary) (e : Int) : Grid :=
  let q := b.exponent - 2
  { quarter := Nat.pow 2 q.toNat * Nat.pow 10 (-e).toNat
    place := Nat.pow 2 (-q).toNat * Nat.pow 10 e.toNat }

/-- Does `c` decimal places round to the double? The ends of the interval belong to an even
mantissa. -/
def roundsTo (b : Binary) (g : Grid) (c : Nat) : Bool :=
  let low := (4 * b.mantissa - if b.gapHalves then 1 else 2) * g.quarter
  let high := (4 * b.mantissa + 2) * g.quarter
  let x := c * g.place
  if b.mantissa % 2 = 0 then low ≤ x && x ≤ high else low < x && x < high

/-- The multiple of the decimal place next to the double that rounds to it, the nearer where both
neighbours do. -/
def onGrid? (b : Binary) (e : Int) : Option Decimal :=
  let g := b.grid e
  let v := 4 * b.mantissa * g.quarter
  let c := v / g.place
  match b.roundsTo g c, b.roundsTo g (c + 1) with
  | true, true => some ⟨if v - c * g.place ≤ (c + 1) * g.place - v then c else c + 1, e⟩
  | true, false => some ⟨c, e⟩
  | false, true => some ⟨c + 1, e⟩
  | false, false => none

/-- The least `k` with the double below `10 ^ k`, for a double that is not zero. -/
def magnitude (b : Binary) : Int :=
  let log := (b.mantissa.log2 : Int) + b.exponent
  let guess := log * 30103 / 100000 - 1
  let below (k : Int) : Bool :=
    b.mantissa * Nat.pow 2 b.exponent.toNat * Nat.pow 10 (-k).toNat <
      Nat.pow 2 (-b.exponent).toNat * Nat.pow 10 k.toNat
  ([guess, guess + 1, guess + 2].find? below).getD (guess + 3)

def stripZeros (fuel : Nat) (d : Decimal) : Decimal :=
  match fuel with
  | 0 => d
  | fuel + 1 =>
    if d.coefficient % 10 = 0 ∧ d.coefficient ≠ 0 then
      stripZeros fuel ⟨d.coefficient / 10, d.exponent + 1⟩
    else d

/-- The decimal with the fewest digits that rounds to the double, and of those the nearest.
Seventeen digits always suffice. -/
def shortest (b : Binary) : Decimal :=
  if b.mantissa = 0 then ⟨0, 0⟩
  else
    let k := b.magnitude
    let found := (List.range 17).findSome? fun i => b.onGrid? (k - (i + 1 : Nat))
    stripZeros 20 (found.getD ⟨b.mantissa, b.exponent⟩)

end Binary

end Courier
