import Courier.Text.Integer

/-!
# Spans

Lengths of time, in whole nanoseconds.
-/

namespace Courier

/-- A length of time that is not negative. -/
structure Span where
  nanos : Nat
  deriving DecidableEq, Repr, Inhabited

namespace Span

def ofSeconds (n : Nat) : Span := ⟨n * 1000000000⟩

def ofMillis (n : Nat) : Span := ⟨n * 1000000⟩

def millis (s : Span) : Nat := s.nanos / 1000000

def seconds (s : Span) : Nat := s.nanos / 1000000000

instance : LE Span := ⟨fun a b => a.nanos ≤ b.nanos⟩
instance : LT Span := ⟨fun a b => a.nanos < b.nanos⟩
instance (a b : Span) : Decidable (a ≤ b) :=
  inferInstanceAs (Decidable (a.nanos ≤ b.nanos))
instance (a b : Span) : Decidable (a < b) :=
  inferInstanceAs (Decidable (a.nanos < b.nanos))

instance : Add Span := ⟨fun a b => ⟨a.nanos + b.nanos⟩⟩

def zero : Span := ⟨0⟩

def max (a b : Span) : Span := ⟨Nat.max a.nanos b.nanos⟩

def min (a b : Span) : Span := ⟨Nat.min a.nanos b.nanos⟩

/-- A fraction of a unit that has `places` digits, without trailing zeros. -/
def fractionText (places n : Nat) : List Char :=
  let ds := ((Text.padded places n).reverse.dropWhile (· == '0')).reverse
  if ds.isEmpty then [] else '.' :: ds

/-- A span in the largest unit that it fills, with as many decimals as it needs. -/
def text (s : Span) : String :=
  let (unit, places, name) :=
    if 1000000000 ≤ s.nanos then (1000000000, 9, "s")
    else if 1000000 ≤ s.nanos then (1000000, 6, "ms")
    else if 1000 ≤ s.nanos then (1000, 3, "µs")
    else (1, 0, "ns")
  String.ofList (Text.digits (s.nanos / unit) ++
    (if places = 0 then [] else fractionText places (s.nanos % unit))) ++ name

@[simp] theorem millis_ofMillis (n : Nat) : (ofMillis n).millis = n := by
  simp [ofMillis, millis]

@[simp] theorem add_nanos (a b : Span) : (a + b).nanos = a.nanos + b.nanos := rfl

theorem le_iff (a b : Span) : a ≤ b ↔ a.nanos ≤ b.nanos := Iff.rfl

theorem lt_iff (a b : Span) : a < b ↔ a.nanos < b.nanos := Iff.rfl

theorem max_nanos (a b : Span) : (max a b).nanos = Nat.max a.nanos b.nanos := rfl

theorem min_nanos (a b : Span) : (min a b).nanos = Nat.min a.nanos b.nanos := rfl

end Span

end Courier
