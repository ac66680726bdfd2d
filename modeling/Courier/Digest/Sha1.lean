import Courier.Digest.Blocks

/-!
# SHA-1

The digest of 160 bits of FIPS 180-4, by which servers know the scripts that they hold.
-/

namespace Courier.Digest.Sha1

structure Registers where
  a : UInt32
  b : UInt32
  c : UInt32
  d : UInt32
  e : UInt32
  deriving DecidableEq, Repr

def Registers.start : Registers := ⟨0x67452301, 0xefcdab89, 0x98badcfe, 0x10325476, 0xc3d2e1f0⟩

/-- The schedule of a block, the last word first, with some words more. -/
def schedule : Nat → List UInt32 → List UInt32
  | 0, ws => ws
  | n + 1, ws =>
    let x := ws.getD 2 0 ^^^ ws.getD 7 0 ^^^ ws.getD 13 0 ^^^ ws.getD 15 0
    schedule n (turnLeft x 1 :: ws)

/-- How a round mixes three words, and what it adds. -/
def mix (i : Nat) (b c d : UInt32) : UInt32 × UInt32 :=
  if i < 20 then ((b &&& c) ||| (~~~b &&& d), 0x5a827999)
  else if i < 40 then (b ^^^ c ^^^ d, 0x6ed9eba1)
  else if i < 60 then ((b &&& c) ||| (b &&& d) ||| (c &&& d), 0x8f1bbcdc)
  else (b ^^^ c ^^^ d, 0xca62c1d6)

def round (r : Registers) (w : UInt32 × Nat) : Registers :=
  let (f, k) := mix w.2 r.b r.c r.d
  ⟨turnLeft r.a 5 + f + r.e + k + w.1, r.a, turnLeft r.b 30, r.c, r.d⟩

def compress (r : Registers) (block : List UInt32) : Registers :=
  let s := (schedule 64 block.reverse).reverse.zipIdx.foldl round r
  ⟨r.a + s.a, r.b + s.b, r.c + s.c, r.d + s.d, r.e + s.e⟩

def digest (message : List UInt8) : List UInt8 :=
  let r := (blocks message).foldl compress .start
  bytes [r.a, r.b, r.c, r.d, r.e]

end Courier.Digest.Sha1
