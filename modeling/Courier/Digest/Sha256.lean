import Courier.Digest.Blocks

/-!
# SHA-256

The digest of 256 bits of FIPS 180-4, and the signature that it makes with a key, as in RFC 2104.
-/

namespace Courier.Digest.Sha256

def constants : List UInt32 :=
  [0x428a2f98, 0x71374491, 0xb5c0fbcf, 0xe9b5dba5, 0x3956c25b, 0x59f111f1, 0x923f82a4, 0xab1c5ed5,
   0xd807aa98, 0x12835b01, 0x243185be, 0x550c7dc3, 0x72be5d74, 0x80deb1fe, 0x9bdc06a7, 0xc19bf174,
   0xe49b69c1, 0xefbe4786, 0x0fc19dc6, 0x240ca1cc, 0x2de92c6f, 0x4a7484aa, 0x5cb0a9dc, 0x76f988da,
   0x983e5152, 0xa831c66d, 0xb00327c8, 0xbf597fc7, 0xc6e00bf3, 0xd5a79147, 0x06ca6351, 0x14292967,
   0x27b70a85, 0x2e1b2138, 0x4d2c6dfc, 0x53380d13, 0x650a7354, 0x766a0abb, 0x81c2c92e, 0x92722c85,
   0xa2bfe8a1, 0xa81a664b, 0xc24b8b70, 0xc76c51a3, 0xd192e819, 0xd6990624, 0xf40e3585, 0x106aa070,
   0x19a4c116, 0x1e376c08, 0x2748774c, 0x34b0bcb5, 0x391c0cb3, 0x4ed8aa4a, 0x5b9cca4f, 0x682e6ff3,
   0x748f82ee, 0x78a5636f, 0x84c87814, 0x8cc70208, 0x90befffa, 0xa4506ceb, 0xbef9a3f7, 0xc67178f2]

structure Registers where
  a : UInt32
  b : UInt32
  c : UInt32
  d : UInt32
  e : UInt32
  f : UInt32
  g : UInt32
  h : UInt32
  deriving DecidableEq, Repr

def Registers.start : Registers :=
  ⟨0x6a09e667, 0xbb67ae85, 0x3c6ef372, 0xa54ff53a, 0x510e527f, 0x9b05688c, 0x1f83d9ab, 0x5be0cd19⟩

/-- The schedule of a block, the last word first, with some words more. -/
def schedule : Nat → List UInt32 → List UInt32
  | 0, ws => ws
  | n + 1, ws =>
    let x := ws.getD 14 0
    let y := ws.getD 1 0
    let s := turnRight x 7 ^^^ turnRight x 18 ^^^ (x >>> 3)
    let t := turnRight y 17 ^^^ turnRight y 19 ^^^ (y >>> 10)
    schedule n ((ws.getD 15 0 + s + ws.getD 6 0 + t) :: ws)

def round (r : Registers) (w : UInt32 × UInt32) : Registers :=
  let s := turnRight r.e 6 ^^^ turnRight r.e 11 ^^^ turnRight r.e 25
  let t := r.h + s + ((r.e &&& r.f) ^^^ (~~~r.e &&& r.g)) + w.2 + w.1
  let u := turnRight r.a 2 ^^^ turnRight r.a 13 ^^^ turnRight r.a 22
  let v := u + ((r.a &&& r.b) ^^^ (r.a &&& r.c) ^^^ (r.b &&& r.c))
  ⟨t + v, r.a, r.b, r.c, r.d + t, r.e, r.f, r.g⟩

def compress (r : Registers) (block : List UInt32) : Registers :=
  let s := ((schedule 48 block.reverse).reverse.zip constants).foldl round r
  ⟨r.a + s.a, r.b + s.b, r.c + s.c, r.d + s.d, r.e + s.e, r.f + s.f, r.g + s.g, r.h + s.h⟩

def digest (message : List UInt8) : List UInt8 :=
  let r := (blocks message).foldl compress .start
  bytes [r.a, r.b, r.c, r.d, r.e, r.f, r.g, r.h]

/-- A key brought to the length of a block; a longer one is digested first. -/
def blockKey (key : List UInt8) : List UInt8 :=
  let k := if 64 < key.length then digest key else key
  k ++ List.replicate (64 - k.length) 0

def signature (key message : List UInt8) : List UInt8 :=
  let k := blockKey key
  digest (k.map (· ^^^ 0x5c) ++ digest (k.map (· ^^^ 0x36) ++ message))

@[simp] theorem bytes_length (ws : List UInt32) : (bytes ws).length = 4 * ws.length := by
  induction ws with
  | nil => rfl
  | cons w ws ih =>
    show (bytesOf 4 w.toNat ++ bytes ws).length = _
    rw [List.length_append, ih, bytesOf_length, List.length_cons]
    omega

@[simp] theorem digest_length (message : List UInt8) : (digest message).length = 32 := by
  simp [digest]

@[simp] theorem signature_length (key message : List UInt8) :
    (signature key message).length = 32 := by simp [signature]

end Courier.Digest.Sha256
