/-!
# Blocks

Digests work through a message in blocks of sixteen words. The message is closed by a single bit,
zeros up to a whole block, and its length.
-/

namespace Courier.Digest

/-- A number as bytes, the most significant first. -/
def bytesOf (count n : Nat) : List UInt8 :=
  (List.range count).reverse.map fun i => UInt8.ofNat (n / Nat.pow 256 i)

def zerosFor (length : Nat) : Nat := (119 - length % 64) % 64

def closed (message : List UInt8) : List UInt8 :=
  message ++ 0x80 :: (List.replicate (zerosFor message.length) 0 ++
    bytesOf 8 (8 * message.length))

/-- Bytes as words, the most significant byte first. -/
def words : List UInt8 → List UInt32
  | a :: b :: c :: d :: rest =>
    ((a.toUInt32 <<< 24) ||| (b.toUInt32 <<< 16) ||| (c.toUInt32 <<< 8) ||| d.toUInt32) ::
      words rest
  | _ => []

def groups (fuel : Nat) (ws : List UInt32) : List (List UInt32) :=
  match fuel with
  | 0 => []
  | fuel + 1 => if ws.isEmpty then [] else ws.take 16 :: groups fuel (ws.drop 16)

def blocks (message : List UInt8) : List (List UInt32) :=
  let ws := words (closed message)
  groups ws.length ws

def bytes (ws : List UInt32) : List UInt8 := ws.flatMap fun w => bytesOf 4 w.toNat

def turnLeft (w n : UInt32) : UInt32 := (w <<< n) ||| (w >>> (32 - n))

def turnRight (w n : UInt32) : UInt32 := (w >>> n) ||| (w <<< (32 - n))

@[simp] theorem bytesOf_length (count n : Nat) : (bytesOf count n).length = count := by
  simp [bytesOf]

theorem closed_length_mod (message : List UInt8) : (closed message).length % 64 = 0 := by
  simp only [closed, zerosFor, List.length_append, List.length_cons, List.length_replicate,
    bytesOf_length]
  omega

end Courier.Digest
