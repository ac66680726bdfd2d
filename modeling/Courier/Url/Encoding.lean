import Courier.Text.Hex

/-!
# Percent-encoding

Inside a URL a byte may be spelled by a percent sign and two hexadecimal digits. Each part of a URL
has its own set of characters that have to be spelled this way; whatever is not ASCII always is.
-/

namespace Courier.Url

open Courier.Text

def utf8 (s : String) : List UInt8 := s.toUTF8.toList

def ofUtf8? (bs : List UInt8) : Option String := String.fromUTF8? ⟨bs.toArray⟩

def asciiChar (b : UInt8) : Char := Char.ofNat b.toNat

def spelledByte? : List UInt8 → Option UInt8
  | a :: b :: _ =>
    match hexValue? (asciiChar a), hexValue? (asciiChar b) with
    | some x, some y => some (UInt8.ofNat (16 * x + y))
    | _, _ => none
  | _ => none

/-- Bytes with every spelled byte put in its place; a stray percent sign stays. The first argument
counts the bytes that belong to a spelling already read. -/
def unspell : Nat → List UInt8 → List UInt8
  | _, [] => []
  | k + 1, _ :: rest => unspell k rest
  | 0, b :: rest =>
    if b = 37 then
      match spelledByte? rest with
      | some x => x :: unspell 2 rest
      | none => b :: unspell 0 rest
    else b :: unspell 0 rest

def decodeBytes (bs : List UInt8) : List UInt8 := unspell 0 bs

def decode? (s : String) : Option String := ofUtf8? (decodeBytes (utf8 s))

def spell (b : UInt8) : List Char := '%' :: hexByte hexCapital b

/-- A text in which characters of a set, controls and whatever is not ASCII are spelled. -/
def encode (set : List Char) (s : String) : String :=
  String.ofList <| (utf8 s).flatMap fun b =>
    if b < 32 || 126 < b || set.contains (asciiChar b) then spell b else [asciiChar b]

def fragmentSet : List Char := [' ', '"', '<', '>', '\x60']

def pathSet : List Char := fragmentSet ++ ['#', '?', '^', '\x7b', '\x7d']

def userSet : List Char := pathSet ++ ['/', ':', ';', '=', '@', '[', '\\', ']', '|']

def querySet (special : Bool) : List Char :=
  [' ', '"', '#', '<', '>'] ++ if special then ['\''] else []

theorem unspell_zero_of_ne {b : UInt8} (h : b ≠ 37) (bs : List UInt8) :
    unspell 0 (b :: bs) = b :: unspell 0 bs := by
  simp [unspell, h]

theorem decodeBytes_of_not_mem {bs : List UInt8} (h : (37 : UInt8) ∉ bs) : decodeBytes bs = bs := by
  unfold decodeBytes
  induction bs with
  | nil => rfl
  | cons b bs ih =>
    rw [List.mem_cons, not_or] at h
    rw [unspell_zero_of_ne (fun e => h.1 e.symm), ih h.2]

end Courier.Url
