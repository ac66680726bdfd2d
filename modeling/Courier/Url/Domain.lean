import Courier.Url.Encoding

/-!
# Domain names

A domain name is brought into one form before it is compared or looked up: letters are lower-cased,
compatible spellings replaced, and labels with characters beyond ASCII stand for their spelling in
ASCII. A name with a character that no name may hold, or a label that spells no text, is refused.
-/

namespace Courier.Url.Domain

/-! ### Labels spelled in ASCII -/

/-- The number of a digit to the base thirty-six: letters first. -/
def digit? (c : Char) : Option Nat :=
  if 'a' ≤ c ∧ c ≤ 'z' then some (c.toNat - 97)
  else if 'A' ≤ c ∧ c ≤ 'Z' then some (c.toNat - 65)
  else if '0' ≤ c ∧ c ≤ '9' then some (c.toNat - 22)
  else none

def digitChar (n : Nat) : Char := if n < 26 then Char.ofNat (97 + n) else Char.ofNat (22 + n)

/-- From which digit on a digit is not the last of its number. -/
def threshold (k bias : Nat) : Nat :=
  if k ≤ bias then 1 else if bias + 26 ≤ k then 26 else k - bias

/-- Divides by thirty-five until at most 455 is left, and counts thirty-six for each time. -/
def shrink (delta k : Nat) : Nat × Nat :=
  if 455 < delta then shrink (delta / 35) (k + 36) else (delta, k)
termination_by delta
decreasing_by exact Nat.div_lt_self (by omega) (by omega)

def adapt (delta count : Nat) (first : Bool) : Nat :=
  let d := if first then delta / 700 else delta / 2
  let (d, k) := shrink (d + d / count) 0
  k + 36 * d / (d + 38)

/-- Reading goes on with the next digit of a number, whose weight is known. -/
structure Spelling where
  chars : List Char
  code : Nat
  index : Nat
  bias : Nat
  start : Nat
  weight : Nat
  k : Nat
  deriving DecidableEq, Repr

def Spelling.begin (chars : List Char) : Spelling := ⟨chars, 128, 0, 72, 0, 1, 36⟩

def Spelling.step (s : Spelling) (c : Char) : Option Spelling :=
  (digit? c).bind fun d =>
    let index := s.index + d * s.weight
    if 4294967295 < index then none
    else
      let t := threshold s.k s.bias
      if d < t then
        let count := s.chars.length + 1
        let code := s.code + index / count
        let place := index % count
        if code.isValidChar then
          some ⟨s.chars.insertIdx place (Char.ofNat code), code, place + 1,
            adapt (index - s.start) count (s.start == 0), place + 1, 1, 36⟩
        else none
      else some { s with index, weight := s.weight * (36 - t), k := s.k + 36 }

/-- The text that a label spells behind its mark. The characters before the last hyphen stand for
themselves. -/
def decodeLabel? (label : List Char) : Option (List Char) :=
  let tail := (label.reverse.takeWhile (· != '-')).reverse
  let head := label.take (label.length - tail.length - 1)
  (tail.foldlM Spelling.step (Spelling.begin head)).bind fun s =>
    if s.k = 36 then some s.chars else none

def numberDigits (bias k q : Nat) : List Char :=
  let t := threshold k bias
  if q < t ∨ 36 ≤ t ∨ t = 0 then [digitChar q]
  else digitChar (t + (q - t) % (36 - t)) :: numberDigits bias (k + 36) ((q - t) / (36 - t))
termination_by q
decreasing_by
  calc (q - threshold k bias) / (36 - threshold k bias)
      ≤ q - threshold k bias := Nat.div_le_self _ _
    _ < q := by omega

/-- The digits written so far, the distance to the next character, the bias, and how many characters
are spelled. -/
structure Written where
  digits : List Char
  delta : Nat
  bias : Nat
  count : Nat

def Written.step (basic code : Nat) (w : Written) (c : Char) : Written :=
  if c.toNat < code then { w with delta := w.delta + 1 }
  else if c.toNat = code then
    ⟨w.digits ++ numberDigits w.bias 36 w.delta, 0,
      adapt w.delta (w.count + 1) (w.count == basic), w.count + 1⟩
  else w

/-- The digits for the characters beyond ASCII of a label, in rounds by ascending character. -/
def extraDigits (label : List Char) (basic : Nat) : List Nat → Nat → Written → List Char
  | [], _, w => w.digits
  | code :: codes, last, w =>
    let w := { w with delta := w.delta + (code - last) * (w.count + 1) }
    let w := label.foldl (Written.step basic code) w
    extraDigits label basic codes (code + 1) { w with delta := w.delta + 1 }

def encodeLabel (label : List Char) : List Char :=
  let basic := label.filter (·.toNat < 128)
  let codes := ((label.filter (128 ≤ ·.toNat)).map Char.toNat).eraseDups.mergeSort
  basic ++ (if basic.isEmpty then [] else ['-']) ++
    extraDigits label basic.length codes 128 ⟨[], 0, 72, basic.length⟩

/-! ### Characters of names -/

def inRanges (ranges : List (Nat × Nat)) (c : Char) : Bool :=
  ranges.any fun (lo, hi) => lo ≤ c.toNat && c.toNat ≤ hi

/-- Characters that leave no trace in a name. -/
def ignored : List (Nat × Nat) :=
  [(0xAD, 0xAD), (0x34F, 0x34F), (0x180B, 0x180D), (0x180F, 0x180F), (0x200B, 0x200B),
   (0x2060, 0x2060), (0x2064, 0x2064), (0xFE00, 0xFE0F), (0xFEFF, 0xFEFF), (0xE0100, 0xE01EF)]

/-- Characters beyond ASCII that no name may hold: controls, marks of direction and layout, blanks,
private use and what will never be a character. -/
def refused : List (Nat × Nat) :=
  [(0x80, 0xA0), (0x61C, 0x61C), (0x1680, 0x1680), (0x180E, 0x180E), (0x2000, 0x200A),
   (0x200E, 0x200F), (0x2028, 0x202F), (0x205F, 0x205F), (0x2061, 0x2063), (0x2065, 0x206F),
   (0x2FF0, 0x2FFF), (0x3000, 0x3000), (0xE000, 0xF8FF), (0xFDD0, 0xFDEF), (0xFFF0, 0xFFFF),
   (0x1FFFE, 0x1FFFF), (0x2FFFE, 0x2FFFF), (0x323B0, 0xE00FF), (0xE01F0, 0x10FFFF)]

/-- Marks that combine with the character before them and cannot begin a label. -/
def combining : List (Nat × Nat) :=
  [(0x300, 0x36F), (0x483, 0x489), (0x591, 0x5BD), (0x5BF, 0x5BF), (0x5C1, 0x5C2), (0x5C4, 0x5C5),
   (0x5C7, 0x5C7), (0x610, 0x61A), (0x64B, 0x65F), (0x670, 0x670), (0x900, 0x903), (0x93A, 0x93C),
   (0x93E, 0x94F), (0x1AB0, 0x1AFF), (0x1DC0, 0x1DFF), (0x20D0, 0x20F0), (0x302A, 0x302F),
   (0x3099, 0x309A), (0xFE20, 0xFE2F)]

/-- Signs behind which a joiner may stand. -/
def viramas : List Nat :=
  [0x94D, 0x9CD, 0xA4D, 0xACD, 0xB4D, 0xBCD, 0xC4D, 0xCCD, 0xD3B, 0xD3C, 0xD4D, 0xDCA, 0xE3A,
   0xEBA, 0xF84, 0x1039, 0x103A, 0x1714, 0x1734, 0x17D2, 0x1A60, 0x1B44, 0x1BAA, 0x1BAB, 0x1BF2,
   0x1BF3, 0x2D7F, 0xA806, 0xA8C4, 0xA953, 0xA9C0, 0xAAF6, 0xABED]

def refusedAscii : List Char :=
  ['%', '#', '/', ':', '<', '>', '?', '@', '[', '\\', ']', '^', '|']

def isAllowed (c : Char) : Bool :=
  if c.toNat < 128 then 32 < c.toNat && c.toNat != 127 && !refusedAscii.contains c
  else !inRanges refused c

/-- The lower-case letter of a capital in the Latin, Greek and Cyrillic alphabets. -/
def lower (c : Char) : Char :=
  let n := c.toNat
  if n < 128 then c.toLower
  else if (0xC0 ≤ n && n ≤ 0xDE && n != 0xD7) || (0x391 ≤ n && n ≤ 0x3A9) || (0x410 ≤ n && n ≤ 0x42F)
  then Char.ofNat (n + 32)
  else if 0x400 ≤ n && n ≤ 0x40F then Char.ofNat (n + 80)
  else if (0x100 ≤ n && n ≤ 0x12F) || (0x14A ≤ n && n ≤ 0x177) || (0x460 ≤ n && n ≤ 0x481) ||
    (0x48A ≤ n && n ≤ 0x4BF) || (0x1E00 ≤ n && n ≤ 0x1E95) || (0x1EA0 ≤ n && n ≤ 0x1EFF)
  then Char.ofNat (n + (1 - n % 2))
  else c

/-- What a character stands for in a name: the stops of other scripts for the full stop, wide
characters for the plain ones, capitals for small letters. -/
def mapped (c : Char) : List Char :=
  let n := c.toNat
  if inRanges ignored c then []
  else if n = 0x3002 ∨ n = 0xFF61 then ['.']
  else if 0xFF01 ≤ n ∧ n ≤ 0xFF5E then [(Char.ofNat (n - 0xFEE0)).toLower]
  else [lower c]

/-- Joiners stand only behind a sign that takes one. -/
def joined : List Char → Bool
  | [] => true
  | [c] => c.toNat != 0x200C && c.toNat != 0x200D
  | c :: d :: rest =>
    ((d.toNat != 0x200C && d.toNat != 0x200D) || viramas.contains c.toNat) && joined (d :: rest)

def isLabel (label : List Char) : Bool :=
  label.all isAllowed && label.head?.all (fun c =>
    !inRanges combining c && c.toNat != 0x200C && c.toNat != 0x200D) && joined label

def mark : List Char := ['x', 'n', '-', '-']

/-- A label in its final form. A label that carries the mark has to spell something that needs it. -/
def label? (label : List Char) : Option (List Char) :=
  if mark.isPrefixOf label then
    (decodeLabel? (label.drop 4)).bind fun text =>
      if text.any (128 ≤ ·.toNat) && isLabel text && text.flatMap mapped == text then some label
      else none
  else if label.all (·.toNat < 128) then if label.all isAllowed then some label else none
  else if isLabel label then some (mark ++ encodeLabel label)
  else none

def labels : List Char → List (List Char)
  | [] => [[]]
  | c :: cs =>
    if c = '.' then [] :: labels cs
    else match labels cs with
      | [] => [[c]]
      | l :: ls => (c :: l) :: ls

def ofText? (s : String) : Option String :=
  ((labels (s.toList.flatMap mapped)).mapM label?).map fun ls =>
    String.ofList (['.'].intercalate ls)

end Courier.Url.Domain
