import Courier.Url.Domain

/-!
# Hosts

The host of a URL is a name, four bytes or eight groups of sixteen bits. Schemes of the web read
it in full; under any other scheme a name is taken as it is.
-/

namespace Courier

inductive Url.Host
  | name (s : String)
  | ipv4 (address : Nat)
  | ipv6 (groups : List Nat)
  deriving DecidableEq, Repr

inductive Url.Error
  | emptyHost
  | badName
  | badPort
  | badIpv4
  | badIpv6
  | badHostCharacter
  | noScheme
  deriving DecidableEq, Repr

def Url.Error.message : Url.Error → String
  | emptyHost => "empty host"
  | badName => "invalid international domain name"
  | badPort => "invalid port number"
  | badIpv4 => "invalid IPv4 address"
  | badIpv6 => "invalid IPv6 address"
  | badHostCharacter => "invalid domain character"
  | noScheme => "relative URL without a base"

namespace Url.Host

open Courier.Text

def split (sep : Char) : List Char → List (List Char)
  | [] => [[]]
  | c :: cs =>
    if c = sep then [] :: split sep cs
    else match split sep cs with
      | [] => [[c]]
      | l :: ls => (c :: l) :: ls

/-! ### Four bytes -/

def isOctal (c : Char) : Bool := '0' ≤ c && c ≤ '7'

/-- The digits of a number and their base: a leading zero means octal, `0x` hexadecimal. -/
def radix : List Char → Nat × List Char
  | '0' :: 'x' :: cs => (16, cs)
  | '0' :: 'X' :: cs => (16, cs)
  | '0' :: c :: cs => (8, c :: cs)
  | cs => (10, cs)

/-- A number in an address, in one of three bases; without digits behind its mark it is zero. -/
def number? (cs : List Char) : Option Nat :=
  let (base, ds) := radix cs
  let ok := if base = 16 then ds.all (hexValue? · |>.isSome) else
    if base = 8 then ds.all isOctal else ds.all isDigit
  if cs.isEmpty || !ok then none
  else some (ds.foldl (fun n c => base * n + (hexValue? c).getD 0) 0)

def parts (cs : List Char) : List (List Char) :=
  let ps := split '.' cs
  match ps.reverse with
  | [] :: p :: rest => (p :: rest).reverse
  | _ => ps

/-- A name is read as four bytes if its last part is a number. -/
def endsInNumber (cs : List Char) : Bool :=
  match (parts cs).reverse with
  | last :: _ => (!last.isEmpty && last.all isDigit) || (number? last).isSome
  | [] => false

/-- The number that up to four parts denote: the last part fills what the others leave. -/
def ipv4? (cs : List Char) : Option Nat :=
  (((parts cs).mapM number?).map List.reverse).bind fun
    | [] => none
    | last :: others =>
      let n := others.length
      if 3 < n || others.any (255 < ·) || Nat.pow 256 (4 - n) ≤ last then none
      else some (others.reverse.foldl (fun a b => 256 * a + b) 0 * Nat.pow 256 (4 - n) + last)

/-! ### Eight groups -/

def byte? (cs : List Char) : Option Nat :=
  if cs.length = 0 ∨ 3 < cs.length ∨ (cs.head? = some '0' ∧ cs.length ≠ 1) then none
  else (natural? cs).filter (· < 256)

/-- A group: one to four hexadecimal digits. -/
def group? (cs : List Char) : Option Nat :=
  if cs.length = 0 ∨ 4 < cs.length then none else hexNumber? cs

/-- The groups of a run between colons. Only the last may be four bytes, which make two groups. -/
def groups? (lastRun : Bool) : List (List Char) → Option (List Nat)
  | [] => some []
  | [cs] =>
    match group? cs with
    | some n => some [n]
    | none =>
      if lastRun then
        match (split '.' cs).mapM byte? with
        | some [a, b, c, d] => some [256 * a + b, 256 * c + d]
        | _ => none
      else none
  | cs :: rest =>
    match group? cs, groups? lastRun rest with
    | some n, some ns => some (n :: ns)
    | _, _ => none

def run? (lastRun : Bool) (cs : List Char) : Option (List Nat) :=
  if cs.isEmpty then some [] else groups? lastRun (split ':' cs)

def cut? : List Char → Option (List Char × List Char)
  | ':' :: ':' :: rest => some ([], rest)
  | c :: rest => (cut? rest).map fun (a, b) => (c :: a, b)
  | [] => none

/-- Eight groups. A pair of colons stands for at least one group of zeros. -/
def ipv6? (cs : List Char) : Option (List Nat) :=
  match cut? cs with
  | none => if cs.isEmpty then none else (run? true cs).filter (·.length = 8)
  | some (a, b) =>
    match run? false a, run? true b with
    | some xs, some ys =>
      let n := xs.length + ys.length
      if n ≤ 7 then some (xs ++ List.replicate (8 - n) 0 ++ ys) else none
    | _, _ => none

/-! ### Hosts -/

def bracketed (cs : List Char) : Except Error Host :=
  if cs.getLast? = some ']' then
    match ipv6? (cs.drop 1).dropLast with
    | some gs => .ok (.ipv6 gs)
    | none => .error .badIpv6
  else .error .badIpv6

def ofText (s : String) : Except Error Host :=
  if s.toList.head? = some '[' then bracketed s.toList
  else
    match (decode? s).bind Domain.ofText? with
    | none => .error .badName
    | some domain =>
      if domain.isEmpty then .error .emptyHost
      else if endsInNumber domain.toList then
        match ipv4? domain.toList with
        | some a => .ok (.ipv4 a)
        | none => .error .badIpv4
      else .ok (.name domain)

def refusedCharacters : List Char :=
  ['\x00', '\t', '\n', '\r', ' ', '#', '/', ':', '<', '>', '?', '@', '[', '\\', ']', '^', '|']

def ofOpaqueText (s : String) : Except Error Host :=
  if s.toList.head? = some '[' then bracketed s.toList
  else if s.toList.any refusedCharacters.contains then .error .badHostCharacter
  else .ok (.name (encode [] s))

def ipv4Text (a : Nat) : List Char :=
  ['.'].intercalate ([a / 16777216, a / 65536 % 256, a / 256 % 256, a % 256].map digits)

def groupText (n : Nat) : List Char :=
  match ([n / 4096, n / 256 % 16, n / 16 % 16, n % 16].map hexDigit).dropWhile (· == '0') with
  | [] => ['0']
  | ds => ds

def zeros (gs : List Nat) : Nat := (gs.takeWhile (· == 0)).length

/-- Where the first of the longest runs of at least two zero groups is. -/
def longestZeros (gs : List Nat) : Option (Nat × Nat) :=
  (List.range gs.length).foldl (fun best i =>
    let n := zeros (gs.drop i)
    if 2 ≤ n && best.all (·.2 < n) then some (i, n) else best) none

/-- The text of eight groups, its longest run of zeros left out. -/
def ipv6Text (gs : List Nat) : List Char :=
  let run (xs : List Nat) : List Char := [':'].intercalate (xs.map groupText)
  match longestZeros gs with
  | none => run gs
  | some (i, n) => run (gs.take i) ++ [':', ':'] ++ run (gs.drop (i + n))

def text : Host → String
  | .name s => s
  | .ipv4 a => String.ofList (ipv4Text a)
  | .ipv6 gs => String.ofList ('[' :: ipv6Text gs ++ [']'])

end Url.Host

end Courier
