import Courier.Json.Value

/-!
# Layers of values

Settings come from several layers, each on top of those before it. All layers together are one tree
of values: a table is merged into a table key by key, and anything else takes the place of what was
there. A key is a path: names between full stops, each perhaps with a position in brackets.
-/

namespace Courier.Settings

open Courier.Text

/-- A step of a path: into a table or into a list. A negative position counts from the end. -/
inductive Step
  | key (name : String)
  | position (i : Int)
  deriving DecidableEq, Repr

abbrev Path := List Step

namespace Path

def isNameChar (c : Char) : Bool := c.isAlphanum || c == '_' || c == '-'

def name? (cs : List Char) : Option (Step × List Char) :=
  let name := cs.takeWhile isNameChar
  if name.isEmpty then none else some (.key (String.ofList name), cs.dropWhile isNameChar)

/-- A position, which a minus sign may precede and blanks may surround. -/
def position? (cs : List Char) : Option Int :=
  let isSpace (c : Char) : Bool := c == ' ' || c == '\t'
  match ((cs.dropWhile isSpace).reverse.dropWhile isSpace).reverse with
  | '+' :: _ => none
  | cs => (signed? cs).filter fun n => decide (InWord n)

/-- The steps behind the first name. Each takes at least one character, so the length of the text
bounds their number. -/
def steps? (fuel : Nat) : List Char → Option Path
  | [] => some []
  | '.' :: cs =>
    match fuel, name? cs with
    | fuel + 1, some (step, rest) => (steps? fuel rest).map (step :: ·)
    | _, _ => none
  | '[' :: cs =>
    match fuel, cs.dropWhile (· != ']') with
    | fuel + 1, _ :: rest =>
      match position? (cs.takeWhile (· != ']')) with
      | some i => (steps? fuel rest).map (.position i :: ·)
      | none => none
    | _, _ => none
  | _ => none

def ofText? (s : String) : Option Path :=
  (name? s.toList).bind fun (step, rest) => (steps? rest.length rest).map (step :: ·)

end Path

/-! ### Merging -/

def members : Json → List (String × Json)
  | .object ms => ms
  | _ => []

mutual

def merge (below : Json) : Json → Json
  | .object ms => .object (mergeMembers (members below) ms)
  | v => v

def mergeMembers (below : List (String × Json)) : List (String × Json) → List (String × Json)
  | [] => below
  | (k, v) :: ms =>
    mergeMembers (Json.insertMember k (merge ((below.lookup k).getD .null) v) below) ms

end

/-- A list with the item at a position changed, and filled up with nothing as far as needed. -/
def changeAt (f : Json → Json) (i : Int) (items : List Json) : List Json :=
  if 0 ≤ i then
    (items ++ List.replicate (i.toNat + 1 - items.length) Json.null).modify i.toNat f
  else if i.natAbs ≤ items.length then items.modify (items.length - i.natAbs) f
  else (List.replicate (i.natAbs - items.length) Json.null ++ items).modify 0 f

/-- The tree with the value at a path changed. A value in the way gives place to a table or to a
list. -/
def change (f : Json → Json) : Path → Json → Json
  | [], v => f v
  | .key k :: path, v =>
    let ms := members v
    .object (Json.insertMember k (change f path ((ms.lookup k).getD .null)) ms)
  | .position i :: path, v => .array (changeAt (change f path) i (v.items?.getD []))

def put (tree : Json) (path : Path) (v : Json) : Json := change (merge · v) path tree

/-- The tree of some entries, the later on top. -/
def putAll (tree : Json) (entries : List (Path × Json)) : Json :=
  entries.foldl (fun tree (path, v) => put tree path v) tree

/-! ### Values of fields -/

def truth? (s : String) : Option Bool :=
  let w := s.toLower
  if w = "true" ∨ w = "on" ∨ w = "yes" then some true
  else if w = "false" ∨ w = "off" ∨ w = "no" then some false
  else none

def wordMax : Nat := 18446744073709551615

/-- A double to the nearest whole number, halves away from zero, and into the range of a word. -/
def rounded (lo hi : Int) (x : Float) : Int :=
  let n : Int := x.abs.round.toUInt64.toNat
  if x < 0 then max lo (-n) else min hi n

/-- A text as a natural number. A plus sign may stand in front. -/
def naturalText? (s : String) : Option Nat :=
  match s.toList with
  | '+' :: cs => number? cs
  | cs => number? cs

/-- The natural number up to a limit that a value stands for. Truth counts one. -/
def natural? (limit : Nat) (v : Json) : Option Nat :=
  let n? := match v with
    | .number (.int n) => if 0 ≤ n then some n.toNat else none
    | .number (.float x) => some (rounded 0 wordMax x).toNat
    | .bool b => some b.toNat
    | .string s => ((truth? s).map Bool.toNat) <|> (naturalText? s).filter (· ≤ wordMax)
    | _ => none
  n?.filter (· ≤ limit)

def integer? (v : Json) : Option Int :=
  let n? : Option Int := match v with
    | .number (.int n) => some n
    | .number (.float x) => some (rounded (-9223372036854775808) 9223372036854775807 x)
    | .bool b => some b.toNat
    | .string s => ((truth? s).map fun b => (b.toNat : Int)) <|> word? s
    | _ => none
  n?.filter fun n => -2147483648 ≤ n && n ≤ 2147483647

/-- The text that a value stands for: numbers and truth values stand for their spelling. -/
def text? : Json → Option String
  | .string s => some s
  | .bool b => some (toString b)
  | .number (.int n) => some (String.ofList (integer n))
  | .number (.float x) => (Decimal.float? .inText x).map String.ofList
  | _ => none

/-- The values of the fields of a record, from a table or from a list in the order of the fields. -/
def fields? (names : List String) : Json → Option (List (Option Json))
  | .object ms => some (names.map fun k => ms.lookup k)
  | .array items => if names.length ≤ items.length then some ((items.take names.length).map some) else none
  | _ => none

def required {α : Type} (read : Json → Option α) (v : Option Json) : Option α := v.bind read

def optional {α : Type} (read : Json → Option α) : Option Json → Option (Option α)
  | none | some .null => some none
  | some v => (read v).map some

end Courier.Settings
