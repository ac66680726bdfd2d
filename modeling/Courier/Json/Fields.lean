import Courier.Json.Value

/-!
# Fields of a JSON text

Reading a record of known fields straight from the tree of a text. A record is spelled as an object
in which every field occurs once and whatever else occurs is skipped unread, or as an array of
exactly the fields in order.
-/

namespace Courier.Json.Source

/-- The trees of the members with a given key; nothing when a key is no text. -/
def membersOf (key : String) (members : List (String × Source)) : List Source :=
  (members.filter (·.1 == key)).map (·.2)

def decodeKeys? (members : List (List Piece × Source)) : Option (List (String × Source)) :=
  members.mapM fun (k, s) => (text? k).map (·, s)

def fields? (names : List String) : Source → Option (List Source)
  | .array items => if items.length = names.length then some items else none
  | .object members =>
    (decodeKeys? members).bind fun members =>
      names.mapM fun name =>
        match membersOf name members with
        | [s] => some s
        | _ => none
  | _ => none

def intBetween? (low high : Int) : Source → Option Int
  | .number l => l.int?.filter fun n => decide (low ≤ n ∧ n ≤ high)
  | _ => none

/-- A signed word of 64 bits. -/
def word? (s : Source) : Option Int :=
  intBetween? (-9223372036854775808) 9223372036854775807 s

/-- An unsigned word of 32 bits. -/
def size? (s : Source) : Option Nat := (intBetween? 0 4294967295 s).map Int.toNat

def float? : Source → Option Float
  | .number l => l.number?.map Number.toFloat
  | _ => none

def string? : Source → Option String
  | .string ps => text? ps
  | _ => none

def words? : Source → Option (List Int)
  | .array items => items.mapM word?
  | _ => none

end Courier.Json.Source
