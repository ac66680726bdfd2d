import Courier.Decimal.Written
import Courier.Json.Source

/-!
# JSON values

Values with whole numbers and doubles kept apart. A value that is read has the members of each
object in the order of their keys, no key twice. Reading a value from a text bounds the nesting; writing one uses no blanks
and escapes only what a string cannot hold bare.
-/

namespace Courier

/-- A JSON value. The members of an object are sorted by key, unless the object stands for a record
with fields of its own order. -/
inductive Json
  | null
  | bool (b : Bool)
  | number (n : Number)
  | string (s : String)
  | array (items : List Json)
  | object (members : List (String × Json))

namespace Json

def int (n : Int) : Json := .number (.int n)

/-- A double; one that is not finite has no JSON number and becomes null. -/
def float (x : Float) : Json :=
  if x.isFinite then .number (.float x) else .null

/-- Sorted members with one more; a later member of the same key wins. -/
def insertMember {α : Type} (key : String) (value : α) : List (String × α) → List (String × α)
  | [] => [(key, value)]
  | (k, v) :: rest =>
    if key < k then (key, value) :: (k, v) :: rest
    else if key = k then (key, value) :: rest
    else (k, v) :: insertMember key value rest

/-- Members sorted by key, the last of each key. -/
def sortMembers {α : Type} (members : List (String × α)) : List (String × α) :=
  members.foldl (fun sorted (k, v) => insertMember k v sorted) []

def ofMembers (members : List (String × Json)) : Json := .object (sortMembers members)

def get? (key : String) : Json → Option Json
  | .object members => members.lookup key
  | _ => none

def int? : Json → Option Int
  | .number (.int n) => some n
  | _ => none

def float? : Json → Option Float
  | .number n => some n.toFloat
  | _ => none

def string? : Json → Option String
  | .string s => some s
  | _ => none

def items? : Json → Option (List Json)
  | .array items => some items
  | _ => none

def depthLimit : Nat := 127

mutual

/-- The value of a tree that nests at most `depth` deep. Numbers have to be in range and the halves
of a character to pair up. -/
def ofSource? (depth : Nat) : Source → Option Json
  | .null => some .null
  | .bool b => some (.bool b)
  | .number l => l.number?.map .number
  | .string ps => (text? ps).map .string
  | .array items =>
    match depth with
    | 0 => none
    | depth + 1 => (ofItems? depth [] items).map .array
  | .object members =>
    match depth with
    | 0 => none
    | depth + 1 => (ofMembers? depth [] members).map .object

def ofItems? (depth : Nat) (done : List Json) : List Source → Option (List Json)
  | [] => some done.reverse
  | s :: rest =>
    match ofSource? depth s with
    | none => none
    | some v => ofItems? depth (v :: done) rest

def ofMembers? (depth : Nat) (done : List (String × Json)) :
    List (List Piece × Source) → Option (List (String × Json))
  | [] => some done
  | (k, s) :: rest =>
    match text? k, ofSource? depth s with
    | some k, some v => ofMembers? depth (insertMember k v done) rest
    | _, _ => none

end

def ofText? (s : String) : Option Json := (Source.ofText? s).bind (ofSource? depthLimit)

def shortEscape? (c : Char) : Option Char :=
  if c = '"' ∨ c = '\\' then some c
  else if c = '\x08' then some 'b'
  else if c = '\x0c' then some 'f'
  else if c = '\n' then some 'n'
  else if c = '\r' then some 'r'
  else if c = '\t' then some 't'
  else none

def escape (c : Char) : List Char :=
  match shortEscape? c with
  | some e => ['\\', e]
  | none =>
    if c.toNat < 0x20 then
      ['\\', 'u', '0', '0', Text.hexDigit (c.toNat / 16), Text.hexDigit (c.toNat % 16)]
    else [c]

def append (out : String) (cs : List Char) : String := cs.foldl String.push out

def writeString (out s : String) : String :=
  (s.toList.foldl (fun out c => append out (escape c)) (out.push '"')).push '"'

def numberText : Number → List Char
  | .int n => Text.integer n
  | .float x => (Decimal.float? .inMessages x).getD ['n', 'u', 'l', 'l']

mutual

def write (out : String) : Json → String
  | .null => out ++ "null"
  | .bool b => out ++ if b then "true" else "false"
  | .number n => append out (numberText n)
  | .string s => writeString out s
  | .array [] => out ++ "[]"
  | .array (v :: vs) => (writeItems (write (out.push '[') v) vs).push ']'
  | .object [] => out ++ "\x7b\x7d"
  | .object ((k, v) :: ms) =>
    (writeMembers (write ((writeString (out.push '\x7b') k).push ':') v) ms).push '\x7d'

def writeItems (out : String) : List Json → String
  | [] => out
  | v :: vs => writeItems (write (out.push ',') v) vs

def writeMembers (out : String) : List (String × Json) → String
  | [] => out
  | (k, v) :: ms => writeMembers (write ((writeString (out.push ',') k).push ':') v) ms

end

def text (v : Json) : String := write "" v

end Json

end Courier
