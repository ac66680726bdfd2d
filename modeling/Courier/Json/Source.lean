import Courier.Json.Token

/-!
# JSON texts as trees

The tree of a text before anything in it is given a meaning: numbers and strings stay as they are
spelled, members keep their order and their repetitions, and nesting is not bounded. A reader with
an explicit stack takes the tokens one by one, so that a text of any depth costs no recursion.
-/

namespace Courier.Json

inductive Source
  | null
  | bool (b : Bool)
  | number (l : Decimal.Literal)
  | string (pieces : List Piece)
  | array (items : List Source)
  | object (members : List (List Piece × Source))

/-- A container being read; what it holds so far is kept with the last first. -/
inductive Frame
  | array (items : List Source)
  | object (members : List (List Piece × Source)) (key : List Piece)

inductive Due
  | value
  | firstItem
  | firstKey
  | key (members : List (List Piece × Source))
  | colon (members : List (List Piece × Source)) (key : List Piece)
  | next (done : Source)

structure Reader where
  due : Due
  frames : List Frame

namespace Reader

def start : Reader := ⟨.value, []⟩

def begin? (frames : List Frame) : Token → Option Reader
  | .null => some ⟨.next .null, frames⟩
  | .bool b => some ⟨.next (.bool b), frames⟩
  | .number l => some ⟨.next (.number l), frames⟩
  | .string ps => some ⟨.next (.string ps), frames⟩
  | .openBracket => some ⟨.firstItem, frames⟩
  | .openBrace => some ⟨.firstKey, frames⟩
  | _ => none

def after? (done : Source) : List Frame → Token → Option Reader
  | .array items :: frames, .comma => some ⟨.value, .array (done :: items) :: frames⟩
  | .array items :: frames, .closeBracket =>
    some ⟨.next (.array (done :: items).reverse), frames⟩
  | .object members key :: frames, .comma => some ⟨.key ((key, done) :: members), frames⟩
  | .object members key :: frames, .closeBrace =>
    some ⟨.next (.object ((key, done) :: members).reverse), frames⟩
  | _, _ => none

/-- One token on; nothing when no text goes on like this. -/
def step (r : Reader) (t : Token) : Option Reader :=
  match r.due with
  | .value => begin? r.frames t
  | .firstItem =>
    match t with
    | .closeBracket => some ⟨.next (.array []), r.frames⟩
    | t => begin? (.array [] :: r.frames) t
  | .firstKey =>
    match t with
    | .closeBrace => some ⟨.next (.object []), r.frames⟩
    | .string key => some ⟨.colon [] key, r.frames⟩
    | _ => none
  | .key members =>
    match t with
    | .string key => some ⟨.colon members key, r.frames⟩
    | _ => none
  | .colon members key =>
    match t with
    | .colon => some ⟨.value, .object members key :: r.frames⟩
    | _ => none
  | .next done => after? done r.frames t

def finish? (r : Reader) : Option Source :=
  match r.due, r.frames with
  | .next done, [] => some done
  | _, _ => none

def run (r : Reader) (ts : List Token) : Option Reader := ts.foldlM step r

@[simp] theorem run_nil (r : Reader) : r.run [] = some r := rfl

@[simp] theorem run_cons (r : Reader) (t : Token) (ts : List Token) :
    r.run (t :: ts) = (r.step t).bind fun r => r.run ts := by
  simp [run, List.foldlM_cons, bind]

theorem run_append (r : Reader) (xs ys : List Token) :
    r.run (xs ++ ys) = (r.run xs).bind fun r => r.run ys := by
  simp [run, List.foldlM_append, bind]

end Reader

def Source.ofText? (s : String) : Option Source :=
  (tokens? s.toList).bind fun ts => (Reader.start.run ts).bind Reader.finish?

/-- Pieces turned into characters behind those turned already, which stand last first. -/
def charactersOnto? (done : List Char) : List Piece → Option (List Char)
  | [] => some done.reverse
  | .char c :: ps => charactersOnto? (c :: done) ps
  | .surrogate high :: .surrogate low :: ps =>
    if high < 0xDC00 ∧ 0xDC00 ≤ low then
      let c := Char.ofNat ((high - 0xD800) * 0x400 + (low - 0xDC00) + 0x10000)
      charactersOnto? (c :: done) ps
    else none
  | .surrogate _ :: _ => none

/-- The text of a string: the halves of a character have to stand together, the high one first. -/
def text? (pieces : List Piece) : Option String :=
  (charactersOnto? [] pieces).map String.ofList

theorem charactersOnto?_map_char (done cs : List Char) :
    charactersOnto? done (cs.map .char) = some (done.reverse ++ cs) := by
  induction cs generalizing done with
  | nil => simp [charactersOnto?]
  | cons c cs ih => simp [charactersOnto?, ih]

theorem text?_map_char (s : String) : text? (s.toList.map .char) = some s := by
  simp [text?, charactersOnto?_map_char]

end Courier.Json
