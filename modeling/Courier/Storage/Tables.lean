import Courier.Check.Command
import Courier.Outbox.Table

/-!
# The database

Three tables: location checks, the incidents that each check met, and the outbox.
-/

namespace Courier.Storage

open Courier.Check (Point)

structure CheckRow where
  id : Int
  userId : String
  point : Point
  createdAt : Instant

structure Link where
  checkId : Int
  incidentId : Int
  deriving DecidableEq, Repr

/-- The checks with their links, and the highest id ever given to a check. -/
structure Checks where
  rows : List CheckRow
  lastId : Int
  links : List Link

structure Tables where
  checks : Checks
  outbox : Outbox.Table

def Tables.empty : Tables := ⟨⟨[], 0, []⟩, .empty⟩

/-- A number as the database keeps it: zero has no sign, and what is no number is not kept. -/
def storedFloat? (x : Float) : Option Float :=
  if x.isNaN then none else if x == 0.0 then some 0.0 else some x

def storedPoint? (p : Point) : Option Point :=
  match storedFloat? p.lat, storedFloat? p.lon with
  | some lat, some lon => some ⟨lat, lon⟩
  | _, _ => none

namespace Checks

/-- One more check under an id never given before; nothing when the point cannot be kept. -/
def insert? (c : Checks) (userId : String) (point : Point) (now : Instant) :
    Option (Checks × Int) :=
  (storedPoint? point).map fun point =>
    let id := c.lastId + 1
    ({ c with rows := c.rows ++ [⟨id, userId, point, now⟩], lastId := id }, id)

def link (c : Checks) (checkId : Int) (incidentIds : List Int) : Checks :=
  { c with links := c.links ++ incidentIds.map (⟨checkId, ·⟩) }

def incidentsOf (c : Checks) (checkId : Int) : List Int :=
  (c.links.filter (·.checkId == checkId)).map (·.incidentId)

def delete (c : Checks) (checkId : Int) : Checks :=
  { c with
    rows := c.rows.filter (·.id != checkId)
    links := c.links.filter (·.checkId != checkId) }

end Checks

/-- A number put into an ascending list that does not hold it yet. -/
def insertSorted (n : Int) : List Int → List Int
  | [] => [n]
  | m :: ms =>
    if n < m then n :: m :: ms
    else if n = m then m :: ms
    else m :: insertSorted n ms

/-- The numbers of a list, each once, in ascending order. -/
def distinct (ns : List Int) : List Int := ns.foldl (fun sorted n => insertSorted n sorted) []

theorem mem_insertSorted {n m : Int} {ms : List Int} :
    m ∈ insertSorted n ms ↔ m = n ∨ m ∈ ms := by
  induction ms with
  | nil => simp [insertSorted]
  | cons k ks ih =>
    unfold insertSorted
    split
    · simp
    · split
      · rename_i h; subst h; simp
      · simp only [List.mem_cons, ih]; grind

theorem mem_foldl_insertSorted {m : Int} {ns acc : List Int} :
    m ∈ ns.foldl (fun sorted n => insertSorted n sorted) acc ↔ m ∈ ns ∨ m ∈ acc := by
  induction ns generalizing acc with
  | nil => simp
  | cons n ns ih => simp only [List.foldl_cons, ih, mem_insertSorted, List.mem_cons]; grind

theorem mem_distinct {m : Int} {ns : List Int} : m ∈ distinct ns ↔ m ∈ ns := by
  simp [distinct, mem_foldl_insertSorted]

end Courier.Storage
