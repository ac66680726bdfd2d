import Courier.Stream.Message
import Courier.Time.Instant

/-!
# A consumer group in memory

A stream with one group of consumers: messages are appended, handed out once, and wait until they
are acknowledged. One that waits too long is handed out again.
-/

namespace Courier.Stream

/-- A message that was handed out and not yet acknowledged, and when it was handed out last. -/
structure Waiting where
  entry : String
  since : Instant
  deriving DecidableEq, Repr

/-- A stream and its group: all messages, how many were handed out, and those that wait, in the
order of the stream. -/
structure Group where
  entries : List Delivery
  handedOut : Nat
  waiting : List Waiting
  deriving DecidableEq, Repr

namespace Group

def empty : Group := ⟨[], 0, []⟩

def nextId (g : Group) : String := toString (g.entries.length + 1) ++ "-0"

def append (g : Group) (fields : List (String × String)) : Group × String :=
  let id := g.nextId
  ({ g with entries := g.entries ++ [.ofFields id fields] }, id)

def publish (g : Group) (batch : List Message) : Group :=
  batch.foldl (fun g m => (g.append m.fields).1) g

def read (g : Group) (count : Nat) (now : Instant) : Group × List Delivery :=
  let batch := (g.entries.drop g.handedOut).take count
  ({ g with
      handedOut := g.handedOut + batch.length
      waiting := g.waiting ++ batch.map fun d => ⟨d.id, now⟩ }, batch)

def overdue (minIdle : Span) (now : Instant) (w : Waiting) : Bool :=
  decide ((minIdle.nanos : Int) ≤ now.since w.since)

def overdueIds (g : Group) (minIdle : Span) (count : Nat) (now : Instant) : List String :=
  ((g.waiting.filter (overdue minIdle now)).take count).map (·.entry)

def reclaim (g : Group) (minIdle : Span) (count : Nat) (now : Instant) : Group × List Delivery :=
  let ids := g.overdueIds minIdle count now
  ({ g with
      waiting := g.waiting.map fun w => if ids.contains w.entry then ⟨w.entry, now⟩ else w },
    g.entries.filter fun d => ids.contains d.id)

def acknowledge (g : Group) (id : String) : Group :=
  { g with waiting := g.waiting.filter (·.entry != id) }

end Group

end Courier.Stream
