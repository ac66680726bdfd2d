import Courier.Text.Integer
import Courier.Time.Instant

/-!
# Delivery markers

A marker under a key says that an outbox event is being delivered or was delivered; it lapses after
a while. Whoever sets a marker where none lives has the right to deliver.
-/

namespace Courier

inductive Marker
  | inFlight
  | delivered
  deriving DecidableEq, Repr

namespace Marker

def text : Marker → String
  | inFlight => "in_flight"
  | delivered => "delivered"

/-- The marker that a text in the store stands for. Unknown texts count as delivered: rather none
than two deliveries. -/
def ofText (s : String) : Marker := if s = "in_flight" then .inFlight else .delivered

def key (outboxId : Int) : String :=
  "webhook:dispatch:" ++ String.ofList (Text.integer outboxId)

@[simp] theorem ofText_text (m : Marker) : ofText m.text = m := by cases m <;> rfl

inductive StoreError
  | unavailable (text : String)
  deriving DecidableEq, Repr

def StoreError.message : StoreError → String
  | unavailable text => "Dedupe store error: " ++ text

structure Entry where
  text : String
  expiry : Instant
  deriving DecidableEq, Repr

/-- The store: the last marker set under each key. -/
structure Store where
  entries : List (String × Entry)
  deriving DecidableEq, Repr

namespace Store

def empty : Store := ⟨[]⟩

/-- A marker lives until just before it lapses. -/
def live? (s : Store) (key : String) (now : Instant) : Option Entry :=
  (s.entries.lookup key).filter fun e => decide (now < e.expiry)

def set (s : Store) (key text : String) (ttl : Span) (now : Instant) : Store :=
  ⟨(key, ⟨text, now.shift ttl.nanos⟩) :: s.entries.filter (·.1 != key)⟩

/-- Asks for the right to deliver: the marker that lives under the key, or none after setting one
that says that delivery is under way. -/
def tryBegin (s : Store) (key : String) (ttl : Span) (now : Instant) : Store × Option Marker :=
  match s.live? key now with
  | some e => (s, some (ofText e.text))
  | none => (s.set key Marker.inFlight.text ttl now, none)

def markDelivered (s : Store) (key : String) (ttl : Span) (now : Instant) : Store :=
  s.set key Marker.delivered.text ttl now

def living (s : Store) (now : Instant) : List (String × Entry) :=
  s.entries.filter fun (_, e) => decide (now < e.expiry)

end Store

end Marker

end Courier
