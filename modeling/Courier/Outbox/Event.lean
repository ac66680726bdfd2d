import Courier.Json.Document
import Courier.Outbox.Status
import Courier.Text.Integer
import Courier.Time.Written

/-!
# Outbox events

An event as it is handed in, as a row of the outbox, as a relay holds it, and as an operator sees
it. The number of attempts counts the claims of a row; together with the id it names one claim. A row
holds whatever its columns hold. Whoever reads it takes the payload as a JSON value and the attempts
as a signed word of 32 bits, and cannot read a row where they are something else.
-/

namespace Courier.Outbox

/-- An event to be stored. It may not be claimed before `notBefore`. -/
structure NewEvent where
  eventType : String
  payload : Json
  notBefore : Instant

structure Row where
  id : Int
  eventType : String
  payload : Document
  status : String
  attempts : Int
  nextAttemptAt : Instant
  processingUntil : Option Instant
  lastError : Option String
  createdAt : Instant
  updatedAt : Instant
  deriving BEq

/-- An event that a relay has claimed; `attempts` counts this claim. -/
structure Claim where
  id : Int
  eventType : String
  payload : Json
  attempts : Int

structure Event where
  id : Int
  eventType : String
  payload : Json
  status : Status
  attempts : Int
  nextAttemptAt : Instant
  processingUntil : Option Instant
  lastError : Option String
  createdAt : Instant
  updatedAt : Instant

namespace Row

/-- The columns of the row can be read. -/
def Sound (r : Row) : Prop := r.payload.value?.isSome ∧ Text.InHalfWord r.attempts

instance (r : Row) : Decidable r.Sound := inferInstanceAs (Decidable (_ ∧ _))

/-- The row as it is given out, with one more attempt, which has to be a signed word of 32 bits as
well. -/
def claim? (r : Row) : Option Claim :=
  if Text.InHalfWord (r.attempts + 1) then
    some ⟨r.id, r.eventType, r.payload.value, r.attempts + 1⟩
  else none

/-- The event of a row; nothing when the status is unknown. -/
def event? (r : Row) : Option Event :=
  (Status.stored? r.status).map fun status =>
    { id := r.id, eventType := r.eventType, payload := r.payload.value, status,
      attempts := r.attempts, nextAttemptAt := r.nextAttemptAt,
      processingUntil := r.processingUntil, lastError := r.lastError,
      createdAt := r.createdAt, updatedAt := r.updatedAt }

end Row

namespace Event

def timeJson : Option Instant → Json
  | some t => .string t.text
  | none => .null

def fields (e : Event) : List (String × Json) :=
  [("id", .int e.id), ("event_type", .string e.eventType), ("payload", e.payload),
   ("status", .string e.status.text), ("attempts", .int e.attempts),
   ("next_attempt_at", .string e.nextAttemptAt.text),
   ("processing_until", timeJson e.processingUntil),
   ("last_error", (e.lastError.map .string).getD .null),
   ("created_at", .string e.createdAt.text), ("updated_at", .string e.updatedAt.text)]

def text (e : Event) : String := (Json.object e.fields).text

end Event

inductive Decision
  | retry (id attempts : Int) (nextAttemptAt : Instant)
  | dead (id attempts : Int)
  deriving DecidableEq, Repr

namespace Decision

def id : Decision → Int
  | retry id .. => id
  | dead id _ => id

/-- The claim that a decision belongs to. -/
def attempts : Decision → Int
  | retry _ attempts _ => attempts
  | dead _ attempts => attempts

def isRetry : Decision → Bool
  | retry .. => true
  | dead .. => false

end Decision

/-- What has to be written back after a batch was pushed. -/
inductive Outcome
  | dispatched (batch : List Claim)
  | failed (decisions : List Decision) (lastError : String)

end Courier.Outbox
