import Courier.Outbox.Event

/-!
# The outbox table

The rows of the outbox in ascending order of ids, and the five ways to change them. Every write-back
is fenced: it touches a row only while the row is being processed under the very claim that the
write-back belongs to.
-/

namespace Courier.Outbox

namespace Row

/-- May the row be claimed? It waits and its time has come, or its lease has run out. -/
def Due (now : Instant) (r : Row) : Prop :=
  (r.status = Status.pending.text ∧ r.nextAttemptAt ≤ now) ∨
    (r.status = Status.processing.text ∧ ∃ t, r.processingUntil = some t ∧ t ≤ now)

def leaseEnded (now : Instant) (r : Row) : Bool :=
  match r.processingUntil with
  | some t => decide (t ≤ now)
  | none => false

def isDue (now : Instant) (r : Row) : Bool :=
  (r.status == Status.pending.text && decide (r.nextAttemptAt ≤ now)) ||
    (r.status == Status.processing.text && r.leaseEnded now)

theorem isDue_iff (now : Instant) (r : Row) : r.isDue now = true ↔ r.Due now := by
  unfold isDue Due leaseEnded
  cases r.processingUntil <;> simp

instance (now : Instant) (r : Row) : Decidable (r.Due now) :=
  decidable_of_iff _ (isDue_iff now r)

/-- The row is being processed under the claim `(id, attempts)`. -/
def Live (id attempts : Int) (r : Row) : Prop :=
  r.id = id ∧ r.status = Status.processing.text ∧ r.attempts = attempts

instance (id attempts : Int) (r : Row) : Decidable (r.Live id attempts) :=
  inferInstanceAs (Decidable (_ ∧ _ ∧ _))

def claimed (leaseEnd now : Instant) (r : Row) : Row :=
  { r with
    status := Status.processing.text
    attempts := r.attempts + 1
    processingUntil := some leaseEnd
    updatedAt := now }

def dispatched (now : Instant) (r : Row) : Row :=
  { r with
    status := Status.dispatched.text
    processingUntil := none
    lastError := none
    updatedAt := now }

def retried (nextAttemptAt : Instant) (lastError : String) (now : Instant) (r : Row) : Row :=
  { r with
    status := Status.pending.text
    nextAttemptAt
    processingUntil := none
    lastError := some lastError
    updatedAt := now }

def buried (lastError : String) (now : Instant) (r : Row) : Row :=
  { r with
    status := Status.dead.text
    processingUntil := none
    lastError := some lastError
    updatedAt := now }

def claim (r : Row) : Claim := ⟨r.id, r.eventType, r.payload.value, r.attempts + 1⟩

end Row

/-- The outbox: its rows by ascending id, and the highest id ever given. -/
structure Table where
  rows : List Row
  lastId : Int

namespace Table

def empty : Table := ⟨[], 0⟩

def find? (t : Table) (id : Int) : Option Row := t.rows.find? fun r => r.id == id

def count (t : Table) (s : Status) : Nat := t.rows.countP fun r => r.status == s.text

/-- One more event, waiting under an id never given before. -/
def insert (t : Table) (eventType : String) (payload : Document) (notBefore now : Instant) :
    Table × Int :=
  let id := t.lastId + 1
  let row : Row :=
    { id, eventType, payload, status := Status.pending.text, attempts := 0,
      nextAttemptAt := notBefore, processingUntil := none, lastError := none,
      createdAt := now, updatedAt := now }
  (⟨t.rows ++ [row], id⟩, id)

def due (t : Table) (limit : Nat) (now : Instant) : List Row :=
  (t.rows.filter (·.isDue now)).take limit

def lease (t : Table) (ids : List Int) (leaseEnd now : Instant) : Table :=
  { t with rows := t.rows.map fun r => if ids.contains r.id then r.claimed leaseEnd now else r }

def claim (t : Table) (limit : Nat) (leaseEnd now : Instant) : Table × List Claim :=
  let batch := t.due limit now
  (t.lease (batch.map (·.id)) leaseEnd now, batch.map Row.claim)

def updateWhere (t : Table) (test : Row → Bool) (change : Row → Row) : Table × Nat :=
  ({ t with rows := t.rows.map fun r => if test r then change r else r }, t.rows.countP test)

def liveIn (batch : List (Int × Int)) (r : Row) : Bool :=
  batch.any fun (id, attempts) => decide (r.Live id attempts)

def markDispatched (t : Table) (batch : List (Int × Int)) (now : Instant) : Table × Nat :=
  t.updateWhere (liveIn batch) (Row.dispatched now)

def markRetry (t : Table) (id attempts : Int) (nextAttemptAt : Instant) (lastError : String)
    (now : Instant) : Table × Bool :=
  let (t, n) := t.updateWhere (fun r => decide (r.Live id attempts))
    (Row.retried nextAttemptAt lastError now)
  (t, n == 1)

def markDead (t : Table) (id attempts : Int) (lastError : String) (now : Instant) :
    Table × Bool :=
  let (t, n) := t.updateWhere (fun r => decide (r.Live id attempts)) (Row.buried lastError now)
  (t, n == 1)

def settle (t : Table) (d : Decision) (lastError : String) (now : Instant) : Table × Bool :=
  match d with
  | .retry id attempts nextAttemptAt => t.markRetry id attempts nextAttemptAt lastError now
  | .dead id attempts => t.markDead id attempts lastError now

end Table

end Courier.Outbox
