import Courier.Outbox.Retry
import Courier.Storage.Session

/-!
# The outbox in the database

Statements on the outbox, and the two transactions that relays run: claiming a batch, and writing
back what became of it.
-/

namespace Courier.Storage

open Courier.Outbox

/-- The longest lease that a time can be moved by: the milliseconds of a signed word of 64 bits. -/
def longestLease : Span := .ofMillis 9223372036854775807

/-- The end of a lease. A lease that is too long is refused; an end beyond the calendar is beyond
recovery. -/
def leaseEnd (lease : Span) (now : Instant) : Except (Stop StorageError) Instant :=
  if longestLease < lease then
    .error (.error (.invalidArgument ("duration " ++ lease.text ++
      ": Source duration value is out of range for the target type")))
  else
    match now.add? lease.nanos with
    | some t => .ok t
    | none => .error .crash

def largestLimit : Nat := 9223372036854775807

namespace Sql

def outbox : Sql StorageError Outbox.Table := do return (← get).tables.outbox

def setOutbox (t : Outbox.Table) : Sql StorageError Unit :=
  modify fun s => { s with tables := { s.tables with outbox := t } }

/-- Rows that a query answers with: one that cannot be read fails it. -/
def read (rows : List Row) : Sql StorageError Unit :=
  if rows.all fun r => decide r.Sound then pure () else fail (.database "unreadable row")

/-- Stores an event; the result is its id. Whether the payload can be read back is not asked. -/
def enqueue (e : NewEvent) (now : Instant) : Sql StorageError Int := do
  statement
  let (t, id) := (← outbox).insert e.eventType (.ofJson e.payload) e.notBefore now
  setOutbox t
  return id

/-- Claims at most `limit` events that are due. Their attempts are counted in the column, and once
more for the answer. Where the count leaves 32 bits a column of that width refuses the update; if the
column is wider the answer is beyond recovery, and the update is lost with its transaction. -/
def claim (limit : Nat) (lease : Span) (now : Instant) : Sql StorageError (List Claim) := do
  let leaseEnd ← liftExcept (leaseEnd lease now)
  if largestLimit < limit then throw .crash
  statement
  let batch := (← outbox).due limit now
  read batch
  if batch.isEmpty then return []
  statement
  match batch.mapM Row.claim? with
  | none => throw .crash
  | some claims =>
    setOutbox ((← outbox).lease (batch.map (·.id)) leaseEnd now)
    return claims
where
  /-- A result as work on the database. -/
  liftExcept {α : Type} (r : Except (Stop StorageError) α) : Sql StorageError α := fun s => (r, s)

def markDispatched (batch : List (Int × Int)) (now : Instant) : Sql StorageError Nat := do
  if batch.isEmpty then return 0
  statement
  let (t, n) := (← outbox).markDispatched batch now
  setOutbox t
  return n

/-- Acts on a decision; the result is whether its claim was live. -/
def settle (d : Decision) (lastError : String) (now : Instant) : Sql StorageError Bool := do
  statement
  let (t, applied) := (← outbox).settle d lastError now
  setOutbox t
  return applied

/-- The event of an id. A row whose status is unknown is an error. -/
def find (id : Int) : Sql StorageError (Option Event) := do
  statement
  match (← outbox).find? id with
  | none => return none
  | some row =>
    read [row]
    match row.event? with
    | some e => return some e
    | none => fail (.corrupted row.id (Status.unknownText row.status))

def count (s : Status) : Sql StorageError Nat := do
  statement
  return (← outbox).count s

/-- Acts on a decision and says so when its claim is no longer live. -/
def settleOrReport (d : Decision) (lastError : String) (now : Instant) :
    Sql StorageError Unit := do
  if ← settle d lastError now then return
  let finished := (← find d.id).any (·.status.isTerminal)
  let id : String × FieldValue := ("id", .number d.id)
  if finished then report (.line .warn "Event already finished by another relay" [id])
  else report (.line .debug "Skipped update for reclaimed event" [id])

def writeBack (o : Outcome) (now : Instant) : Sql StorageError Unit := do
  match o with
  | .dispatched batch =>
    let updated ← markDispatched (batch.map fun c => (c.id, c.attempts)) now
    if updated < batch.length then
      report (.line .warn "Some dispatched events lost their lease"
        [("expected", .number batch.length), ("updated", .number updated)])
  | .failed decisions lastError =>
    decisions.forM fun d => settleOrReport d lastError now

def claimBatch (limit : Nat) (lease : Span) (now : Instant) : Sql StorageError (List Claim) :=
  transaction id (claim limit lease now)

def reconcile (o : Outcome) (now : Instant) : Sql StorageError Unit :=
  transaction id (writeBack o now)

end Sql

end Courier.Storage
