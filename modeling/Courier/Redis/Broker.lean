import Courier.Redis.Connection
import Courier.Telemetry
import Courier.Time.Span

/-!
# A stream on a Redis server

The stream and its consumer group as commands to the server, and how the replies are read. A batch
is published as one transaction. What waits too long is looked for from the beginning of the list of
waiting messages.
-/

namespace Courier.Redis.Broker

open Courier.Stream (Message Delivery)

structure Names where
  stream : String
  group : String
  deriving DecidableEq, Repr

def decimal (n : Nat) : String := String.ofList (Text.digits n)

/-! ### Publishing -/

def append (stream : String) (m : Message) : List String :=
  ["XADD", stream, "*"] ++ m.fields.flatMap fun (k, v) => [k, v]

/-- A transaction was done: every reply in it is a success. An error inside it has no code. -/
def done? : Reply → Option Unit
  | .nothing => some ()
  | .list items => if items.any Reply.isFailure then none else some ()
  | _ => none

/-- Ends a transaction. A refusal at its end has no code either. -/
def commit : Talk (Except Error Unit) := do
  match ← commandAs done? ["EXEC"] with
  | .error (.refused _) => return .error .unexpected
  | r => return r

/-- Publishes a batch as one transaction; nothing is sent for an empty batch. -/
def publish (n : Names) (batch : List Message) : Talk (Except Error (List Report)) := do
  if batch.isEmpty then return .ok []
  match ← commands (["MULTI"] :: batch.map (append n.stream)) with
  | .error e => return .error e
  | .ok _ =>
    match ← commit with
    | .error e => return .error e
    | .ok _ =>
      return .ok [.line .debug "Published batch to stream"
        [("stream", .text n.stream), ("count", .number batch.length)]]

/-! ### The group -/

/-- Sees to it that the group exists. That it exists already is no error. -/
def ensureGroup (n : Names) : Talk (Except Error Unit) := do
  match ← command ["XGROUP", "CREATE", n.stream, n.group, "0", "MKSTREAM"] with
  | .ok _ => return .ok ()
  | .error e => return if e.code? = some "BUSYGROUP" then .ok () else .error e

/-! ### Entries -/

/-- A field of an entry: its name, and its value unless that is no text. -/
abbrev Field := String × Option String

structure Entry where
  id : String
  fields : List Field
  deriving DecidableEq, Repr

def fields? : List Reply → Option (List Field)
  | [] => some []
  | [_] => none
  | name :: value :: rest =>
    match name.text?, fields? rest with
    | some k, some fs => some ((k, value.text?) :: fs)
    | _, _ => none

/-- The fields of an entry; an entry that was deleted has none. -/
def body? : Reply → Option (List Field)
  | .nothing => some []
  | .list items => fields? items
  | _ => none

def entry? : Reply → Option Entry
  | .list [id, body] =>
    match id.text?, body? body with
    | some id, some fields => some ⟨id, fields⟩
    | _, _ => none
  | _ => none

/-- Fields with the last value of each name, in the order of the names. -/
def lastOfEach (fs : List Field) : List Field := Json.sortMembers fs

/-- The delivery of an entry. Fields without a text are left out. -/
def Entry.delivery (e : Entry) : Delivery :=
  ⟨e.id, (lastOfEach e.fields).filterMap fun (k, v) => v.map (k, ·)⟩

def Entry.warnings (e : Entry) : List Report :=
  (lastOfEach e.fields).filterMap fun (k, v) =>
    if v.isSome then none
    else some (.line .warn "Non-string stream field"
      [("message_id", .text e.id), ("field", .text k)])

abbrev Fetched := List Delivery × List Report

def fetched (es : List Entry) : Fetched := (es.map Entry.delivery, es.flatMap Entry.warnings)

/-! ### Fetching -/

def streamEntries? : Reply → Option (List Entry)
  | .list [_, .list items] => items.mapM entry?
  | .list [_, .nothing] => some []
  | _ => none

/-- The entries in a reply to a read: none, or some for each stream. -/
def readEntries? : Reply → Option (List Entry)
  | .nothing => some []
  | .list streams => (streams.mapM streamEntries?).map List.flatten
  | _ => none

def read (n : Names) (consumer : String) (count : Nat) (block : Span) :
    Talk (Except Error Fetched) := do
  match ← commandAs readEntries?
      ["XREADGROUP", "GROUP", n.group, consumer, "BLOCK", decimal block.millis, "COUNT",
       decimal count, "STREAMS", n.stream, ">"] with
  | .error e => return .error e
  | .ok es => return .ok (fetched es)

def isPresent : Reply → Bool
  | .nothing => false
  | _ => true

/-- The entries in a reply to a claim: behind where the search stopped, and before those that are
deleted. -/
def claimedEntries? : Reply → Option (List Entry)
  | .list (cursor :: .list items :: _) =>
    if cursor.text?.isSome then (items.filter isPresent).mapM entry? else none
  | _ => none

def reclaim (n : Names) (consumer : String) (minIdle : Span) (count : Nat) :
    Talk (Except Error Fetched) := do
  match ← commandAs claimedEntries?
      ["XAUTOCLAIM", n.stream, n.group, consumer, decimal minIdle.millis, "0-0", "COUNT",
       decimal count] with
  | .error e => return .error e
  | .ok es => return .ok (fetched es)

def acknowledge (n : Names) (id : String) : Talk (Except Error Unit) := do
  match ← commandAs Reply.number? ["XACK", n.stream, n.group, id] with
  | .error e => return .error e
  | .ok _ => return .ok ()

end Courier.Redis.Broker
