import Courier.Json.Value

/-!
# Stream messages

A message on the stream and the delivery that a consumer gets: a number of named fields, of which
three carry the message. Fields are kept in the order of their names, no name twice.
-/

namespace Courier.Stream

/-- A message: the type and the text of an event, and the outbox event it comes from. -/
structure Message where
  eventType : String
  body : String
  outboxId : Int
  deriving DecidableEq, Repr

/-- What a consumer gets. The id stays the same over redeliveries. -/
structure Delivery where
  id : String
  fields : List (String × String)
  deriving DecidableEq, Repr

inductive DecodeError
  | missingField (name : String)
  | invalidOutboxId (text : String)
  deriving DecidableEq, Repr

def DecodeError.message : DecodeError → String
  | missingField name => "missing field '" ++ name ++ "'"
  | invalidOutboxId text => "invalid outbox_id '" ++ text ++ "'"

namespace Message

def typeField : String := "type"

def bodyField : String := "body"

def outboxIdField : String := "outbox_id"

def fields (m : Message) : List (String × String) :=
  [(typeField, m.eventType), (bodyField, m.body),
   (outboxIdField, String.ofList (Text.integer m.outboxId))]

end Message

namespace Delivery

/-- A delivery of the given fields; of equal names the last counts. -/
def ofFields (id : String) (fields : List (String × String)) : Delivery :=
  ⟨id, Json.sortMembers fields⟩

def ofMessage (id : String) (m : Message) : Delivery := ofFields id m.fields

def field (d : Delivery) (name : String) : Except DecodeError String :=
  match d.fields.lookup name with
  | some v => .ok v
  | none => .error (.missingField name)

def outboxId (d : Delivery) : Except DecodeError Int := do
  let text ← d.field Message.outboxIdField
  match Text.word? text with
  | some n => .ok n
  | none => .error (.invalidOutboxId text)

def message (d : Delivery) : Except DecodeError Message := do
  let outboxId ← d.outboxId
  let eventType ← d.field Message.typeField
  let body ← d.field Message.bodyField
  return ⟨eventType, body, outboxId⟩

end Delivery

inductive BrokerError
  | server (code : Option String) (text : String)
  | unavailable (text : String)
  deriving DecidableEq, Repr

def BrokerError.message : BrokerError → String
  | server _ text => "Redis error: " ++ text
  | unavailable text => "Broker unavailable: " ++ text

end Courier.Stream
