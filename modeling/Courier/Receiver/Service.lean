import Courier.Json.Value
import Courier.Receiver.Route
import Courier.Telemetry
import Courier.Url.Encoding
import Courier.Webhook.Request

/-!
# The receiver

A small server that takes webhooks on one path and logs them. A body has to be a JSON object, and
not too long. Beside it, unless that very path is taken, `/health` tells that the server is up.
-/

namespace Courier.Receiver

structure Request where
  method : String
  path : String
  headers : List (String × List UInt8)
  body : List UInt8
  deriving DecidableEq, Repr

structure Response where
  status : Nat
  /-- The methods that the path takes, where the method is not one of them. -/
  allow : Option String
  body : String
  deriving DecidableEq, Repr

/-- The text of a header value: tabs and printable ASCII only. -/
def headerText? (bs : List UInt8) : Option String :=
  if bs.all fun b => (32 ≤ b && b < 127) || b == 9 then
    some (String.ofList (bs.map Url.asciiChar))
  else none

/-- What is logged of a header: the first of its name, a dash if there is none or it is no text. -/
def headerField (r : Request) (name : String) : FieldValue :=
  .text (((r.headers.find? fun h => h.1.toLower = name.toLower).bind fun h => headerText? h.2).getD "-")

def bodyLimit : Nat := 2097152

def receive (r : Request) : Response × List Report :=
  if bodyLimit < r.body.length then
    (⟨413, none, "Failed to buffer the request body: length limit exceeded"⟩, [])
  else
    match (Url.ofUtf8? r.body).bind Json.ofText? with
    | some (.object ms) =>
      (⟨200, none, "OK"⟩, [.line .info "Received webhook"
        [("event_type", headerField r Webhook.eventTypeHeader),
         ("idempotency_key", headerField r Webhook.idempotencyKeyHeader),
         ("signature", headerField r Webhook.signatureHeader),
         ("payload", .text (Json.object ms).text)]])
    | _ => (⟨400, none, "Invalid JSON"⟩, [.line .warn "Invalid JSON" []])

def healthPath : String := "/health"

def health (r : Request) : Response :=
  if r.method = "GET" then ⟨200, none, "OK"⟩
  else if r.method = "HEAD" then ⟨200, none, ""⟩
  else ⟨405, some "GET,HEAD", ""⟩

/-- The answer of a receiver that listens on a path, and what it reports; nothing if no receiver can
listen there. -/
def serve? (path : String) (r : Request) : Option (Response × List Report) :=
  (Route.ofText? path).map fun route =>
    if r.path = healthPath && path != healthPath then (health r, [])
    else if route.accepts r.path.toList then
      if r.method = "POST" then receive r else (⟨405, some "POST", ""⟩, [])
    else (⟨404, none, ""⟩, [])

/-- The path that a request target names: behind scheme and authority, before the query. -/
def pathOf (target : String) : String :=
  let cs := target.toList.takeWhile fun c => c != '?' && c != '#'
  if cs.head? = some '/' then String.ofList cs
  else
    match cs.dropWhile (· != ':') with
    | ':' :: '/' :: '/' :: rest =>
      let path := rest.dropWhile (· != '/')
      if path.isEmpty then "/" else String.ofList path
    | _ => if cs = ['*'] then "*" else ""

end Courier.Receiver
