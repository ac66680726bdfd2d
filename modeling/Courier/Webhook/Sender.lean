import Courier.Dialogue
import Courier.Digest.Sha256
import Courier.Url.Reference
import Courier.Webhook.Request

/-!
# The sender

Posts requests to a receiver and signs the body if there is a secret. A receiver may send the sender
elsewhere: the request is repeated there, or, for the older kinds of redirect, replaced by a plain
request for the other page. Only the status of the last answer counts.
-/

namespace Courier.Webhook

inductive Method
  | post
  | get
  deriving DecidableEq, Repr

structure Parcel where
  method : Method
  url : Url
  headers : List (String × String)
  body : Option String
  deriving DecidableEq, Repr

/-- The answer of a server: its status, and where it points to. -/
structure Answer where
  status : Nat
  location : Option String
  deriving DecidableEq, Repr

def network : Interface := ⟨Parcel, fun _ => Except String Answer⟩

abbrev Talk (α : Type) := Dialogue network α

structure Target where
  url : String
  secret : Option String
  deriving DecidableEq, Repr

def contentTypeHeader : String := "Content-Type"

/-- A header can hold tabs, printable ASCII and anything beyond ASCII. -/
def isHeaderText (s : String) : Bool :=
  s.toList.all fun c => c == '\t' || (32 ≤ c.toNat && c.toNat != 127)

def signature? (secret : Option String) (body : String) : Option String :=
  (secret.filter (!·.isEmpty)).map fun key =>
    "sha256=" ++ Text.hexBytes (Digest.Sha256.signature (Url.utf8 key) (Url.utf8 body))

def headers (t : Target) (r : Request) : List (String × String) :=
  [(contentTypeHeader, "application/json"), (eventTypeHeader, r.eventType),
   (idempotencyKeyHeader, r.idempotencyKey)] ++
    match signature? t.secret r.body with
    | some s => [(signatureHeader, s)]
    | none => []

def isWeb (url : Url) : Bool := url.scheme == "http" || url.scheme == "https"

/-- The parcel of a request; nothing if the receiver cannot be addressed or a header cannot be
written. -/
def parcel? (t : Target) (r : Request) : Option Parcel :=
  match Url.ofText t.url with
  | .error _ => none
  | .ok url =>
    if isWeb url && (headers t r).all (isHeaderText ·.2) then
      some ⟨.post, url, headers t r, some r.body⟩
    else none

def repeats (status : Nat) : Bool := status == 307 || status == 308

def replaces (status : Nat) : Bool := status == 301 || status == 302 || status == 303

def asPlain (p : Parcel) (url : Url) : Parcel :=
  { method := .get, url, body := none
    headers := p.headers.filter (·.1 != contentTypeHeader) }

def redirected? (p : Parcel) (a : Answer) : Option Parcel :=
  if repeats a.status || replaces a.status then
    a.location.bind fun l =>
      match p.url.resolve l with
      | .error _ => none
      | .ok url => some (if repeats a.status then { p with url } else asPlain p url)
  else none

def redirectLimit : Nat := 10

def deliver : Nat → Parcel → Talk (Except SendError Nat)
  | limit, p => .ask p fun
    | .error text => .done (.error (.transport text))
    | .ok a =>
      match redirected? p a with
      | none =>
        .done (if IsSuccess a.status then .ok a.status else .error (.status a.status))
      | some next =>
        match limit with
        | 0 => .done (.error (.transport "too many redirects"))
        | limit + 1 =>
          if isWeb next.url then deliver limit next
          else .done (.error (.transport "unusable redirect"))

def send (t : Target) (r : Request) : Talk (Except SendError Nat) :=
  match parcel? t r with
  | none => .done (.error (.transport "unusable request"))
  | some p => deliver redirectLimit p

end Courier.Webhook
