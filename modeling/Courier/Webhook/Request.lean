import Courier.Telemetry

/-!
# Webhook requests

What is posted to a receiver, and how that may fail.
-/

namespace Courier.Webhook

/-- An event on its way to a receiver. The key tells repeated deliveries of a check apart; the body
is sent as it is. -/
structure Request where
  eventType : String
  idempotencyKey : String
  body : String
  deriving DecidableEq, Repr

def eventTypeHeader : String := "X-Event-Type"

def idempotencyKeyHeader : String := "Idempotency-Key"

def signatureHeader : String := "X-Signature-256"

/-- Why a receiver did not take a request: it answered with another status than a success, or there
was no answer. -/
inductive SendError
  | status (code : Nat)
  | transport (text : String)
  deriving DecidableEq, Repr

namespace SendError

def message : SendError → String
  | status code => "webhook non-2xx: " ++ toString code
  | transport text => "webhook transport error: " ++ text

def reason : SendError → FailureReason
  | status _ => .refused
  | transport _ => .unreachable

end SendError

def IsSuccess (code : Nat) : Prop := 200 ≤ code ∧ code ≤ 299

instance (code : Nat) : Decidable (IsSuccess code) := inferInstanceAs (Decidable (_ ∧ _))

end Courier.Webhook
