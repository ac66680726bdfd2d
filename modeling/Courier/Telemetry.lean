/-!
# Telemetry

What the program reports about itself while it works: log lines with named fields, counters and
samples of durations.
-/

namespace Courier

inductive Level
  | debug
  | info
  | warn
  | error
  deriving DecidableEq, Repr

def Level.text : Level → String
  | .debug => "DEBUG"
  | .info => "INFO"
  | .warn => "WARN"
  | .error => "ERROR"

inductive FieldValue
  | text (s : String)
  | number (n : Int)
  deriving DecidableEq, Repr

structure LogLine where
  level : Level
  message : String
  fields : List (String × FieldValue)
  deriving DecidableEq, Repr

inductive FailureReason
  | refused
  | unreachable
  deriving DecidableEq, Repr

def FailureReason.text : FailureReason → String
  | .refused => "http_error"
  | .unreachable => "network_error"

inductive Counter
  | relayClaimed
  | relayDispatched
  | relayRetried
  | relayDead
  | deliveryAttempts
  | deliverySuccess
  | deliveryFailed (reason : FailureReason)
  | duplicateSkipped
  | poisonMessages
  deriving DecidableEq, Repr

namespace Counter

def name : Counter → String
  | relayClaimed => "outbox_relay_claimed_total"
  | relayDispatched => "outbox_relay_dispatched_total"
  | relayRetried => "outbox_relay_retried_total"
  | relayDead => "outbox_relay_dead_total"
  | deliveryAttempts => "webhook_delivery_attempts_total"
  | deliverySuccess => "webhook_delivery_success_total"
  | deliveryFailed _ => "webhook_delivery_failed_total"
  | duplicateSkipped => "webhook_duplicate_skipped_total"
  | poisonMessages => "webhook_poison_messages_total"

def label? : Counter → Option (String × String)
  | deliveryFailed reason => some ("reason", reason.text)
  | _ => none

end Counter

inductive Report
  | log (line : LogLine)
  | count (counter : Counter) (amount : Nat)
  | deliveryDuration
  deriving DecidableEq, Repr

namespace Report

def line (level : Level) (message : String) (fields : List (String × FieldValue)) : Report :=
  .log ⟨level, message, fields⟩

def lines (reports : List Report) : List LogLine :=
  reports.filterMap fun
    | .log l => some l
    | _ => none

def durationName : String := "webhook_delivery_duration_seconds"

/-- The series that a report adds to, and how much; a sample counts one. -/
def series? : Report → Option (String × Nat)
  | .log _ => none
  | .count c n =>
    let suffix := match c.label? with
      | some (k, v) => "\x7b" ++ k ++ "=" ++ v ++ "\x7d"
      | none => ""
    some (c.name ++ suffix, n)
  | .deliveryDuration => some (durationName, 1)

def addAmount (name : String) (n : Nat) : List (String × Nat) → List (String × Nat)
  | [] => [(name, n)]
  | (k, m) :: rest => if k = name then (k, m + n) :: rest else (k, m) :: addAmount name n rest

def totals (reports : List Report) : List (String × Nat) :=
  (reports.filterMap series?).foldl (fun sums (name, n) => addAmount name n sums) []

end Report

inductive MetricKind
  | counter
  | histogram
  deriving DecidableEq, Repr

structure MetricDescription where
  kind : MetricKind
  name : String
  unit : Option String
  text : String
  deriving DecidableEq, Repr

def metricDescriptions : List MetricDescription :=
  [⟨.counter, Counter.relayClaimed.name, none, "Outbox events claimed by the relay"⟩,
   ⟨.counter, Counter.relayDispatched.name, none,
    "Outbox events pushed to the stream and marked dispatched"⟩,
   ⟨.counter, Counter.relayRetried.name, none,
    "Outbox events returned to pending after a failed push"⟩,
   ⟨.counter, Counter.relayDead.name, none, "Outbox events moved to the dead state"⟩,
   ⟨.counter, Counter.deliveryAttempts.name, none, "Webhook POST attempts"⟩,
   ⟨.counter, Counter.deliverySuccess.name, none, "Webhook deliveries acknowledged with 2xx"⟩,
   ⟨.counter, (Counter.deliveryFailed .refused).name, none,
    "Webhook deliveries that failed, by reason"⟩,
   ⟨.histogram, Report.durationName, some "seconds", "Duration of webhook POST requests"⟩,
   ⟨.counter, Counter.duplicateSkipped.name, none,
    "Stream messages acknowledged without a POST because they were already delivered"⟩,
   ⟨.counter, Counter.poisonMessages.name, none, "Undecodable stream messages dropped"⟩]

end Courier
