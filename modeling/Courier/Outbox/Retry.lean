import Courier.Outbox.Event

/-!
# Retries

How long to wait after a failed push. The wait doubles with every attempt, from a least up to a
greatest span, and after a number of attempts the event is given up.
-/

namespace Courier.Outbox

/-- When failed events are tried again, and when no more. -/
structure RetryPolicy where
  maxAttempts : Int
  initialBackoff : Span
  maxBackoff : Span
  deriving DecidableEq, Repr

namespace RetryPolicy

/-- Waits between two seconds and five minutes. -/
def withMaxAttempts (maxAttempts : Int) : RetryPolicy :=
  ⟨maxAttempts, .ofSeconds 2, .ofSeconds 300⟩

def standard : RetryPolicy := withMaxAttempts 10

/-- The power of two that a number of attempts stands for, between 0 and 32. -/
def exponent (attempts : Int) : Nat := Nat.min attempts.toNat 32

def backoff (p : RetryPolicy) (attempts : Int) : Span :=
  ((Span.ofSeconds (Nat.pow 2 (exponent attempts))).max p.initialBackoff).min p.maxBackoff

/-- The milliseconds of a span as a signed word of 64 bits; longer spans wrap around. -/
def wordMillis (s : Span) : Int := (s.millis : Int).bmod 18446744073709551616

/-- The time of the next attempt. The least word and times outside the calendar give none. -/
def nextAttempt? (p : RetryPolicy) (attempts : Int) (base : Instant) : Option Instant :=
  let ms := wordMillis (p.backoff attempts)
  if ms = -9223372036854775808 then none else base.add? (ms * 1000000)

def shouldRetry (p : RetryPolicy) (attempts : Int) : Bool := decide (attempts < p.maxAttempts)

/-- The decision on an event whose push failed; none when the next time is out of reach. -/
def decide? (p : RetryPolicy) (id attempts : Int) (now : Instant) : Option Decision :=
  if p.shouldRetry attempts then (p.nextAttempt? attempts now).map (.retry id attempts)
  else some (.dead id attempts)

theorem exponent_mono {a b : Int} (h : a ≤ b) : exponent a ≤ exponent b := by
  have : a.toNat ≤ b.toNat := Int.toNat_le_toNat h
  unfold exponent
  simp only [Nat.min_def]
  split <;> split <;> omega

theorem backoff_le (p : RetryPolicy) (attempts : Int) : p.backoff attempts ≤ p.maxBackoff :=
  Nat.min_le_right _ _

end RetryPolicy

end Courier.Outbox
