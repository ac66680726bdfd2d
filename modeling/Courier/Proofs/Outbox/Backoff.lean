import Courier.Outbox.Retry
import Courier.Proofs.Time.Clock
import Mathlib.Algebra.Group.Nat.Defs

/-! # How long retries wait

The wait grows with the attempts and stays between two bounds, in whatever order these are. The next
attempt is set after the whole milliseconds of the wait, of which a word holds all as long as it holds
those of the greatest wait. Under the bounds that relays use the wait is a number of whole seconds, so
that nothing of it is lost.
-/

namespace Courier.Outbox.RetryPolicy

theorem backoff_nanos (p : RetryPolicy) (attempts : Int) : (p.backoff attempts).nanos =
    min (max (2 ^ exponent attempts * 1000000000) p.initialBackoff.nanos) p.maxBackoff.nanos := rfl

theorem backoff_mono (p : RetryPolicy) {a b : Int} (h : a ≤ b) : p.backoff a ≤ p.backoff b := by
  have power : 2 ^ exponent a ≤ 2 ^ exponent b :=
    Nat.pow_le_pow_right (by decide) (exponent_mono h)
  rw [Span.le_iff, backoff_nanos, backoff_nanos]
  omega

/-- The wait is no shorter than the least one, unless the greatest is shorter than that. -/
theorem min_le_backoff (p : RetryPolicy) (attempts : Int) :
    p.initialBackoff.min p.maxBackoff ≤ p.backoff attempts := by
  rw [Span.le_iff, backoff_nanos, Span.min_nanos]
  have least : min p.initialBackoff.nanos p.maxBackoff.nanos =
      Nat.min p.initialBackoff.nanos p.maxBackoff.nanos := rfl
  omega

theorem exponent_eq {attempts : Int} (least : 0 ≤ attempts) (most : attempts ≤ 32) :
    exponent attempts = attempts.toNat := Nat.min_eq_left (by omega)

theorem wordMillis_of_lt {s : Span} (h : s.millis < 9223372036854775808) :
    wordMillis s = s.millis := by
  refine Int.bmod_eq_of_le_mul_two ?_ ?_ <;> omega

/-! ## When the next attempt is made -/

def wholeMillis (s : Span) : Int := s.millis * 1000000

theorem nextAttempt?_eq_add?_wholeMillis {p : RetryPolicy} (attempts : Int) (base : Instant)
    (fits : p.maxBackoff.millis < 9223372036854775808) :
    p.nextAttempt? attempts base = base.add? (wholeMillis (p.backoff attempts)) := by
  have most := p.backoff_le attempts
  have few : (p.backoff attempts).millis < 9223372036854775808 := by
    rw [Span.le_iff] at most
    unfold Span.millis at *
    omega
  rw [nextAttempt?, wordMillis_of_lt few, if_neg (by omega), wholeMillis]

/-- What is to be expected of the waits after two numbers of attempts, the second no smaller.

* `least`, `grows`, `most`: they are ordered, and lie between the bounds.
* `doubles`: from none to thirty-two attempts the wait is a power of two of seconds within the bounds.
* `next`: where the calendar has a moment after the greatest wait, and a word holds its milliseconds,
  the next attempts are set after the whole milliseconds of the waits, in the same order, not before
  the moment that is waited from and not after the greatest wait. -/
structure WaitsInOrder (p : RetryPolicy) (a b : Int) : Prop where
  least : p.initialBackoff.min p.maxBackoff ≤ p.backoff a
  grows : p.backoff a ≤ p.backoff b
  most : p.backoff b ≤ p.maxBackoff
  doubles : 0 ≤ a → a ≤ 32 →
    p.backoff a = ((Span.ofSeconds (2 ^ a.toNat)).max p.initialBackoff).min p.maxBackoff
  next : ∀ base latest : Instant, base.InCalendar →
    p.maxBackoff.nanos < 9223372036854775808 * 1000000 →
    base.add? p.maxBackoff.nanos = some latest → ∃ sooner later,
      p.nextAttempt? a base = some sooner ∧ sooner = base.shift (wholeMillis (p.backoff a)) ∧
      p.nextAttempt? b base = some later ∧ later = base.shift (wholeMillis (p.backoff b)) ∧
      base ≤ sooner ∧ sooner ≤ later ∧ later ≤ latest

/-- Under every policy. -/
theorem waits_in_order (p : RetryPolicy) {a b : Int} (h : a ≤ b) : WaitsInOrder p a b where
  least := p.min_le_backoff a
  grows := p.backoff_mono h
  most := p.backoff_le b
  doubles := by
    intro least most
    rw [backoff, exponent_eq least most]
    rfl
  next := by
    intro base latest calendar short ends
    have fits : p.maxBackoff.millis < 9223372036854775808 := by
      unfold Span.millis
      omega
    have grows := p.backoff_mono h
    have most := p.backoff_le b
    rw [Span.le_iff] at grows most
    have ordered : 0 ≤ wholeMillis (p.backoff a) ∧
        wholeMillis (p.backoff a) ≤ wholeMillis (p.backoff b) ∧
        wholeMillis (p.backoff b) ≤ p.maxBackoff.nanos := by
      unfold wholeMillis Span.millis
      omega
    obtain ⟨nonneg, apart, within⟩ := ordered
    obtain ⟨second, _, last⟩ := Instant.add?_of_le calendar ends (by omega) within
    obtain ⟨first, begins, _⟩ := Instant.add?_of_le calendar ends nonneg (by omega)
    refine ⟨_, _, ?_, rfl, ?_, rfl, begins, base.shift_mono apart, last⟩
    · rw [nextAttempt?_eq_add?_wholeMillis a base fits, first]
    · rw [nextAttempt?_eq_add?_wholeMillis b base fits, second]

/-- A policy whose least wait is longer than its greatest, and neither a number of milliseconds. -/
def inverted : RetryPolicy := ⟨1, ⟨7000000001⟩, ⟨5000000001⟩⟩

/-- Within an inserted second, before any attempt and after very many: the nanosecond that the greatest
wait has beyond its last whole millisecond is not waited. -/
theorem waits_in_order_inverted : WaitsInOrder inverted (-5) 2147483647 ∧
    ∃ sooner later : Instant,
      inverted.nextAttempt? (-5) ⟨59, 1500000000⟩ = some sooner ∧ sooner = ⟨64, 500000000⟩ ∧
      inverted.nextAttempt? 2147483647 ⟨59, 1500000000⟩ = some later ∧
      sooner ≤ later ∧ later ≤ ⟨64, 500000001⟩ := by
  have order := waits_in_order inverted (show (-5 : Int) ≤ 2147483647 by decide)
  obtain ⟨sooner, later, first, shift, second, _, _, between, last⟩ :=
    order.next ⟨59, 1500000000⟩ ⟨64, 500000001⟩ (by decide) (by decide) (by decide)
  exact ⟨order, sooner, later, first, shift.trans (by decide +kernel), second, between, last⟩

variable {maxAttempts attempts base : Int}

/-- Relays wait between two seconds and five minutes. -/
theorem backoff_withMaxAttempts (maxAttempts attempts : Int) :
    ∃ seconds, (withMaxAttempts maxAttempts).backoff attempts = .ofSeconds seconds ∧
      2 ≤ seconds ∧ seconds ≤ 300 := by
  refine ⟨min (max (2 ^ exponent attempts) 2) 300, ?_, by omega, by omega⟩
  have nanos : ((withMaxAttempts maxAttempts).backoff attempts).nanos =
      min (max (2 ^ exponent attempts) 2) 300 * 1000000000 := by
    have least : (withMaxAttempts maxAttempts).initialBackoff.nanos = 2000000000 := rfl
    have most : (withMaxAttempts maxAttempts).maxBackoff.nanos = 300000000000 := rfl
    rw [backoff_nanos, least, most]
    omega
  exact congrArg Span.mk nanos

/-- Under the bounds of relays the next attempt is the whole wait away. -/
theorem nextAttempt?_eq_add? (maxAttempts attempts : Int) (base : Instant) :
    (withMaxAttempts maxAttempts).nextAttempt? attempts base =
      base.add? ((withMaxAttempts maxAttempts).backoff attempts).nanos := by
  obtain ⟨seconds, wait, _, most⟩ := backoff_withMaxAttempts maxAttempts attempts
  have millis : (Span.ofSeconds seconds).millis = seconds * 1000 := by
    simp only [Span.millis, Span.ofSeconds]
    omega
  have word : wordMillis (.ofSeconds seconds) = seconds * 1000 := by
    rw [wordMillis_of_lt (by omega), millis]
    simp
  have whole : (seconds * 1000 * 1000000 : Int) = (Span.ofSeconds seconds).nanos := by
    simp only [Span.ofSeconds]
    omega
  rw [nextAttempt?, wait, word, if_neg (by omega), whole]

theorem nextAttempt?_withMaxAttempts {next : Instant}
    (h : (withMaxAttempts maxAttempts).nextAttempt? attempts (.ofNanos base) = some next) :
    next = .ofNanos (base + ((withMaxAttempts maxAttempts).backoff attempts).nanos) := by
  rw [nextAttempt?_eq_add?] at h
  exact Instant.ofNanos_of_add? h

/-- Under the bounds of relays the next attempt is still to come. -/
theorem lt_nextAttempt? {now next : Instant}
    (h : (withMaxAttempts maxAttempts).nextAttempt? attempts now = some next) : now < next := by
  obtain ⟨seconds, wait, least, _⟩ := backoff_withMaxAttempts maxAttempts attempts
  rw [nextAttempt?_eq_add?, wait] at h
  apply Instant.lt_of_add? _ h
  simp only [Span.ofSeconds]
  omega

end Courier.Outbox.RetryPolicy
