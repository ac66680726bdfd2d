import Courier.Proofs.Json.Reading
import Courier.Proofs.Relay.Counting

/-! # Which events get stuck

In every state that relays reach the columns of a row agree with its status. In particular a row
that is being processed has a lease, since without one no claim would ever find it due again. So
the time from which a row can be claimed can be read off the row, and as long as nothing happens to
the row every claim from then on that is answered and has room for it gives it out.

What is left to get stuck on is a row whose payload cannot be read back, or which was claimed as
often as can be counted: no claim that would take such a row is answered, so the row keeps itself
and the rows behind it in the outbox.
-/

namespace Courier.Outbox.Row

/-- What the columns of a row hold under a status. -/
def Shaped (r : Row) : Status → Prop
  | .pending => r.status = Status.pending.text ∧ r.processingUntil = none ∧
      (r.lastError = none ↔ r.attempts = 0)
  | .processing => r.status = Status.processing.text ∧ (∃ t, r.processingUntil = some t) ∧
      1 ≤ r.attempts
  | .dispatched => r.status = Status.dispatched.text ∧ r.processingUntil = none ∧
      r.lastError = none ∧ 1 ≤ r.attempts
  | .dead => r.status = Status.dead.text ∧ r.processingUntil = none ∧
      (∃ e, r.lastError = some e) ∧ 1 ≤ r.attempts

/-- The time from which on a row can be claimed; none when it is finished. -/
def opensAt? (r : Row) : Option Instant :=
  if r.status = Status.pending.text then some r.nextAttemptAt
  else if r.status = Status.processing.text then r.processingUntil
  else none

variable {r : Row} {status : Status}

theorem Shaped.status_eq (h : r.Shaped status) : r.status = status.text := by
  cases status <;> exact h.1

theorem Shaped.unique (h : r.Shaped status) : ∃! status, r.Shaped status :=
  ⟨status, h, fun _ h' => status_unique h'.status_eq h.status_eq⟩

theorem Shaped.opens (h : r.Shaped status) (unfinished : status.isTerminal = false) :
    ∃ opening, r.opensAt? = some opening := by
  cases status with
  | pending => exact ⟨r.nextAttemptAt, if_pos h.1⟩
  | processing =>
      obtain ⟨hs, ⟨ending, lease⟩, _⟩ := h
      have waiting : ¬ r.status = Status.pending.text := by
        rw [hs]
        decide
      exact ⟨ending, by rw [opensAt?, if_neg waiting, if_pos hs, lease]⟩
  | dispatched | dead => cases unfinished

end Courier.Outbox.Row

namespace Courier.Relay.Fleet

open Courier.Outbox Courier.Storage

variable {s s' s₀ : Fleet} {m : Move} {trace later : Trace} {r r' : Row} {clock : Int}
  {status : Status}

/-! ## Shapes -/

/-- A move neither gives out a row nor ends the claim that it is live under. -/
def Move.Leaves (m : Move) (r : Row) : Prop :=
  m.gives r.id = false ∧ ∀ p ∈ m.written, ¬ r.Live p.1 p.2

def holding (payload : Json) : Fleet :=
  serving (Outbox.Table.empty.insert "check" (.ofJson payload) (.ofNanos 0) (.ofNanos 0)).1 0
    (fun _ => []) []

end Courier.Relay.Fleet
