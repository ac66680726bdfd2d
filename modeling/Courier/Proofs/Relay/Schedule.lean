import Courier.Proofs.Outbox.Backoff
import Courier.Proofs.Relay.Evidence
import Courier.Proofs.Relay.Leases

/-! # The schedule of retries

An event that is put back waits from the moment at which its relay decided so, longer the more often
it was claimed. The wait moves the event on: whoever decides about it looks at the clock after the
claim that it decides about, and nobody claims an event before its time. A relay that decides on a
stale copy does not count, since the row is not live under its claim.
-/

namespace Courier.Relay

open Courier.Outbox Courier.Storage Courier.Stream

/-! ## Times of rows -/

namespace Fleet

variable {s s' s₀ : Fleet} {m : Move} {trace : Trace} {r : Row}

/-- The time of every row that is being processed has come. -/
def Timely (s : Fleet) : Prop :=
  ∀ r ∈ s.table.rows, r.status = Status.processing.text → r.nextAttemptAt ≤ s.now

theorem Timely.of_due (h : s.Timely) (hr : r ∈ s.table.rows) (due : r.Due s.now) :
    r.nextAttemptAt ≤ s.now := by
  rcases due with ⟨_, open'⟩ | ⟨again, _⟩
  · exact open'
  · exact h r hr again

theorem Timely.step (h : s.Timely) (hs : s.table.Ordered) (step : Step s m s')
    (forward : s.clock ≤ s'.clock) : s'.Timely := by
  have later : s.now ≤ s'.now := Instant.ofNanos_le.2 forward
  intro r' hr' processing
  rcases step.row_before hr' with ⟨r, hr, rewrites⟩ | ⟨e, n, _, rfl⟩
  · cases rewrites with
    | claimed given =>
        have due := step.due_of_gives hs (hs.find?_eq_some_iff.2 ⟨hr, rfl⟩) given
        have early := h.of_due hr due
        exact le_trans early later
    | written _ writes => exact absurd processing writes.idle
    | kept => exact le_trans (h r' hr processing) later
  · exact absurd processing (by simp [Outbox.Table.newRow, Status.text])

theorem timely_of_run (fresh : s₀.Fresh) (run : Run Step s₀ trace s)
    (forward : Ascending Fleet.clock trace) : s.Timely := by
  induction run with
  | refl => simp [Timely, fresh.table, Outbox.Table.empty]
  | tail run last ih =>
      obtain ⟨earlier, later⟩ := forward.last
      exact (ih earlier).step (counted fresh run).ordered last later

end Fleet

namespace Rounds

variable {cfg : Nat → Config} {s s' s₀ : Rounds} {m : Move} {w : Nat} {trace : Trace}
  {batch : List Claim} {r r' : Row}

/-! ## Times of decisions -/

def Move.shows (w : Nat) : Move → Option Instant
  | .answer w' .now time => if w' = w then some time else none
  | _ => none

/-- What the clock showed when a relay last looked. -/
def lookedAt? (trace : Trace) (w : Nat) : Option Instant :=
  trace.reverse.findSome? fun t => t.move.shows w

theorem lookedAt?_append (trace : Trace) (t : Transition Rounds Move) (w : Nat) :
    lookedAt? (trace ++ [t]) w = (t.move.shows w).or (lookedAt? trace w) := by
  cases h : t.move.shows w <;> simp [lookedAt?, h]

theorem Move.shows_others (others : m.relay? ≠ some w) : m.shows w = none := by
  cases m with
  | answer w' c r =>
      cases c with
      | now => exact if_neg fun same => others (congrArg some same)
      | _ => rfl
  | _ => rfl

/-- A relay that has decided looked at the clock when the events that it decided about were due. -/
structure Considered (trace : Trace) (s : Rounds) (w : Nat) (batch : List Claim) (time : Instant) :
    Prop where
  looked : lookedAt? trace w = some time
  clock : ∃ n, time = .ofNanos n
  due : ∀ c ∈ batch, ∀ r ∈ s.table.rows, r.Live c.id c.attempts → r.nextAttemptAt ≤ time

/-- What a relay has considered stays so while the relay holds the batch and does not look again. -/
theorem Considered.unseen {time : Instant} (h : Considered trace s w batch time)
    (staged : Staged cfg trace s) (counted : Fleet.Counted (trace.map project) s.toFleet)
    (hand : (stageOf trace w).batch? = some batch) (last : Step cfg s m s')
    (hm : m.shows w = none) : Considered (trace ++ [⟨s, m, s'⟩]) s' w batch time := by
  obtain ⟨looked, clock, due⟩ := h
  refine ⟨by rw [lookedAt?_append, hm, looked]; rfl, clock, ?_⟩
  intro c hc r hr live
  have held := (latest_of_head (staged.hand w batch hand)).2
  have hr := counted.live_before (last.view staged) (counted.mem_givenIn held hc) hr live
  exact due c hc r hr live

theorem considered_of_run (fresh : s₀.Fresh) (run : Run (Step cfg) s₀ trace s)
    (forward : Forward trace) {e : BrokerError} {time : Instant}
    (hstage : stageOf trace w = .decided batch e time) : Considered trace s w batch time := by
  induction run generalizing batch e time with
  | refl => cases hstage
  | @tail trace s m s' run last ih =>
      have staged := staged_of_run fresh run
      have earlier := forward.last.1
      have keep (hstage : stageOf trace w = .decided batch e time) (hm : m.shows w = none) :
          Considered (trace ++ [⟨s, m, s'⟩]) s' w batch time :=
        (ih earlier hstage).unseen staged (counted_of_run fresh run) (by rw [hstage]; rfl) last hm
      rw [stageOf_append] at hstage
      rcases last.relay_cases w with ⟨others, _⟩ | ⟨rfl, _⟩ | ⟨c, r, k, rfl, asking, _, effect⟩ |
        ⟨_, ended, _⟩
      · rw [leads_others others] at hstage
        exact keep hstage (Move.shows_others others)
      · rw [leads_begin] at hstage
        cases hstage
      · rw [leads_answer] at hstage
        have may := (staged.may asking r).1
        have hand := staged.hand w
        generalize hst : stageOf trace w = st at hstage may hand
        cases may with
        | report => exact keep (hst.trans hstage) rfl
        | claim =>
            cases r with
            | error e => cases hstage
            | ok claims => cases claims <;> cases hstage
        | publish batch => cases r <;> cases hstage
        | now batch e =>
            cases hstage
            have timely := Fleet.timely_of_run fresh.fleet (view_of_run fresh run)
              (Forward.project earlier)
            generalize hs' : s'.toFleet = fleet at effect
            cases effect
            refine ⟨by rw [lookedAt?_append]; simp [Move.shows], ⟨s.clock, rfl⟩, ?_⟩
            intro c hc r hr live
            rw [hs'] at hr
            exact timely r hr live.2.1
        | dispatched | failed => cases hstage
        | abort => exact nomatch r
      · rw [ended] at hstage
        cases hstage

/-! ## Events that are put back -/

structure Reopens (t : Transition Rounds Move) (r r' : Row) : Prop where
  before : r ∈ t.before.table.rows
  after : r' ∈ t.after.table.rows
  same : r'.id = r.id
  closed : r.status ≠ Status.pending.text
  opened : r'.status = Status.pending.text

/-- Relays wait as long as the standard policy says, and may give up earlier or later. -/
def Standard (cfg : Nat → Config) : Prop := ∀ w, ∃ n, (cfg w).policy = .withMaxAttempts n

/-- Whoever puts a row back decided so when the row was due, and the row waits from then on. -/
theorem Step.reopens (standard : Standard cfg) (fresh : s₀.Fresh) (run : Run (Step cfg) s₀ trace s)
    (forward : Forward trace) (step : Step cfg s m s') (h : Reopens ⟨s, m, s'⟩ r r') :
    ∃ w base, m.relay? = some w ∧ lookedAt? trace w = some (.ofNanos base) ∧
      r.nextAttemptAt ≤ .ofNanos base ∧
      r'.nextAttemptAt = .ofNanos (base + (RetryPolicy.standard.backoff r.attempts).nanos) := by
  have staged := staged_of_run fresh run
  have rewrites := (step.view staged).rewrites_of_id_eq (counted_of_run fresh run).ordered
    h.before h.after h.same
  rcases step.row_cases staged rewrites with ⟨_, processing⟩ |
    ⟨w, batch, o, rfl, _, may, _, writes⟩ | ⟨same, _⟩
  · cases Row.status_unique h.opened processing
  · generalize hstage : stageOf trace w = st at may
    have opened := h.opened
    cases writes with
    | dispatched => cases Row.status_unique (show _ = Status.dispatched.text from rfl) opened
    | @settled decisions lastError d _ mem live =>
        cases d with
        | dead => cases Row.status_unique (show _ = Status.dead.text from rfl) opened
        | retry id attempts next =>
            cases may with
            | failed made =>
                obtain ⟨c, hc, decided⟩ := decided_of_mem made mem
                obtain ⟨_, hnext, rfl, rfl⟩ := nextAttempt_of_decide?_retry decided
                obtain ⟨looked, ⟨base, rfl⟩, due⟩ := considered_of_run fresh run forward hstage
                obtain ⟨n, policy⟩ := standard w
                rw [policy] at hnext
                refine ⟨w, base, rfl, looked, due c hc r h.before live, ?_⟩
                rw [live.2.2]
                exact RetryPolicy.nextAttempt?_withMaxAttempts hnext
  · exact absurd (same ▸ h.opened) h.closed

/-- The nanoseconds from the moment at which a relay decided to put a row back to the time that the
row then waits for. -/
def Waits (past : Trace) (t : Transition Rounds Move) (r' : Row) (wait : Int) : Prop :=
  ∃ w decided, t.move.relay? = some w ∧ lookedAt? past w = some decided ∧
    wait = r'.nextAttemptAt.since decided

variable {past rest : Trace} {t : Transition Rounds Move} {wait : Int}

/-- A row that is put back waits as long as the standard policy names. -/
theorem Waits.eq (h : Waits past t r' wait) (standard : Standard cfg) (fresh : s₀.Fresh)
    (run : Run (Step cfg) s₀ (past ++ t :: rest) s) (forward : Forward (past ++ t :: rest))
    (reopens : Reopens t r r') :
    wait = (RetryPolicy.standard.backoff r.attempts).nanos := by
  obtain ⟨left, step, _⟩ := run.around
  obtain ⟨w, base, hw, looked, _, next⟩ := step.reopens standard fresh left
    (ascending_append.1 forward).1 reopens
  obtain ⟨w', decided, hw', looked', rfl⟩ := h
  obtain rfl : w = w' := Option.some.inj (hw.symm.trans hw')
  obtain rfl := Option.some.inj (looked.symm.trans looked')
  rw [next, Instant.ofNanos_since]
  omega

def down : BrokerError := .unavailable "down"

end Rounds

end Courier.Relay
