import Courier.Proofs.Dialogue
import Courier.Relay.Round

/-! # The protocol of a round

However its questions are answered, a round claims once, pushes the batch that it was given once and
whole, and writes back what became of that push: the batch itself if the push was accepted, and
otherwise one decision for each of its events, made at one moment, with the words of the refusal.
Nothing else about a round matters to the relays around it.
-/

namespace Courier.Relay

open Courier.Outbox Courier.Stream

/-! ## Decisions -/

/-- An event is given up only after as many attempts as the policy allows. -/
theorem attempts_of_decide?_dead {p : RetryPolicy} {id attempts id' attempts' : Int} {now : Instant}
    (h : p.decide? id attempts now = some (.dead id' attempts')) :
    p.maxAttempts ≤ attempts ∧ id' = id ∧ attempts' = attempts := by
  unfold RetryPolicy.decide? at h
  split at h
  · obtain ⟨next, _, hd⟩ := Option.map_eq_some_iff.1 h
    cases hd
  · rename_i exhausted
    have hlt : ¬ attempts < p.maxAttempts := by simpa [RetryPolicy.shouldRetry] using exhausted
    cases h
    exact ⟨Int.not_lt.1 hlt, rfl, rfl⟩

theorem nextAttempt_of_decide?_retry {p : RetryPolicy} {id attempts id' attempts' : Int}
    {now next : Instant} (h : p.decide? id attempts now = some (.retry id' attempts' next)) :
    attempts < p.maxAttempts ∧ p.nextAttempt? attempts now = some next ∧ id' = id ∧
      attempts' = attempts := by
  unfold RetryPolicy.decide? at h
  split at h
  · rename_i again
    obtain ⟨time, htime, hd⟩ := Option.map_eq_some_iff.1 h
    cases hd
    exact ⟨by simpa [RetryPolicy.shouldRetry] using again, htime, rfl, rfl⟩
  · cases h

theorem decided_of_mem {p : RetryPolicy} {batch : List Claim} {now : Instant} {ds : List Decision}
    {d : Decision} (h : decisions? p batch now = some ds) (hd : d ∈ ds) :
    ∃ c ∈ batch, p.decide? c.id c.attempts now = some d := by
  induction batch generalizing ds with
  | nil =>
      cases h
      cases hd
  | cons c batch ih =>
      simp only [decisions?, List.mapM_cons, Option.bind_eq_bind, Option.bind_eq_some_iff] at h
      obtain ⟨first, hfirst, rest, hrest, h⟩ := h
      cases h
      rcases List.mem_cons.1 hd with rfl | hd
      · exact ⟨c, List.mem_cons_self, hfirst⟩
      · obtain ⟨c', hc', decided⟩ := ih hrest hd
        exact ⟨c', List.mem_cons_of_mem c hc', decided⟩

/-! ## Stages -/

inductive Stage
  | start
  | claimed (batch : List Claim)
  | accepted (batch : List Claim)
  | refused (batch : List Claim) (e : BrokerError)
  | decided (batch : List Claim) (e : BrokerError) (now : Instant)
  | ended

namespace Stage

def batch? : Stage → Option (List Claim)
  | start | ended => none
  | claimed batch | accepted batch | refused batch _ | decided batch _ _ => some batch

def next (st : Stage) : (c : Call) → c.Reply → Stage
  | .claim .., .ok (c :: cs) => .claimed (c :: cs)
  | .claim .., _ => .ended
  | .publish _, .ok _ => match st with
    | .claimed batch => .accepted batch
    | st => st
  | .publish _, .error e => match st with
    | .claimed batch => .refused batch e
    | st => st
  | .now, t => match st with
    | .refused batch e => .decided batch e t
    | st => st
  | .reconcile _, _ => .ended
  | .report _, _ => st
  | .abort, _ => st

theorem batch?_publish {st : Stage} {messages : List Message} {r : Except BrokerError Unit} :
    (st.next (.publish messages) r).batch? = st.batch? := by
  cases r <;> cases st <;> rfl

theorem batch?_now {st : Stage} {t : Instant} : (st.next .now t).batch? = st.batch? := by
  cases st <;> rfl

inductive May (cfg : Config) : Stage → Call → Prop
  | report (st : Stage) (r : Report) : May cfg st (.report r)
  | claim : May cfg .start (.claim cfg.batchSize cfg.lease)
  | publish (batch : List Claim) : May cfg (.claimed batch) (.publish (batch.map messageOf))
  | now (batch : List Claim) (e : BrokerError) : May cfg (.refused batch e) .now
  | dispatched (batch : List Claim) : May cfg (.accepted batch) (.reconcile (.dispatched batch))
  | failed {batch : List Claim} {e : BrokerError} {t : Instant} {ds : List Decision}
      (made : decisions? cfg.policy batch t = some ds) :
      May cfg (.decided batch e t) (.reconcile (.failed ds e.message))
  | abort (st : Stage) : May cfg st .abort

end Stage

def Keeps (cfg : Config) (talk : Talk (Except WorkerError Summary)) (st : Stage) : Prop :=
  talk.Follows (fun st c r st' => st.May cfg c ∧ st' = st.next c r) (fun st _ => st = .ended) st

variable {cfg : Config} {st : Stage}

theorem keeps_ask {c : Call} {k : c.Reply → Talk (Except WorkerError Summary)} :
    Keeps cfg (.ask c k) st ↔ ∀ r, st.May cfg c ∧ Keeps cfg (k r) (st.next c r) := by
  constructor
  · intro h r
    obtain ⟨_, ⟨may, rfl⟩, rest⟩ := h r
    exact ⟨may, rest⟩
  · intro h r
    exact ⟨_, ⟨(h r).1, rfl⟩, (h r).2⟩

theorem keeps_done {α : Type} {a : α} {k : α → Talk (Except WorkerError Summary)}
    (h : Keeps cfg (k a) st) : Keeps cfg ((Dialogue.done a).bind k) st := h

/-! ## The round -/

theorem keeps_report {r : Report} {rest : Unit → Talk (Except WorkerError Summary)}
    (h : Keeps cfg (rest ()) st) : Keeps cfg ((report r).bind rest) st :=
  keeps_ask.2 fun _ => ⟨.report st r, h⟩

theorem keeps_reports {reports : List Report} {rest : PUnit → Talk (Except WorkerError Summary)}
    (h : Keeps cfg (rest ⟨⟩) st) : Keeps cfg ((reports.forM report).bind rest) st := by
  induction reports with
  | nil => exact h
  | cons r reports ih => exact keeps_report ih

theorem settleAccepted_keeps (batch : List Claim) :
    Keeps cfg (settleAccepted batch) (.accepted batch) := by
  refine keeps_ask.2 fun r => ⟨.dispatched batch, ?_⟩
  cases r with
  | error e => rfl
  | ok u => exact keeps_report (keeps_report rfl)

theorem settleRefused_keeps {batch : List Claim} {ds : List Decision} {e : BrokerError}
    {t : Instant} (made : decisions? cfg.policy batch t = some ds) :
    Keeps cfg (settleRefused batch ds e) (.decided batch e t) := by
  refine keeps_reports (keeps_report (keeps_ask.2 fun r => ⟨.failed made, ?_⟩))
  cases r with
  | error e => rfl
  | ok u => exact keeps_report (keeps_report rfl)

theorem round_keeps (cfg : Config) : Keeps cfg (round cfg) .start := by
  refine keeps_ask.2 fun r => ⟨.claim, ?_⟩
  cases r with
  | error e => rfl
  | ok batch =>
      cases batch with
      | nil => rfl
      | cons c cs =>
          refine keeps_report (keeps_ask.2 fun r => ⟨.publish (c :: cs), ?_⟩)
          cases r with
          | ok u => exact settleAccepted_keeps (c :: cs)
          | error e =>
              refine keeps_ask.2 fun t => ⟨.now (c :: cs) e, ?_⟩
              refine keeps_done ?_
              cases made : decisions? cfg.policy (c :: cs) t with
              | some ds => exact settleRefused_keeps made
              | none => exact keeps_ask.2 fun r => Empty.elim r

end Courier.Relay
