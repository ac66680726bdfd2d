import Courier.Proofs.Relay.Evidence
import Courier.Proofs.Relay.Leases

/-! # Nothing is pushed twice when nobody is late

A batch is outstanding from its claim until the round of the claim is over. As long as every
outstanding batch is within its lease, its rows stay live under its claim, no other relay is given
any of its events, and its write-back ends all of them. So a push that was accepted leaves its
events either dispatched or in the hands of the one relay that is about to write them back.
-/

namespace Courier.Relay.Rounds

open Courier.Outbox Courier.Storage Courier.Stream

variable {cfg : Nat → Config} {s s' s₀ : Rounds} {m : Move} {w w' : Nat} {trace : Trace}
  {t : Transition Rounds Move} {batch batch' : List Claim} {ending ending' : Int}

/-! ## Outstanding batches -/

/-- A relay was given events under a lease, and its round is not over. -/
def Outstanding (trace : Trace) (w : Nat) (batch : List Claim) (ending : Int) : Prop :=
  ∃ before granted after limit lease, trace = before ++ granted :: after ∧
    granted.move = .answer w (.claim limit lease) (.ok batch) ∧ batch ≠ [] ∧
    (∀ t ∈ after, ¬ t.move.Ends w) ∧ ending = granted.before.clock + lease.nanos

theorem Move.Ends.relay?_eq (h : m.Ends w) : m.relay? = some w := by
  cases m with
  | answer w' c r =>
      cases c with
      | reconcile => exact congrArg some h
      | _ => cases h
  | panic | crash => exact congrArg some h
  | _ => cases h

theorem Move.Quiet.not_ends (h : m.Quiet w) : ¬ m.Ends w := by
  intro ends
  have own := ends.relay?_eq
  cases m with
  | answer w' c r =>
      cases c with
      | reconcile => exact h own
      | _ => cases ends
  | panic | crash => exact h own
  | _ => cases ends

/-- What stands before the end of a trace stands before its last transition, or is that. -/
theorem last_or_earlier {α : Type} {xs before after : List α} {x y : α}
    (h : xs ++ [x] = before ++ y :: after) :
    (before = xs ∧ y = x ∧ after = []) ∨ ∃ mid, after = mid ++ [x] ∧ xs = before ++ y :: mid := by
  rcases List.eq_nil_or_concat after with rfl | ⟨mid, z, rfl⟩
  · obtain ⟨rfl, hxy⟩ := List.append_inj' h rfl
    cases hxy
    exact Or.inl ⟨rfl, rfl, rfl⟩
  · rw [List.concat_eq_append, ← List.cons_append, ← List.append_assoc] at h
    obtain ⟨rfl, hxz⟩ := List.append_inj' h rfl
    cases hxz
    exact Or.inr ⟨mid, by simp, rfl⟩

theorem Outstanding.earlier (h : Outstanding (trace ++ [t]) w batch ending) :
    (Outstanding trace w batch ending ∧ ¬ t.move.Ends w) ∨
    ∃ limit lease, t.move = .answer w (.claim limit lease) (.ok batch) ∧ batch ≠ [] ∧
      ending = t.before.clock + lease.nanos := by
  obtain ⟨before, granted, after, limit, lease, htrace, claimed, some, going, hending⟩ := h
  rcases last_or_earlier htrace with ⟨rfl, rfl, rfl⟩ | ⟨mid, rfl, rfl⟩
  · exact Or.inr ⟨limit, lease, claimed, some, hending⟩
  · refine Or.inl ⟨⟨before, granted, mid, limit, lease, rfl, claimed, some, ?_, hending⟩, ?_⟩
    · exact fun u hu => going u (List.mem_append_left _ hu)
    · exact going t (by simp)

theorem Outstanding.later (h : Outstanding trace w batch ending) (going : ¬ t.move.Ends w) :
    Outstanding (trace ++ [t]) w batch ending := by
  obtain ⟨before, granted, after, limit, lease, rfl, claimed, some, going', hending⟩ := h
  refine ⟨before, granted, after ++ [t], limit, lease, by simp, claimed, some, ?_, hending⟩
  intro u hu
  rcases List.mem_append.1 hu with hu | hu
  · exact going' u hu
  · rwa [List.mem_singleton.1 hu]

theorem Outstanding.quiet {after : Trace} (h : Outstanding trace w batch ending)
    (going : ∀ u ∈ after, ¬ u.move.Ends w) : Outstanding (trace ++ after) w batch ending := by
  induction after using List.reverseRecOn with
  | nil => simpa using h
  | append_singleton after t ih =>
      rw [← List.append_assoc]
      have earlier := ih fun u hu => going u (List.mem_append_left _ hu)
      exact earlier.later (going t (by simp))

theorem Claimed.outstanding (h : Claimed w batch trace) :
    ∃ ending, Outstanding trace w batch ending := by
  obtain ⟨before, granted, after, rfl, ⟨limit, lease, claimed, some⟩, quiet⟩ := h
  exact ⟨_, before, granted, after, limit, lease, rfl, claimed, some,
    fun u hu => (quiet u hu).not_ends, rfl⟩

theorem Pushed.outstanding {r : Except BrokerError Unit} (h : Pushed w batch r trace) :
    ∃ ending, Outstanding trace w batch ending := by
  obtain ⟨before, pushed, after, rfl, ⟨claimed, push⟩, quiet⟩ := h
  obtain ⟨ending, outstanding⟩ := claimed.outstanding
  refine ⟨ending, outstanding.quiet ?_⟩
  intro u hu
  rcases List.mem_cons.1 hu with rfl | hu
  · rw [push]
    exact id
  · exact (quiet u hu).not_ends

/-- A relay that has a batch in hand has it outstanding. -/
theorem outstanding_of_run {st : Stage} (fresh : s₀.Fresh) (run : Run (Step cfg) s₀ trace s)
    (hstage : stageOf trace w = st) (hand : st.batch? = some batch) :
    ∃ ending, Outstanding trace w batch ending := by
  have history := history_of_run fresh run w
  rw [hstage] at history
  cases st with
  | start | ended => cases hand
  | claimed => cases hand; exact Claimed.outstanding history
  | accepted | refused | decided => cases hand; exact Pushed.outstanding history

/-! ## Nobody is late -/

/-- Nobody is late.

* `waiting`: the lease of a batch that is outstanding has not ended.
* `written`: a round with a batch ends only by a write-back that is committed before the lease ends.
  -/
structure Prompt (trace : Trace) (s : Rounds) : Prop where
  waiting : ∀ w batch ending, Outstanding trace w batch ending → s.clock < ending
  written : ∀ past t later w batch ending, trace = past ++ t :: later →
    Outstanding past w batch ending → t.move.Ends w →
    (∃ o, t.move = .answer w (.reconcile o) (.ok ())) ∧ t.before.clock < ending

theorem Prompt.before (h : Prompt (trace ++ [⟨s, m, s'⟩]) s') (later : s.clock ≤ s'.clock) :
    Prompt trace s where
  waiting := by
    intro w batch ending outstanding
    by_cases ends : m.Ends w
    · exact (h.written trace ⟨s, m, s'⟩ [] w batch ending rfl outstanding ends).2
    · have within := h.waiting w batch ending (outstanding.later ends)
      exact Int.lt_of_le_of_lt later within
  written := by
    intro past t later w batch ending htrace outstanding ends
    refine h.written past t (later ++ [⟨s, m, s'⟩]) w batch ending ?_ outstanding ends
    rw [htrace]
    simp

/-! ## Rows of outstanding batches -/

def Dispatched (s : Rounds) (id : Int) : Prop :=
  ∃ r, s.table.find? id = some r ∧ r.status = Status.dispatched.text

def Move.accepts (id : Int) : Move → Bool
  | .answer _ (.publish messages) (.ok _) => messages.any fun m => m.outboxId == id
  | _ => false

/-- What holds while nobody is late.

* `held`: the rows of an outstanding batch are live under its claim, with its lease.
* `apart`: batches of different relays have no event in common.
* `placed`: what was pushed and accepted is dispatched, or its relay is about to write it back. -/
structure Calm (trace : Trace) (s : Rounds) : Prop where
  held : ∀ w batch ending, Outstanding trace w batch ending → ∀ c ∈ batch,
    ∃ r, s.table.find? c.id = some r ∧ r.Live c.id c.attempts ∧
      r.processingUntil = some (.ofNanos ending)
  apart : ∀ w w' batch batch' ending ending', Outstanding trace w batch ending →
    Outstanding trace w' batch' ending' → ∀ c ∈ batch, ∀ c' ∈ batch', c.id = c'.id → w = w'
  placed : ∀ before pushed after w messages, trace = before ++ pushed :: after →
    pushed.move = .answer w (.publish messages) (.ok ()) →
    (∀ x ∈ messages, Dispatched s x.outboxId) ∨
    ∃ batch, stageOf trace w = .accepted batch ∧ messages = batch.map messageOf ∧
      ∀ u ∈ after, ¬ u.move.Ends w

namespace Calm

theorem start : Calm [] s where
  held := by
    rintro w batch ending ⟨before, granted, after, _, _, htrace, _⟩
    simp at htrace
  apart := by
    rintro w w' batch batch' ending ending' ⟨before, granted, after, _, _, htrace, _⟩
    simp at htrace
  placed := by
    intro before pushed after w messages htrace
    simp at htrace

section Step

variable (fresh : s₀.Fresh) (run : Run (Step cfg) s₀ trace s) (last : Step cfg s m s')
  (later : s.clock ≤ s'.clock) (calm : Calm trace s) (prompt : Prompt trace s)

include fresh run last in
theorem row_after {id : Int} {r : Row} (hr : s.table.find? id = some r) :
    ∃ r', s'.table.find? id = some r' ∧ (s.view m).Rewrites s.clock r r' :=
  (last.view (staged_of_run fresh run)).find?_rewrites (counted_of_run fresh run).ordered hr

include fresh run last calm prompt in
/-- A claim gives out no event of an outstanding batch. -/
theorem ungiven (outstanding : Outstanding trace w batch ending) {c : Claim} (hc : c ∈ batch) :
    m.gives c.id = false := by
  refine Bool.eq_false_iff.2 fun given => ?_
  obtain ⟨r, hr, live, lease⟩ := calm.held w batch ending outstanding c hc
  have within := prompt.waiting w batch ending outstanding
  rw [← gives_view s] at given
  have due := (last.view (staged_of_run fresh run)).due_of_gives
    (counted_of_run fresh run).ordered hr given
  obtain ⟨ends, hends, lapsed⟩ := due.of_processing live.2.1
  rw [lease, Option.some.injEq] at hends
  subst hends
  have late := Instant.ofNanos_le.1 lapsed
  omega

include fresh run last calm prompt in
/-- As long as its round goes on, nothing happens to the rows of an outstanding batch. -/
theorem stays (outstanding : Outstanding trace w batch ending) (going : ¬ m.Ends w) {c : Claim}
    (hc : c ∈ batch) : ∃ r, s'.table.find? c.id = some r ∧ r.Live c.id c.attempts ∧
      r.processingUntil = some (.ofNanos ending) := by
  obtain ⟨r, hr, live, lease⟩ := calm.held w batch ending outstanding c hc
  obtain ⟨r', hr', rewrites⟩ := row_after fresh run last hr
  rcases last.row_cases (staged_of_run fresh run) rewrites with ⟨given, _⟩ |
    ⟨w', batch', o, rfl, hand, _, ⟨c', hc', live'⟩, _⟩ | ⟨rfl, _⟩
  · rw [live.1, ungiven fresh run last calm prompt outstanding hc] at given
    cases given
  · -- the write-back would be one of another relay with the same event in hand
    obtain ⟨ending', outstanding'⟩ := outstanding_of_run fresh run rfl hand
    have same := calm.apart w' w batch' batch ending' ending outstanding' outstanding c' hc' c hc
      (live'.1.symm.trans live.1)
    exact absurd same going
  · exact ⟨r', hr', live, lease⟩

include fresh run last in
theorem dispatched_stays {id : Int} (h : s.Dispatched id) : s'.Dispatched id := by
  obtain ⟨r, hr, hstatus⟩ := h
  obtain ⟨r', hr', rewrites⟩ := row_after fresh run last hr
  rcases last.row_cases (staged_of_run fresh run) rewrites with ⟨given, _⟩ |
    ⟨_, _, _, _, _, _, ⟨_, _, live⟩, _⟩ | ⟨rfl, _⟩
  · have hid := ((counted_of_run fresh run).ordered.find?_eq_some_iff.1 hr).2
    rw [hid, ← gives_view s] at given
    have due := (last.view (staged_of_run fresh run)).due_of_gives
      (counted_of_run fresh run).ordered hr given
    rcases due with ⟨due, _⟩ | ⟨due, _⟩ <;> cases Row.status_unique hstatus due
  · cases Row.status_unique hstatus live.2.1
  · exact ⟨r', hr', hstatus⟩

include fresh run last calm in
/-- A write-back of a batch whose push was accepted ends every event of the batch. -/
theorem dispatches (hstage : stageOf trace w = .accepted batch)
    (hm : m = .answer w (.reconcile (.dispatched batch)) (.ok ())) {c : Claim} (hc : c ∈ batch) :
    s'.Dispatched c.id := by
  obtain ⟨ending, outstanding⟩ := outstanding_of_run fresh run hstage rfl
  obtain ⟨r, hr, live, _⟩ := calm.held w batch ending outstanding c hc
  obtain ⟨r', hr', rewrites⟩ := row_after fresh run last hr
  refine ⟨r', hr', ?_⟩
  rcases last.row_cases (staged_of_run fresh run) rewrites with ⟨given, _⟩ |
    ⟨w', batch', o, hm', _, _, _, writes⟩ | ⟨_, fenced⟩
  · subst hm
    cases given
  · cases hm.symm.trans hm'
    cases writes with
    | dispatched => rfl
  · exact absurd live (fenced w _ hm c.token (List.mem_map_of_mem hc))

include fresh run last calm prompt in
theorem held_step :
    ∀ w batch ending, Outstanding (trace ++ [⟨s, m, s'⟩]) w batch ending → ∀ c ∈ batch,
      ∃ r, s'.table.find? c.id = some r ∧ r.Live c.id c.attempts ∧
        r.processingUntil = some (.ofNanos ending) := by
  intro w batch ending outstanding c hc
  rcases outstanding.earlier with ⟨earlier, going⟩ | ⟨limit, lease, rfl, _, rfl⟩
  · exact stays fresh run last calm prompt earlier going hc
  · have claimed := last.view (staged_of_run fresh run)
    exact Fleet.Step.claim_leases claimed (counted_of_run fresh run).ordered hc

include fresh run last calm prompt in
theorem apart_step : ∀ w w' batch batch' ending ending',
    Outstanding (trace ++ [⟨s, m, s'⟩]) w batch ending →
    Outstanding (trace ++ [⟨s, m, s'⟩]) w' batch' ending' →
    ∀ c ∈ batch, ∀ c' ∈ batch', c.id = c'.id → w = w' := by
  have new {w : Nat} {batch : List Claim} {limit : Nat} {lease : Span} {c : Claim}
      (claimed : m = .answer w (.claim limit lease) (.ok batch)) (hc : c ∈ batch) :
      m.gives c.id = true := by
    subst claimed
    exact Outbox.Table.gives_iff.2 ⟨c, hc, rfl⟩
  intro w w' batch batch' ending ending' outstanding outstanding' c hc c' hc' hid
  rcases outstanding.earlier with ⟨earlier, _⟩ | ⟨limit, lease, claimed, _⟩ <;>
    rcases outstanding'.earlier with ⟨earlier', _⟩ | ⟨limit', lease', claimed', _⟩
  · exact calm.apart w w' batch batch' ending ending' earlier earlier' c hc c' hc' hid
  · have ungiven := ungiven fresh run last calm prompt earlier hc
    rw [hid, new claimed' hc'] at ungiven
    cases ungiven
  · have ungiven := ungiven fresh run last calm prompt earlier' hc'
    rw [← hid, new claimed hc] at ungiven
    cases ungiven
  · cases claimed.symm.trans claimed'
    rfl

include fresh run last in
/-- After its push a relay stays where it is until its round is over. -/
theorem accepted_stays (hstage : stageOf trace w = .accepted batch) (going : ¬ m.Ends w) :
    stageOf (trace ++ [⟨s, m, s'⟩]) w = .accepted batch := by
  have staged := staged_of_run fresh run
  rw [stageOf_append]
  rcases last.relay_cases w with ⟨others, _⟩ | ⟨_, free, _⟩ | ⟨c, r, k, rfl, asking, _⟩ |
    ⟨finished, _⟩
  · rw [leads_others others, hstage]
  · rw [staged.idle w free] at hstage
    cases hstage
  · have may := (staged.may asking r).1
    rw [leads_answer]
    rw [hstage] at may ⊢
    cases may with
    | report => rfl
    | dispatched => exact absurd rfl going
    | abort => exact nomatch r
  · rcases finished with ends | ⟨result, done⟩
    · exact absurd ends going
    · have ended := staged.keeps w _ done
      rw [hstage] at ended
      cases ended

include fresh run last calm in
/-- A round that ends in time after an accepted push ends every event of its batch. -/
theorem accepted_ends (hstage : stageOf trace w = .accepted batch)
    (inTime : ∃ o, m = .answer w (.reconcile o) (.ok ())) : ∀ c ∈ batch, s'.Dispatched c.id := by
  obtain ⟨o, rfl⟩ := inTime
  intro c hc
  have h := last
  cases h with
  | answer asking effect =>
      have may := ((staged_of_run fresh run).may asking (.ok ())).1
      rw [hstage] at may
      cases may with
      | dispatched => exact dispatches fresh run last calm hstage rfl hc

include fresh run last calm in
theorem placed_step (prompt' : Prompt (trace ++ [⟨s, m, s'⟩]) s') :
    ∀ before pushed after w messages, trace ++ [⟨s, m, s'⟩] = before ++ pushed :: after →
      pushed.move = .answer w (.publish messages) (.ok ()) →
      (∀ x ∈ messages, Dispatched s' x.outboxId) ∨
      ∃ batch, stageOf (trace ++ [⟨s, m, s'⟩]) w = .accepted batch ∧
        messages = batch.map messageOf ∧ ∀ u ∈ after, ¬ u.move.Ends w := by
  intro before pushed after w messages htrace push
  rcases last_or_earlier htrace with ⟨rfl, rfl, rfl⟩ | ⟨mid, rfl, earlier⟩
  · obtain rfl : m = .answer w (.publish messages) (.ok ()) := push
    cases last with
    | answer asking effect =>
        obtain ⟨batch, hstage, hmessages⟩ := (staged_of_run fresh run).publishes asking
        refine Or.inr ⟨batch, ?_, hmessages, by simp⟩
        rw [stageOf_append, hstage]
        exact leads_answer
  · rcases calm.placed before pushed mid w messages earlier push with
      dispatched | ⟨batch, hstage, rfl, going⟩
    · exact Or.inl fun x hx => dispatched_stays fresh run last (dispatched x hx)
    · by_cases ends : m.Ends w
      · obtain ⟨ending, outstanding⟩ := outstanding_of_run fresh run hstage rfl
        have inTime := (prompt'.written trace _ [] w batch ending rfl outstanding ends).1
        refine Or.inl fun x hx => ?_
        obtain ⟨c, hc, rfl⟩ := List.mem_map.1 hx
        exact accepted_ends fresh run last calm hstage inTime c hc
      · refine Or.inr ⟨batch, accepted_stays fresh run last hstage ends, rfl, ?_⟩
        intro u hu
        rcases List.mem_append.1 hu with hu | hu
        · exact going u hu
        · rwa [List.mem_singleton.1 hu]

include fresh run last later calm in
theorem step (prompt' : Prompt (trace ++ [⟨s, m, s'⟩]) s') :
    Calm (trace ++ [⟨s, m, s'⟩]) s' where
  held := held_step fresh run last calm (prompt'.before later)
  apart := apart_step fresh run last calm (prompt'.before later)
  placed := placed_step fresh run last calm prompt'

end Step

end Calm

theorem calm_of_run (fresh : s₀.Fresh) (run : Run (Step cfg) s₀ trace s) (forward : Forward trace)
    (prompt : Prompt trace s) : Calm trace s := by
  induction run with
  | refl => exact .start
  | tail run last ih =>
      obtain ⟨earlier, later⟩ := forward.last
      exact Calm.step fresh run last later (ih earlier (prompt.before later)) prompt

/-! ## Publishing once -/

def Move.Unbroken : Move → Prop
  | .answer _ (.reconcile _) (.error _) | .panic .. | .crash _ => False
  | _ => True

theorem Move.Unbroken.ends (h : m.Unbroken) (ends : m.Ends w) :
    ∃ o, m = .answer w (.reconcile o) (.ok ()) := by
  cases m with
  | answer w' c r =>
      cases c with
      | reconcile o =>
          cases r with
          | error e => exact h.elim
          | ok u =>
              cases ends
              exact ⟨o, rfl⟩
      | _ => cases ends
  | panic | crash => exact h.elim
  | _ => cases ends

end Courier.Relay.Rounds
