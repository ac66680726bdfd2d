import Courier.Proofs.Relay.Counting

/-! # Fencing by attempts

A write-back carries the tokens of the batch that it is about. It finds a row changed hands exactly
if some later claim gave the row out, since that claim counted one attempt more; then it leaves the
row alone, as it does once the claim was resolved.
-/

namespace Courier.Relay.Fleet

open Courier.Outbox Courier.Storage

variable {s s' s₀ : Fleet} {m : Move} {trace : Trace} {c : Claim}

/-! ## One write-back -/

namespace Counted

/-- The claim of a row that was given out `n` times before is its claim number `n + 1`. -/
theorem attempts_given (h : Counted trace s) (step : Step s m s') (hc : c ∈ m.given) :
    c.attempts = claimsOf trace c.id + 1 := by
  obtain ⟨r, hr, _, _, rfl⟩ := step.exists_due hc
  change r.attempts + 1 = _
  rw [h.attempts r hr]
  rfl

theorem find?_held (h : Counted trace s) {relay : Nat} {batch : List Claim}
    (held : batch ∈ s.memory relay) (hc : c ∈ batch) : ∃ r, s.table.find? c.id = some r := by
  obtain ⟨r, hr, hid, _⟩ := h.known c (h.mem_givenIn held hc)
  exact ⟨r, h.ordered.find?_eq_some_iff.2 ⟨hr, hid⟩⟩

/-- A batch that a relay remembers holds one claim of each of its events. -/
theorem held_ids_nodup (h : Counted trace s) {relay : Nat} {batch : List Claim}
    (held : batch ∈ s.memory relay) : (batch.map (·.id)).Nodup := by
  obtain ⟨t, ht, limit, lease, granted⟩ := h.memory relay batch held
  have hnodup := h.once t ht
  rwa [granted] at hnodup

end Counted

/-- An outcome of a batch that holds each event once is about a row exactly if the row is live under
the claim of it in the batch. -/
theorem live_iff_of_writesBack {batch : List Claim} {o : Outcome} (built : o.WritesBack batch)
    (once : (batch.map (·.id)).Nodup) (hc : c ∈ batch) {r : Row} (hid : r.id = c.id) :
    (∃ p ∈ o.tokens, r.Live p.1 p.2) ↔ r.Live c.id c.attempts := by
  rw [built.tokens]
  constructor
  · rintro ⟨p, hp, live⟩
    obtain ⟨d, hd, rfl⟩ := List.mem_map.1 hp
    have hsame : d.id = c.id := live.1.symm.trans hid
    rwa [← List.inj_on_of_nodup_map once hd hc hsame]
  · intro live
    exact ⟨c.token, List.mem_map_of_mem hc, live⟩

theorem Step.held {relay : Nat} {batch : List Claim} {o : Outcome} {answer : Answer Unit}
    (h : Step s (.reconcile relay batch o answer) s') : batch ∈ s.memory relay := by
  cases h with
  | reconcile held => exact held

/-- A write-back changes the row of a claim of its batch exactly if it is carried out and the row is
live under that claim. -/
theorem Step.reconcile_changes {relay : Nat} {batch : List Claim} {o : Outcome}
    {answer : Answer Unit} (h : Step s (.reconcile relay batch o answer) s')
    (counted : Counted trace s) (hc : c ∈ batch) :
    ∃ r, s.table.find? c.id = some r ∧
      (s'.table.find? c.id ≠ some r ↔ answer = .ok () ∧ r.Live c.id c.attempts) := by
  have hfind {r : Row} (hr : s.table.find? c.id = some r) := h.find?_eq counted.ordered hr
  cases h with
  | reconcile held built done =>
      obtain ⟨r, hr⟩ := counted.find?_held held hc
      have hid := (counted.ordered.find?_eq_some_iff.1 hr).2
      refine ⟨r, hr, ?_⟩
      rw [hfind hr, Ne, Option.some.injEq]
      cases answer with
      | error e => simp [Move.rewrite]
      | ok u =>
          have hlive := live_iff_of_writesBack built (counted.held_ids_nodup held) hc hid
          rw [← hlive]
          exact Outcome.applyTo_ne_iff.trans (by simp)

theorem Step.reconcile_others {relay : Nat} {batch : List Claim} {o : Outcome}
    {answer : Answer Unit} (h : Step s (.reconcile relay batch o answer) s')
    (counted : Counted trace s) {id : Int} (hid : ∀ c ∈ batch, c.id ≠ id) :
    s'.table.find? id = s.table.find? id := by
  have hcases := h.table_cases
  cases h with
  | reconcile held built done =>
      rcases hcases with ht | ⟨e, n, hm, _⟩
      · rw [ht, Table.find?_map fun _ => Move.rewrite_id]
        cases hr : s.table.find? id with
        | none => rfl
        | some r =>
            have hrid := (counted.ordered.find?_eq_some_iff.1 hr).2
            refine congrArg some ?_
            cases answer with
            | error e => rfl
            | ok u =>
                refine not_not.1 (mt Outcome.applyTo_ne_iff.1 ?_)
                rw [built.tokens]
                rintro ⟨p, hp, live⟩
                obtain ⟨c, hc, rfl⟩ := List.mem_map.1 hp
                exact hid c hc (live.1.symm.trans hrid)
      · cases hm

theorem Step.reconcile_answered {relay : Nat} {batch : List Claim} {o : Outcome}
    {answer : Answer Unit} (h : Step s (.reconcile relay batch o answer) s')
    (counted : Counted trace s) (up : Sql.Up s.session) : answer = .ok () := by
  cases h with
  | reconcile held built done =>
      have legible : ∀ d ∈ o.decisions, ∀ r ∈ s.table.rows, r.id = d.id → r.Legible := by
        intro d hd r hr own
        obtain ⟨c, hc, hid⟩ := built.decided hd
        exact counted.legible (counted.mem_givenIn held hc) hr (own.trans hid.symm)
      have hdone := Sql.reconcile_up o s.now up legible
      rwa [done] at hdone

/-! ## Resolving a claim -/

/-- A write-back of a batch that holds a claim changes the row of that claim. -/
def Resolves (t : Transition Fleet Move) (c : Claim) : Prop :=
  ∃ relay batch outcome answer, t.move = .reconcile relay batch outcome answer ∧ c ∈ batch ∧
    t.after.table.find? c.id ≠ t.before.table.find? c.id

/-- The row of a claim went on past it. -/
def Spent (s : Fleet) (c : Claim) : Prop :=
  ∃ r ∈ s.table.rows, r.id = c.id ∧ c.attempts ≤ r.attempts ∧ ¬ r.Live c.id c.attempts

/-- What is past stays past: only a claim makes a row live again, and that claim counts. -/
theorem Spent.step (h : s.Spent c) (step : Step s m s') : s'.Spent c := by
  obtain ⟨r, hr, hid, hle, dead⟩ := h
  obtain ⟨r', hr', rewrites⟩ := step.row_after hr
  refine ⟨r', hr', rewrites.id_eq.trans hid, ?_⟩
  cases rewrites with
  | claimed given =>
      refine ⟨?_, fun live => ?_⟩
      · rw [Row.claimed_attempts]
        omega
      · have hnow := live.2.2
        rw [Row.claimed_attempts] at hnow
        omega
  | written _ writes =>
      rw [writes.attempts_eq]
      exact ⟨hle, fun live => writes.idle live.2.1⟩
  | kept => exact ⟨hle, dead⟩

/-- A write-back that resolves a claim found its row live, and spends the claim. -/
theorem Step.resolves (h : Step s m s') (counted : Counted trace s)
    (resolves : Resolves ⟨s, m, s'⟩ c) : ¬ s.Spent c ∧ s'.Spent c := by
  obtain ⟨relay, batch, o, answer, rfl, hc, changed⟩ := resolves
  obtain ⟨r, hr, hiff⟩ := h.reconcile_changes counted hc
  obtain ⟨hmem, hid⟩ := counted.ordered.find?_eq_some_iff.1 hr
  dsimp only at changed
  rw [hr] at changed
  obtain ⟨rfl, live⟩ := hiff.1 changed
  constructor
  · rintro ⟨a, ha, haid, _, dead⟩
    rw [counted.ordered.eq_of_id_eq ha hmem (haid.trans hid.symm)] at dead
    exact dead live
  · obtain ⟨hmem', hid'⟩ := (h.ordered counted.ordered).find?_eq_some_iff.1
      (h.find?_eq counted.ordered hr)
    refine ⟨_, hmem', hid', ?_⟩
    have hwritten : o.applyTo (.ofNanos s.clock) r ≠ r := by
      intro same
      rw [h.find?_eq counted.ordered hr] at changed
      exact changed (congrArg some same)
    rcases o.applyTo_cases (.ofNanos s.clock) r with ⟨_, same⟩ | ⟨_, writes⟩
    · exact absurd same hwritten
    · change c.attempts ≤ (o.applyTo (.ofNanos s.clock) r).attempts ∧ _
      rw [writes.attempts_eq, live.2.2]
      exact ⟨Int.le_refl _, fun again => writes.idle again.2.1⟩

theorem resolved_once (fresh : s₀.Fresh) (run : Run Step s₀ trace s) (c : Claim) :
    trace.Pairwise fun t u => ¬ (Resolves t c ∧ Resolves u c) := by
  -- the claim is spent from the write-back on that resolves it
  have invariant : (trace.Pairwise fun t u => ¬ (Resolves t c ∧ Resolves u c)) ∧
      ((∃ t ∈ trace, Resolves t c) → s.Spent c) := by
    induction run with
    | refl => exact ⟨List.Pairwise.nil, by simp⟩
    | @tail trace s m s' run last ih =>
        obtain ⟨once, spent⟩ := ih
        have hcounted := counted fresh run
        constructor
        · refine List.pairwise_append.2 ⟨once, List.pairwise_singleton _ _, ?_⟩
          rintro t ht u hu ⟨first, second⟩
          rw [List.mem_singleton.1 hu] at second
          exact (last.resolves hcounted second).1 (spent ⟨t, ht, first⟩)
        · rintro ⟨t, ht, resolves⟩
          rcases List.mem_append.1 ht with ht | ht
          · exact (spent ⟨t, ht, resolves⟩).step last
          · rw [List.mem_singleton.1 ht] at resolves
            exact (last.resolves hcounted resolves).2
  exact invariant.1

/-! ## The fence -/

/-- What the attempts of rows and the tokens of claims keep in a run.

* `attempts`, `tokens`: rows count the claims that returned them, and no token is given out twice.
* `claimed`: a batch that is written back was given out by a claim before.
* `changed`: its write-back changes a row of it exactly if it is carried out while the row is live
  under the claim in the batch, which a later claim of the row ends.
* `others`: rows that the batch does not hold are left alone.
* `answered`: a server that is up carries the write-back out.
* `resolved`: no claim is resolved twice.
* `dispatched`: marking dispatched counts the live tokens that it is asked for, each once.
* `settled`: a decision is applied exactly if its token is live, also after other decisions. -/
structure Fencing (trace : Trace) (s : Fleet) : Prop where
  attempts : ∀ r ∈ s.table.rows, r.attempts = claimsOf trace r.id
  tokens : ((givenIn trace).map Claim.token).Nodup
  claimed : ∀ before written after relay batch outcome answer, trace = before ++ written :: after →
    written.move = .reconcile relay batch outcome answer →
    ∃ granted ∈ before, ∃ limit lease, granted.move = .claim relay limit lease (.ok batch)
  changed : ∀ before granted between written after relay relay' limit lease batch outcome answer,
    trace = before ++ granted :: between ++ written :: after →
    granted.move = .claim relay limit lease (.ok batch) →
    written.move = .reconcile relay' batch outcome answer → ∀ c ∈ batch,
    ∃ r, written.before.table.find? c.id = some r ∧
      (written.after.table.find? c.id ≠ some r ↔ answer = .ok () ∧ r.Live c.id c.attempts) ∧
      (r.attempts = c.attempts ↔ ∀ t ∈ between, t.move.gives c.id = false)
  others : ∀ before written after relay batch outcome answer, trace = before ++ written :: after →
    written.move = .reconcile relay batch outcome answer → ∀ id, (∀ c ∈ batch, c.id ≠ id) →
    written.after.table.find? id = written.before.table.find? id
  answered : ∀ before written after relay batch outcome answer,
    trace = before ++ written :: after → written.move = .reconcile relay batch outcome answer →
    Sql.Up written.before.session → answer = .ok ()
  resolved : ∀ c, trace.Pairwise fun t u => ¬ (Resolves t c ∧ Resolves u c)
  dispatched : ∀ session : Session, session.tables.outbox = s.table → ∀ tokens now,
    Sql.Answers (Sql.markDispatched tokens now) session (s.table.liveTokens tokens).length
  settled : ∀ (session session' : Session) (decisions : List Decision) (lastError : String)
    (now : Instant), session.tables.outbox = s.table →
    (decisions.forM fun d => Sql.settleOrReport d lastError now) session = (.ok (), session') →
    ∀ d, Sql.Answers (Sql.settle d lastError now) session'
      (decide (∃ r ∈ session'.tables.outbox.rows, r.Live d.id d.attempts))

/-- A later claim of a row shows in its attempts, and nothing else does. -/
theorem attempts_eq_iff_unclaimed (fresh : s₀.Fresh) {before between after : Trace}
    {granted written : Transition Fleet Move}
    (run : Run Step s₀ (before ++ granted :: between ++ written :: after) s)
    (hc : c ∈ granted.move.given) {r : Row} (hr : written.before.table.find? c.id = some r) :
    r.attempts = c.attempts ↔ ∀ t ∈ between, t.move.gives c.id = false := by
  obtain ⟨early, _, _⟩ := run.around
  obtain ⟨left, first, _⟩ := early.around
  have hgives : granted.move.gives c.id = true := Table.gives_iff.2 ⟨c, hc, rfl⟩
  have hcounted := counted fresh early
  obtain ⟨hmem, hid⟩ := hcounted.ordered.find?_eq_some_iff.1 hr
  have hrow : r.attempts = claimsOf before c.id + 1 + claimsOf between c.id := by
    rw [hcounted.attempts r hmem, hid, claimsOf_append, claimsOf_cons, if_pos hgives]
    omega
  rw [(counted fresh left).attempts_given first hc, hrow, ← claimsOf_eq_zero]
  omega

theorem ordered_of_decisions {session session' : Session} {decisions : List Decision}
    {lastError : String} {now : Instant} (h : session.tables.outbox.Ordered)
    (done : (decisions.forM fun d => Sql.settleOrReport d lastError now) session =
      (.ok (), session')) : session'.tables.outbox.Ordered := by
  rw [Sql.forM_settleOrReport_ok done, Tables.withOutbox_outbox, Table.foldl_settle]
  exact h.rewrite fun r => Outcome.applyTo_id (o := .failed decisions lastError)

/-- Every run of relays is fenced by the attempts of the rows. -/
theorem fenced_by_attempts (fresh : s₀.Fresh) (run : Run Step s₀ trace s) : Fencing trace s where
  attempts := (counted fresh run).attempts
  tokens := (counted fresh run).tokens
  claimed := by
    intro before written after relay batch outcome answer htrace hmove
    subst htrace
    obtain ⟨left, step, _⟩ := run.around
    rw [hmove] at step
    exact (counted fresh left).memory relay batch step.held
  changed := by
    intro before granted between written after relay relay' limit lease batch outcome answer
      htrace hgranted hwritten c hc
    subst htrace
    have hgiven : c ∈ granted.move.given := by rwa [hgranted]
    obtain ⟨early, step, _⟩ := run.around
    rw [hwritten] at step
    obtain ⟨r, hr, hiff⟩ := step.reconcile_changes (counted fresh early) hc
    exact ⟨r, hr, hiff, attempts_eq_iff_unclaimed fresh run hgiven hr⟩
  others := by
    intro before written after relay batch outcome answer htrace hmove id hid
    subst htrace
    obtain ⟨left, step, _⟩ := run.around
    rw [hmove] at step
    exact step.reconcile_others (counted fresh left) hid
  answered := by
    intro before written after relay batch outcome answer htrace hmove up
    subst htrace
    obtain ⟨left, step, _⟩ := run.around
    rw [hmove] at step
    exact step.reconcile_answered (counted fresh left) up
  resolved := resolved_once fresh run
  dispatched := by
    intro session same tokens now
    have hcount := (counted fresh run).ordered.countP_liveIn tokens
    rw [← hcount, ← same]
    exact Sql.markDispatched_answers tokens now session
  settled := by
    intro session session' decisions lastError now same done d
    have hs : session.tables.outbox.Ordered := by
      rw [same]
      exact (counted fresh run).ordered
    have hsettle := (ordered_of_decisions hs done).settle_snd d lastError now
    rw [show decide _ = (session'.tables.outbox.settle d lastError now).2 from
      Bool.eq_iff_iff.2 (by rw [hsettle, decide_eq_true_iff])]
    exact Sql.settle_answers d lastError now session'

/-- A lease runs out, the event is claimed again, and both relays write back. -/
theorem fenced_by_attempts_overtaken :
    ∃ trace s, Fencing trace s ∧ trace.length = 6 ∧ claimsOf trace 1 = 2 ∧
      s.table.count .dispatched = 1 := by
  have run := (Run.refl : Run Step (serving .empty 0 (fun _ => []) []) [] _)
    |>.tail (show Step _ (.enqueue ⟨"check", .null, .ofNanos 0⟩ (.ok 1))
      (serving (lone .pending 0 0 none none 0) 0 (fun _ => []) []) from .enqueue rfl)
    |>.tail (show Step _ (.claim 0 1 ⟨5⟩ (.ok [loneClaim 1]))
      (serving (lone .processing 1 0 (some 5) none 0) 0 heldOnce []) from .claim rfl)
    |>.tail (show Step _ (.advance 5)
      (serving (lone .processing 1 0 (some 5) none 0) 5 heldOnce []) from .advance)
    |>.tail (show Step _ (.claim 1 1 ⟨5⟩ (.ok [loneClaim 2]))
      (serving (lone .processing 2 0 (some 10) none 5) 5 heldTwice []) from .claim rfl)
    -- the first relay writes back late: the row stays with the second
    |>.tail (show Step _ (.reconcile 0 [loneClaim 1] (.dispatched [loneClaim 1]) (.ok ()))
      (serving (lone .processing 2 0 (some 10) none 5) 5 heldTwice
        [.line .warn "Some dispatched events lost their lease"
          [("expected", .number 1), ("updated", .number 0)]])
      from .reconcile (by simp [serving, heldTwice, heldOnce]) .dispatched rfl)
    |>.tail (show Step _ (.reconcile 1 [loneClaim 2] (.dispatched [loneClaim 2]) (.ok ()))
      (serving (lone .dispatched 2 0 none none 5) 5 heldTwice
        [.line .warn "Some dispatched events lost their lease"
          [("expected", .number 1), ("updated", .number 0)]])
      from .reconcile (by simp [serving, heldTwice]) .dispatched rfl)
  exact ⟨_, _, fenced_by_attempts ⟨rfl, fun _ => rfl⟩ run, rfl, by decide, by decide⟩

end Courier.Relay.Fleet
