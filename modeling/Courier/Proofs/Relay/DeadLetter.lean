import Courier.Proofs.Relay.Custody

/-! # When an event is given up

Of a policy that allows a number of attempts an event gets just that number of pushes. It is
dispatched at the first that is accepted, and given up at the last that may be refused. Rounds of
other events and of other relays make no difference, as long as every round that is given the event
is written back before the next claim takes it: then the attempts in the row, the attempts in the
copy that the relay decides on, and the pushes of the event count alike.
-/

namespace Courier.Relay

open Courier.Outbox Courier.Storage Courier.Stream

/-- What a relay was told about the batch that it has in hand. -/
def Stage.answers : Stage → List (Except BrokerError Unit)
  | .accepted _ => [.ok ()]
  | .refused _ e | .decided _ e _ => [.error e]
  | .start | .claimed _ | .ended => []

theorem Stage.answers_length_le (st : Stage) : st.answers.length ≤ 1 := by
  cases st <;> simp [answers]

namespace Rounds

variable {cfg : Nat → Config} {s s' s₀ : Rounds} {m : Move} {w : Nat} {id most : Int}
  {trace : Trace} {t : Transition Rounds Move} {batch : List Claim} {r r' : Row}
  {errors : List BrokerError} {answers : List (Except BrokerError Unit)}

/-! ## What pushes make of a row -/

/-- What the row of an event says when all its pushes are written back. -/
inductive Verdict (most : Int) : List (Except BrokerError Unit) → Row → Prop
  | waiting {errors : List BrokerError} {r : Row} (few : errors.length < most)
      (status : r.status = Status.pending.text) (attempts : r.attempts = errors.length)
      (lastError : r.lastError = errors.getLast?.map BrokerError.message) :
      Verdict most (errors.map .error) r
  | dispatched {errors : List BrokerError} {r : Row} (few : errors.length < most)
      (status : r.status = Status.dispatched.text) (attempts : r.attempts = errors.length + 1)
      (lastError : r.lastError = none) : Verdict most (errors.map .error ++ [.ok ()]) r
  | dead {errors : List BrokerError} {r : Row} (all : errors.length = most)
      (status : r.status = Status.dead.text) (attempts : r.attempts = errors.length)
      (lastError : r.lastError = errors.getLast?.map BrokerError.message) :
      Verdict most (errors.map .error) r

/-- A round was given the event after a number of refused pushes, and was told `answers`. -/
structure Underway (most : Int) (answers pushes : List (Except BrokerError Unit)) (r : Row) :
    Prop where
  status : r.status = Status.processing.text
  few : r.attempts ≤ most
  pushes : ∃ errors : List BrokerError, pushes = errors.map .error ++ answers ∧
    r.attempts = errors.length + 1

/-- A write-back ends a push the way that it was answered. -/
theorem Underway.verdict {st : Stage} {o : Outcome} {pushes : List (Except BrokerError Unit)}
    {cfg : Config} {now : Instant} (shared : cfg.policy.maxAttempts = most)
    (may : st.May cfg (.reconcile o)) (underway : Underway most st.answers pushes r)
    (writes : o.Writes now r r') : Verdict most pushes r' := by
  obtain ⟨_, few, errors, rfl, attempts⟩ := underway
  cases writes with
  | dispatched =>
      cases may with
      | dispatched => exact .dispatched (by omega) rfl attempts rfl
  | @settled decisions lastError d _ mem live =>
      cases may with
      | @failed batch e t ds made =>
          have refused : errors.map .error ++ (Stage.decided batch e t).answers =
              (errors ++ [e]).map .error := by simp [Stage.answers]
          have last : some e.message = (errors ++ [e]).getLast?.map BrokerError.message := by simp
          have length : (errors ++ [e]).length = errors.length + 1 := List.length_append
          rw [refused]
          obtain ⟨c, _, decided⟩ := decided_of_mem made mem
          cases d with
          | retry id attempts' next =>
              obtain ⟨again, _, _, same⟩ := nextAttempt_of_decide?_retry decided
              have now : r.attempts = attempts' := live.2.2
              refine .waiting ?_ rfl ?_ last
              · omega
              · change r.attempts = _
                omega
          | dead id attempts' =>
              obtain ⟨exhausted, _, same⟩ := attempts_of_decide?_dead decided
              have now : r.attempts = attempts' := live.2.2
              refine .dead ?_ rfl ?_ last
              · omega
              · change r.attempts = _
                omega

inductive Standing (most : Int) (trace : Trace) (r : Row) : Prop
  | settled (free : Settled trace r.id) (verdict : Verdict most (pushesOf trace r.id) r)
  | held {w : Nat} {batch : List Claim} {c : Claim} (held : custodyOf trace r.id = .held w)
      (hand : (stageOf trace w).batch? = some batch) (mem : c ∈ batch)
      (live : r.Live c.id c.attempts)
      (underway : Underway most (stageOf trace w).answers (pushesOf trace r.id) r)
  | lost {answers : List (Except BrokerError Unit)} (lost : custodyOf trace r.id = .lost)
      (once : answers.length ≤ 1) (underway : Underway most answers (pushesOf trace r.id) r)

/-- Every row of the event stands, and before there is one nothing has happened to the event. -/
structure Tried (most id : Int) (trace : Trace) (s : Rounds) : Prop where
  row : ∀ r ∈ s.table.rows, r.id = id → Standing most trace r
  unborn : (∀ r ∈ s.table.rows, r.id ≠ id) → Settled trace id ∧ pushesOf trace id = []

/-! ## One step -/

section Step

variable (fresh : s₀.Fresh) (run : Run (Step cfg) s₀ trace s) (step : Step cfg s m s')
  (orderly : Orderly (trace ++ [⟨s, m, s'⟩]) id)

include fresh run step orderly

/-- A claim begins the next push of an event that waits. -/
theorem Verdict.claimed (hr : r ∈ s.table.rows) (hid : r.id = id) (given : m.gives id = true)
    (verdict : Verdict most (pushesOf trace id) r)
    (rewrites : (s.view m).Rewrites s.clock r r') :
    Standing most (trace ++ [⟨s, m, s'⟩]) r' := by
  have staged := staged_of_run fresh run
  have hs := (counted_of_run fresh run).ordered
  have hview := step.view staged
  have htaken := rewrites.id_eq.trans hid
  obtain ⟨w, limit, lease, batch, hm, c, hc, hcid⟩ := Move.gives_cases given
  have copied : c.attempts = r.attempts + 1 := by
    obtain ⟨row, hrow, _, _, rfl⟩ := hview.exists_due (c := c) (by rw [given_view, hm]; exact hc)
    rw [hs.eq_of_id_eq hrow hr (hcid.trans hid.symm)]
    rfl
  have due : r.Due s.now := by
    subst hid
    rw [← gives_view s] at given
    exact hview.due_of_gives hs (hs.find?_eq_some_iff.2 ⟨hr, rfl⟩) given
  have same : pushesOf (trace ++ [⟨s, m, s'⟩]) id = pushesOf trace id := by
    rw [pushesOf_append, hm]
    exact List.append_nil _
  have hstage : stageOf (trace ++ [⟨s, m, s'⟩]) w = .claimed batch := by
    rw [stageOf_append, hm]
    refine leads_answer.trans ?_
    cases batch with
    | nil => cases hc
    | cons => rfl
  have held : custodyOf (trace ++ [⟨s, m, s'⟩]) id = .held w := by
    rw [custodyOf_append, hm, ← hcid]
    exact Move.passes_claim hc _
  rw [← htaken] at held same
  generalize hfm : s.view m = fm at rewrites
  cases rewrites with
  | claimed =>
      refine .held held (by rw [hstage]; rfl) hc ⟨htaken.trans hcid.symm, rfl, copied.symm⟩ ?_
      rw [hstage, same, htaken]
      generalize pushesOf trace id = pushes at verdict
      cases verdict with
      | @waiting errors _ few status attempts =>
          refine ⟨rfl, ?_, errors, (List.append_nil _).symm, ?_⟩
          · rw [Row.claimed_attempts, attempts]
            omega
          · rw [Row.claimed_attempts, attempts]
      | dispatched _ status | dead _ status =>
          rcases due with ⟨due, _⟩ | ⟨due, _⟩ <;> cases Row.status_unique status due
  | written =>
      rw [hm] at hfm
      cases hfm
  | kept ungiven =>
      rw [← hfm, hid, gives_view, given] at ungiven
      cases ungiven

/-- What waits or has ended stays so until it is given out. -/
theorem Standing.settled_step (hr : r ∈ s.table.rows) (hid : r.id = id)
    (rewrites : (s.view m).Rewrites s.clock r r') (free : Settled trace id)
    (verdict : Verdict most (pushesOf trace id) r) : Standing most (trace ++ [⟨s, m, s'⟩]) r' := by
  by_cases given : m.gives id = true
  · exact verdict.claimed fresh run step orderly hr hid given rewrites
  · have ungiven := Bool.eq_false_iff.2 given
    obtain rfl := row_kept fresh run step orderly hid rewrites ungiven fun _ _ held =>
      absurd held free.unheld
    subst hid
    refine .settled (free.step ungiven) ?_
    rw [pushesOf_kept fresh run step orderly fun _ held => absurd held free.unheld]
    exact verdict

/-- Nothing happens to an event whose round broke off. -/
theorem Standing.lost_step (hid : r.id = id) (rewrites : (s.view m).Rewrites s.clock r r')
    (lost : custodyOf trace id = .lost) (once : answers.length ≤ 1)
    (underway : Underway most answers (pushesOf trace id) r) :
    Standing most (trace ++ [⟨s, m, s'⟩]) r' := by
  have unheld {w : Nat} : custodyOf trace id ≠ .held w := by
    simp [lost]
  have ungiven := ungiven_of_custody orderly (by simp [Settled, lost])
  obtain rfl := row_kept fresh run step orderly hid rewrites ungiven fun _ _ held =>
    absurd held unheld
  subst hid
  refine .lost ?_ once ?_
  · rw [custodyOf_append]
    exact (Move.passes_kept ungiven fun _ held => absurd held unheld).trans lost
  · rw [pushesOf_kept fresh run step orderly fun _ held => absurd held unheld]
    exact underway

/-- A round that goes on keeps the batch, and pushes it once. -/
theorem Underway.goes_on (held : custodyOf trace id = .held w) (going : ¬ m.Ends w)
    (hand : (stageOf trace w).batch? = some batch) {c : Claim} (hc : c ∈ batch) (hcid : c.id = id)
    (underway : Underway most (stageOf trace w).answers (pushesOf trace id) r) :
    (stageOf (trace ++ [⟨s, m, s'⟩]) w).batch? = some batch ∧
    Underway most (stageOf (trace ++ [⟨s, m, s'⟩]) w).answers
      (pushesOf (trace ++ [⟨s, m, s'⟩]) id) r := by
  have staged := staged_of_run fresh run
  rcases step.relay_cases w with ⟨others, _⟩ | ⟨_, free, _⟩ | ⟨call, a, k, rfl, asking, _⟩ |
    ⟨finished, _⟩
  · have same := pushesOf_kept fresh run step orderly fun w' held' => by
      cases held.symm.trans held'
      exact others
    rw [same, stageOf_append, leads_others others]
    exact ⟨hand, underway⟩
  · rw [staged.idle w free] at hand
    cases hand
  · have may := (staged.may asking a).1
    rw [stageOf_append, leads_answer, pushesOf_append]
    generalize stageOf trace w = st at hand underway may
    cases may with
    | report => exact ⟨hand, by simpa [Move.answered, Stage.next] using underway⟩
    | claim => cases hand
    | now batch e =>
        exact ⟨hand, by simpa [Move.answered, Stage.next, Stage.answers] using underway⟩
    | publish batch =>
        cases hand
        have pushed : (Move.answer w (.publish (batch.map messageOf)) a).answered id = some a := by
          refine if_pos (List.any_eq_true.2 ⟨messageOf c, List.mem_map_of_mem hc, ?_⟩)
          simpa [messageOf] using hcid
        obtain ⟨status, few, errors, unanswered, attempts⟩ := underway
        have unanswered : pushesOf trace id = errors.map .error :=
          unanswered.trans (List.append_nil _)
        rw [pushed, unanswered]
        cases a with
        | ok u => exact ⟨rfl, status, few, errors, rfl, attempts⟩
        | error e => exact ⟨rfl, status, few, errors, rfl, attempts⟩
    | dispatched | failed => exact absurd rfl going
    | abort => cases a
  · rcases finished with ends | ⟨result, done⟩
    · exact absurd ends going
    · have ended : stageOf trace w = .ended := staged.keeps w _ done
      rw [ended] at hand
      cases hand

/-- The round that was given the event goes on, ends with a write-back, or breaks off. -/
theorem Standing.held_step (shared : ∀ w, (cfg w).policy.maxAttempts = most) (hid : r.id = id)
    (rewrites : (s.view m).Rewrites s.clock r r') (held : custodyOf trace id = .held w)
    (hand : (stageOf trace w).batch? = some batch) {c : Claim} (hc : c ∈ batch)
    (live : r.Live c.id c.attempts)
    (underway : Underway most (stageOf trace w).answers (pushesOf trace id) r) :
    Standing most (trace ++ [⟨s, m, s'⟩]) r' := by
  have staged := staged_of_run fresh run
  have ungiven := ungiven_of_custody orderly (by simp [Settled, held])
  by_cases ends : m.Ends w
  · have same : pushesOf (trace ++ [⟨s, m, s'⟩]) id = pushesOf trace id := by
      rw [pushesOf_append, ends.answered]
      exact List.append_nil _
    rcases ends.passes id with ⟨⟨o, hm⟩, free⟩ | ⟨unwritten, lost⟩
    · rcases step.row_cases staged rewrites with ⟨given, _⟩ |
        ⟨w', batch', o', hm', _, may, _, writes⟩ | ⟨_, fenced⟩
      · rw [hid, ungiven] at given
        cases given
      · cases hm.symm.trans hm'
        refine .settled ?_ ?_
        · rw [rewrites.id_eq, hid, Settled, custodyOf_append, held]
          exact free
        · rw [rewrites.id_eq, hid, same]
          exact underway.verdict (shared w) may writes
      · -- a write-back of the batch fences no row that is live under it
        subst hm
        cases step with
        | answer asking effect =>
            obtain ⟨batch', hand', built⟩ := staged.writesBack asking
            cases hand.symm.trans hand'
            refine absurd live (fenced w o rfl c.token ?_)
            rw [built.tokens]
            exact List.mem_map_of_mem hc
    · obtain rfl := row_kept fresh run step orderly hid rewrites ungiven fun w' o held' => by
        cases held.symm.trans held'
        exact unwritten o
      subst hid
      refine .lost ?_ (stageOf trace w).answers_length_le ?_
      · rw [custodyOf_append, held]
        exact lost
      · rw [same]
        exact underway
  · obtain rfl := row_kept fresh run step orderly hid rewrites ungiven fun w' o held' => by
      cases held.symm.trans held'
      rintro rfl
      exact ends rfl
    subst hid
    obtain ⟨hand', underway'⟩ :=
      underway.goes_on fresh run step orderly held ends hand hc live.1.symm
    refine .held ?_ hand' hc live underway'
    rw [custodyOf_append, Move.passes_kept ungiven, held]
    intro w' held'
    cases held.symm.trans held'
    exact ends

end Step

/-! ## Runs -/

theorem Tried.start (fresh : s₀.Fresh) : Tried most id [] s₀ where
  row := by simp [fresh.fleet.table, Outbox.Table.empty]
  unborn := fun _ => ⟨rfl, rfl⟩

theorem Tried.step (positive : 1 ≤ most) (shared : ∀ w, (cfg w).policy.maxAttempts = most)
    (fresh : s₀.Fresh) (run : Run (Step cfg) s₀ trace s) (step : Step cfg s m s')
    (orderly : Orderly (trace ++ [⟨s, m, s'⟩]) id) (h : Tried most id trace s) :
    Tried most id (trace ++ [⟨s, m, s'⟩]) s' := by
  have hview := step.view (staged_of_run fresh run)
  have hs := (counted_of_run fresh run).ordered
  have untouched (absent : ∀ r ∈ s.table.rows, r.id ≠ id) :
      Settled (trace ++ [⟨s, m, s'⟩]) id ∧ pushesOf (trace ++ [⟨s, m, s'⟩]) id = [] := by
    obtain ⟨free, none⟩ := h.unborn absent
    have ungiven : m.gives id = false := by
      refine Bool.eq_false_iff.2 fun given => ?_
      rw [← gives_view s] at given
      obtain ⟨c, hc, hcid⟩ := Outbox.Table.gives_iff.1 given
      obtain ⟨r, hr, _, _, rfl⟩ := hview.exists_due hc
      exact absent r hr hcid
    refine ⟨free.step ungiven, ?_⟩
    rw [pushesOf_kept fresh run step orderly fun _ held => absurd held free.unheld, none]
  constructor
  · intro r' hr' hid'
    rcases hview.row_before hr' with ⟨r, hr, rewrites⟩ | ⟨e, n, payload, _, rfl⟩
    · have hid : r.id = id := rewrites.id_eq.symm.trans hid'
      cases h.row r hr hid with
      | settled free verdict =>
          rw [hid] at free verdict
          exact Standing.settled_step fresh run step orderly hr hid rewrites free verdict
      | held held hand mem live underway =>
          rw [hid] at held underway
          exact Standing.held_step fresh run step orderly shared hid rewrites held hand mem live
            underway
      | lost lost once underway =>
          rw [hid] at lost underway
          exact Standing.lost_step fresh run step orderly hid rewrites lost once underway
    · have absent : ∀ r ∈ s.table.rows, r.id ≠ id := by
        intro r hr same
        have bounded := hs.bounded r hr
        have new : s.table.lastId + 1 = id := hid'
        omega
      obtain ⟨free, none⟩ := untouched absent
      rw [← hid'] at free none
      refine .settled free ?_
      rw [none]
      exact @Verdict.waiting most [] _ positive rfl rfl rfl
  · intro unborn
    refine untouched fun r hr => ?_
    obtain ⟨r', hr', rewrites⟩ := hview.row_after hr
    rw [← rewrites.id_eq]
    exact unborn r' hr'

theorem tried_of_run (positive : 1 ≤ most) (shared : ∀ w, (cfg w).policy.maxAttempts = most)
    (fresh : s₀.Fresh) (run : Run (Step cfg) s₀ trace s) (orderly : Orderly trace id) :
    Tried most id trace s := by
  induction run with
  | refl => exact .start fresh
  | tail run last ih =>
      exact (ih (orderly_append.1 orderly).1).step positive shared fresh run last orderly

/-! ## Dead letters -/

/-- Refusals, then the first push that was accepted: there is one way to read pushes like that. -/
theorem refusals_unique {errors errors' : List BrokerError}
    {answers later : List (Except BrokerError Unit)} (once : answers.length ≤ 1)
    (h : errors.map .error ++ answers = errors'.map .error ++ .ok () :: later) :
    errors = errors' ∧ answers = [.ok ()] ∧ later = [] := by
  induction errors generalizing errors' with
  | nil =>
      obtain rfl : answers = _ := h
      have short : errors'.length = 0 ∧ later.length = 0 := by
        simp only [List.length_append, List.length_map, List.length_cons] at once
        omega
      obtain rfl := List.eq_nil_of_length_eq_zero short.1
      obtain rfl := List.eq_nil_of_length_eq_zero short.2
      exact ⟨rfl, rfl, rfl⟩
  | cons e errors ih =>
      cases errors' with
      | nil => cases (List.cons.inj h).1
      | cons e' errors' =>
          obtain ⟨same, rest⟩ := List.cons.inj h
          obtain ⟨rfl, hanswers, hlater⟩ := ih rest
          cases same
          exact ⟨rfl, hanswers, hlater⟩

/-- The pushes of an event decide what becomes of it.

* `dispatched`: the first push that is accepted is the last one, and one of those that the policy
  allows; once it is written back the event is dispatched.
* `dead`: there is no push after as many refusals as the policy allows; once the last of them is
  written back the event is dead, and its row keeps the words of that refusal.
* `waiting`: after fewer refusals the event waits for its next push, once the last of them is
  written back; before that, and in the next push, it is being processed.
* `processing`: an event with a write-back to come is being processed.
* `claims`: the event is not claimed more often than the policy allows. -/
structure Exact (most : Int) (trace : Trace) (r : Row) : Prop where
  dispatched : ∀ (errors : List BrokerError) later,
    pushesOf trace r.id = errors.map .error ++ .ok () :: later →
    later = [] ∧ errors.length + 1 ≤ most ∧ r.attempts = errors.length + 1 ∧
      (Settled trace r.id → r.status = Status.dispatched.text ∧ r.lastError = none)
  dead : ∀ errors : List BrokerError, pushesOf trace r.id = errors.map .error →
    most ≤ errors.length → errors.length = most ∧ r.attempts = most ∧
      (Settled trace r.id → r.status = Status.dead.text ∧
        r.lastError = errors.getLast?.map BrokerError.message)
  waiting : ∀ errors : List BrokerError, pushesOf trace r.id = errors.map .error →
    errors.length < most →
      (Settled trace r.id → r.status = Status.pending.text ∧ r.attempts = errors.length ∧
        r.lastError = errors.getLast?.map BrokerError.message) ∧
      (¬ Settled trace r.id → r.attempts = errors.length + 1 ∨ r.attempts = errors.length)
  processing : ¬ Settled trace r.id → r.status = Status.processing.text
  claims : claimsOf trace r.id ≤ most

theorem Verdict.attempts_le {pushes : List (Except BrokerError Unit)} (h : Verdict most pushes r) :
    r.attempts ≤ most := by
  cases h <;> omega

theorem Standing.attempts_le (h : Standing most trace r) : r.attempts ≤ most := by
  cases h with
  | settled _ verdict => exact verdict.attempts_le
  | held _ _ _ _ underway | lost _ _ underway => exact underway.few

theorem Standing.cases (h : Standing most trace r) :
    (Settled trace r.id ∧ Verdict most (pushesOf trace r.id) r) ∨
    (¬ Settled trace r.id ∧ ∃ answers, answers.length ≤ 1 ∧
      Underway most answers (pushesOf trace r.id) r) := by
  cases h with
  | settled free verdict => exact Or.inl ⟨free, verdict⟩
  | @held w _ _ held _ _ _ underway =>
      exact Or.inr ⟨fun free => free.unheld held, _, (stageOf trace w).answers_length_le, underway⟩
  | lost lost once underway =>
      refine Or.inr ⟨fun free => ?_, _, once, underway⟩
      rw [Settled, lost] at free
      cases free

theorem refusals_ne {later : List (Except BrokerError Unit)} {errors' : List BrokerError} :
    errors.map .error ≠ errors'.map .error ++ .ok () :: later := by
  intro h
  rw [← List.append_nil (errors.map _)] at h
  cases (refusals_unique (by simp) h).2.1

theorem refusals_injective {errors errors' : List BrokerError}
    (h : (errors.map .error : List (Except BrokerError Unit)) = errors'.map .error) :
    errors = errors' := (List.map_inj_right fun _ _ same => Except.error.inj same).1 h

theorem Standing.exact (h : Standing most trace r) (counted : r.attempts = claimsOf trace r.id) :
    Exact most trace r where
  dispatched := by
    intro errors later hpushes
    rcases h.cases with ⟨_, verdict⟩ | ⟨unsettled, answers, once, underway⟩
    · rw [hpushes] at verdict
      generalize hread : errors.map .error ++ .ok () :: later = pushes at verdict
      cases verdict with
      | waiting | dead => exact absurd hread.symm refusals_ne
      | dispatched few status attempts lastError =>
          have once : ([.ok ()] : List (Except BrokerError Unit)).length ≤ 1 := Nat.le_refl 1
          obtain ⟨rfl, _, rfl⟩ := refusals_unique once hread.symm
          exact ⟨rfl, few, attempts, fun _ => ⟨status, lastError⟩⟩
    · obtain ⟨_, few, refused, hread, attempts⟩ := underway
      obtain ⟨rfl, _, rfl⟩ := refusals_unique once (hread.symm.trans hpushes)
      exact ⟨rfl, attempts ▸ few, attempts, fun free => absurd free unsettled⟩
  dead := by
    intro errors hpushes all
    rcases h.cases with ⟨_, verdict⟩ | ⟨unsettled, answers, once, underway⟩
    · rw [hpushes] at verdict
      generalize hread : (errors.map .error : List (Except BrokerError Unit)) = pushes at verdict
      cases verdict with
      | waiting few =>
          obtain rfl := refusals_injective hread
          omega
      | dispatched => exact absurd hread refusals_ne
      | dead all status attempts lastError =>
          obtain rfl := refusals_injective hread
          exact ⟨all, attempts.trans all, fun _ => ⟨status, lastError⟩⟩
    · obtain ⟨_, few, refused, hread, attempts⟩ := underway
      have length := congrArg List.length (hpushes.symm.trans hread)
      simp only [List.length_append, List.length_map] at length
      exact ⟨by omega, by omega, fun free => absurd free unsettled⟩
  waiting := by
    intro errors hpushes few
    rcases h.cases with ⟨free, verdict⟩ | ⟨unsettled, answers, once, underway⟩
    · refine ⟨fun _ => ?_, fun unsettled => absurd free unsettled⟩
      rw [hpushes] at verdict
      generalize hread : (errors.map .error : List (Except BrokerError Unit)) = pushes at verdict
      cases verdict with
      | waiting _ status attempts lastError =>
          obtain rfl := refusals_injective hread
          exact ⟨status, attempts, lastError⟩
      | dispatched => exact absurd hread refusals_ne
      | dead all =>
          obtain rfl := refusals_injective hread
          omega
    · refine ⟨fun free => absurd free unsettled, fun _ => ?_⟩
      obtain ⟨_, _, refused, hread, attempts⟩ := underway
      have length := congrArg List.length (hpushes.symm.trans hread)
      simp only [List.length_append, List.length_map] at length
      omega
  processing := by
    intro unsettled
    rcases h.cases with ⟨free, _⟩ | ⟨_, _, _, underway⟩
    · exact absurd free unsettled
    · exact underway.status
  claims := counted ▸ h.attempts_le

/-- In every run an event whose rounds are written back before they are followed by another ends at
exactly the push that its policy names. -/
theorem dead_letter_exact (positive : 1 ≤ most) (shared : ∀ w, (cfg w).policy.maxAttempts = most)
    (fresh : s₀.Fresh) (run : Run (Step cfg) s₀ trace s) (orderly : Orderly trace id)
    (hr : r ∈ s.table.rows) (hid : r.id = id) : Exact most trace r := by
  have tried := tried_of_run positive shared fresh run orderly
  have counted := (counted_of_run fresh run).attempts r hr
  rw [claimsOf_project] at counted
  exact (tried.row r hr hid).exact counted

/-- An event is refused twice, by the pushes of two relays, and is dead after the second. -/
theorem dead_letter_exact_second : ∃ trace s r,
    Run (Step fun _ => patient 2) resting trace s ∧ Orderly trace 1 ∧ r ∈ s.table.rows ∧
    Exact 2 trace r ∧ Settled trace r.id ∧
    pushesOf trace 1 = [.error (.unavailable "down"), .error (.unavailable "gone")] ∧
    r.status = "dead" ∧ r.lastError = some "Broker unavailable: gone" := by
  -- the second attempt is the last, so the second refusal ends the event
  have buried : Sql.reconcile (.failed [.dead 1 2] "Broker unavailable: gone")
      (.ofNanos 3000000000) (Fleet.serving (Fleet.lone .processing 2 2000000000
        (some 33000000000) (some "Broker unavailable: down") 3000000000) 3000000000
        Fleet.heldTwice []).session =
      (.ok (), (Fleet.serving (Fleet.lone .dead 2 2000000000 none
        (some "Broker unavailable: gone") 3000000000) 3000000000 Fleet.heldTwice []).session) := rfl
  have run := (Run.refl : Run (Step fun _ => patient 2) resting [] _)
    |>.tail (show Step _ _ (.enqueue ⟨"check", .null, .ofNanos 0⟩ (.ok 1)) _ from .enqueue rfl)
    |>.tail (show Step _ _ (.begin 0) _ from .begin rfl)
    |>.tail (show Step _ _ (.answer 0 (.claim ..) (.ok [Fleet.loneClaim 1])) _
      from .answer rfl (.claim rfl))
    |>.tail (show Step _ _ (.answer 0 (.report _) ()) _ from .answer rfl (.report _ _))
    |>.tail (show Step _ _ (.answer 0 (.publish [⟨"check", "null", 1⟩])
        (.error (.unavailable "down"))) _ from .answer rfl (.publish _ _))
    |>.tail (show Step _ _ (.answer 0 .now (.ofNanos 0)) _ from .answer rfl .now)
    |>.tail (show Step _ _ (.answer 0 (.report _) ()) _ from .answer rfl (.report _ _))
    |>.tail (show Step _ _ (.answer 0 (.reconcile (.failed [.retry 1 1 (.ofNanos 2000000000)]
        "Broker unavailable: down")) (.ok ())) ⟨Fleet.serving (Fleet.lone .pending 1 2000000000 none
          (some "Broker unavailable: down") 0) 0 Fleet.heldOnce [], _⟩
      from .answer rfl (.reconcile rfl))
    |>.tail (show Step _ _ (.advance 3000000000) _ from .advance)
    |>.tail (show Step _ _ (.begin 1) _ from .begin rfl)
    |>.tail (show Step _ _ (.answer 1 (.claim ..) (.ok [Fleet.loneClaim 2]))
        ⟨Fleet.serving (Fleet.lone .processing 2 2000000000 (some 33000000000)
          (some "Broker unavailable: down") 3000000000) 3000000000 Fleet.heldTwice [], _⟩
      from .answer rfl (.claim rfl))
    |>.tail (show Step _ _ (.answer 1 (.report _) ()) _ from .answer rfl (.report _ _))
    |>.tail (show Step _ _ (.answer 1 (.publish [⟨"check", "null", 1⟩])
        (.error (.unavailable "gone"))) _ from .answer rfl (.publish _ _))
    |>.tail (show Step _ _ (.answer 1 .now (.ofNanos 3000000000)) _ from .answer rfl .now)
    |>.tail (show Step _ _ (.answer 1 (.report _) ()) _ from .answer rfl (.report _ _))
    |>.tail (show Step _ _ (.answer 1 (.report _) ()) _ from .answer rfl (.report _ _))
    |>.tail (show Step _ _ (.answer 1 (.reconcile (.failed [.dead 1 2]
        "Broker unavailable: gone")) (.ok ())) ⟨Fleet.serving (Fleet.lone .dead 2 2000000000 none
          (some "Broker unavailable: gone") 3000000000) 3000000000 Fleet.heldTwice [], _⟩
      from .answer rfl (.reconcile buried))
  have fresh : resting.Fresh := ⟨⟨rfl, fun _ => rfl⟩, fun _ => rfl⟩
  suffices orderly : Orderly _ 1 from
    ⟨_, _, _, run, orderly, List.mem_cons_self, dead_letter_exact (by decide) (fun _ => rfl) fresh
      run orderly List.mem_cons_self rfl, by decide, rfl, rfl, rfl⟩
  repeat' first | exact Orderly.nil | refine orderly_append.2 ⟨?_, by decide⟩

end Rounds

end Courier.Relay
