import Courier.Proofs.Relay.Counting

/-! # Leases exclude

From a claim on its row is held until the lease ends, was put back by a write-back of that very
claim, or is finished. So within the lease the event is given out again only after it was put back,
and not before the time that the write-back set.
-/

namespace Courier.Relay.Fleet

open Courier.Outbox Courier.Storage

variable {s s' s₀ : Fleet} {m : Move} {trace : Trace} {c : Claim} {ending : Int} {r r' : Row}

/-- A write-back puts the event of a claim back to wait: it decides so on the claim, and the row is
live under the claim. -/
def PutsBack (t : Transition Fleet Move) (c : Claim) (next : Instant) : Prop :=
  ∃ relay batch decisions lastError,
    t.move = .reconcile relay batch (.failed decisions lastError) (.ok ()) ∧
    .retry c.id c.attempts next ∈ decisions ∧
    ∃ r, t.before.table.find? c.id = some r ∧ r.Live c.id c.attempts ∧
      t.after.table.find? c.id = some (r.retried next lastError t.before.now)

/-! ## Steps -/

theorem Step.find?_rewrites (h : Step s m s') (hs : s.table.Ordered) {id : Int}
    (hr : s.table.find? id = some r) :
    ∃ r', s'.table.find? id = some r' ∧ m.Rewrites s.clock r r' :=
  ⟨_, h.find?_eq hs hr, m.rewrites s.clock r⟩

theorem Step.rewrites_of_id_eq (h : Step s m s') (hs : s.table.Ordered) (hr : r ∈ s.table.rows)
    (hr' : r' ∈ s'.table.rows) (hid : r'.id = r.id) : m.Rewrites s.clock r r' := by
  obtain ⟨a, ha, rewrites⟩ := h.find?_rewrites hs (hs.find?_eq_some_iff.2 ⟨hr, rfl⟩)
  obtain ⟨hmem, haid⟩ := (h.ordered hs).find?_eq_some_iff.1 ha
  rwa [(h.ordered hs).eq_of_id_eq hr' hmem (hid.trans haid.symm)]

theorem Step.due_of_gives (h : Step s m s') (hs : s.table.Ordered) {id : Int}
    (hr : s.table.find? id = some r) (hgives : m.gives id = true) : r.Due s.now := by
  obtain ⟨hmem, hid⟩ := hs.find?_eq_some_iff.1 hr
  obtain ⟨c, hc, hcid⟩ := Outbox.Table.gives_iff.1 hgives
  obtain ⟨a, ha, due, _, rfl⟩ := h.exists_due hc
  rwa [hs.eq_of_id_eq hmem ha (hid.trans hcid.symm)]

/-! ## The course of a claim -/

/-- What became of the row of a claim whose lease has not ended: it is held under the claim, waits
to be claimed again, was open to claims since the time that the write-back set, or is finished. -/
inductive Course (c : Claim) (ending : Int) (seen : Trace) (s : Fleet) (r : Row) : Prop
  | held (live : r.Live c.id c.attempts) (lease : r.processingUntil = some (.ofNanos ending))
  | waits {t : Transition Fleet Move} {next : Instant} (mem : t ∈ seen) (back : PutsBack t c next)
      (pending : r.status = Status.pending.text) (time : r.nextAttemptAt = next)
  | opened {t : Transition Fleet Move} {next : Instant} (mem : t ∈ seen) (back : PutsBack t c next)
      (time : next ≤ s.now)
  | finished (status : r.status = Status.dispatched.text ∨ r.status = Status.dead.text)

namespace Course

variable {seen : Trace}

/-- A row that is given out within the lease was put back for that time. -/
theorem due (h : Course c ending seen s r) (within : s.clock < ending) (due : r.Due s.now) :
    ∃ t ∈ seen, ∃ next, PutsBack t c next ∧ next ≤ s.now := by
  cases h with
  | held live lease =>
      obtain ⟨ends, hends, lapsed⟩ := due.of_processing live.2.1
      rw [lease, Option.some.injEq] at hends
      subst hends
      have := Instant.ofNanos_le.1 lapsed
      omega
  | waits mem back pending time =>
      have open' := due.of_pending pending
      rw [time] at open'
      exact ⟨_, mem, _, back, open'⟩
  | opened mem back time => exact ⟨_, mem, _, back, time⟩
  | finished status =>
      rcases due with ⟨due, _⟩ | ⟨due, _⟩ <;>
        rcases status with status | status <;> cases Row.status_unique status due

/-- A write-back that carries a token of a held row is about the claim that holds it, and puts the
event back or finishes it. -/
theorem written {relay : Nat} {batch : List Claim} {o : Outcome} {u : Unit}
    (step : Step s (.reconcile relay batch o (.ok u)) s') (live : r.Live c.id c.attempts)
    (hr : s.table.find? c.id = some r) (hr' : s'.table.find? c.id = some r')
    (writes : o.Writes s.now r r') :
    Course c ending (seen ++ [⟨s, .reconcile relay batch o (.ok u), s'⟩]) s' r' := by
  have last {t : Transition Fleet Move} : t ∈ seen ++ [t] := by simp
  cases writes with
  | dispatched => exact .finished (Or.inl rfl)
  | @settled decisions lastError d _ mem token =>
      cases d with
      | dead => exact .finished (Or.inr rfl)
      | retry id attempts next =>
          obtain rfl : id = c.id := token.1.symm.trans live.1
          obtain rfl : attempts = c.attempts := token.2.2.symm.trans live.2.2
          refine .waits last ?_ rfl rfl
          exact ⟨relay, batch, decisions, lastError, rfl, mem, r, hr, live, hr'⟩

/-- Every step forward within the lease keeps the row on its course. -/
theorem step (h : Course c ending seen s r) (within : s.clock < ending) (hs : s.table.Ordered)
    (hr : s.table.find? c.id = some r) (step : Step s m s') (forward : s.clock ≤ s'.clock) :
    ∃ r', s'.table.find? c.id = some r' ∧ Course c ending (seen ++ [⟨s, m, s'⟩]) s' r' := by
  obtain ⟨r', hr', rewrites⟩ := step.find?_rewrites hs hr
  refine ⟨r', hr', ?_⟩
  have hid := (hs.find?_eq_some_iff.1 hr).2
  have later : s.now ≤ s'.now := Instant.ofNanos_le.2 forward
  have keep {t : Transition Fleet Move} (mem : t ∈ seen) : t ∈ seen ++ [⟨s, m, s'⟩] :=
    List.mem_append_left _ mem
  cases rewrites with
  | @claimed relay limit lease claims _ given =>
      rw [hid] at given
      obtain ⟨t, mem, next, back, time⟩ := h.due within (step.due_of_gives hs hr given)
      exact .opened (keep mem) back (le_trans time later)
  | written live writes =>
      obtain ⟨p, _, live⟩ := live
      cases h with
      | held live _ => exact written step live hr hr' writes
      | waits mem back pending time =>
          cases Row.status_unique pending live.2.1
      | opened mem back time => exact .opened (keep mem) back (le_trans time later)
      | finished status =>
          rcases status with status | status <;> cases Row.status_unique status live.2.1
  | kept =>
      cases h with
      | held live lease => exact .held live lease
      | waits mem back pending time => exact .waits (keep mem) back pending time
      | opened mem back time => exact .opened (keep mem) back (le_trans time later)
      | finished status => exact .finished status

end Course

/-- The rows that a claim gives out are live under it until its lease ends. -/
theorem Step.claim_leases {relay limit : Nat} {lease : Span} {batch : List Claim}
    (h : Step s (.claim relay limit lease (.ok batch)) s') (hs : s.table.Ordered) (hc : c ∈ batch) :
    ∃ r, s'.table.find? c.id = some r ∧ r.Live c.id c.attempts ∧
      r.processingUntil = some (.ofNanos (s.clock + lease.nanos)) := by
  obtain ⟨a, ha, _, _, rfl⟩ := h.exists_due hc
  have hgives : Outbox.Table.gives batch a.id = true := Outbox.Table.gives_iff.2 ⟨_, hc, rfl⟩
  have hfind := h.find?_eq hs (hs.find?_eq_some_iff.2 ⟨ha, rfl⟩)
  rw [Move.rewrite, if_pos hgives] at hfind
  exact ⟨_, hfind, ⟨rfl, rfl, rfl⟩, rfl⟩

theorem Step.claim_holds {relay limit : Nat} {lease : Span} {batch : List Claim}
    (h : Step s (.claim relay limit lease (.ok batch)) s') (hs : s.table.Ordered) (hc : c ∈ batch) :
    ∃ r, s'.table.find? c.id = some r ∧ Course c (s.clock + lease.nanos) [] s' r := by
  obtain ⟨r, hr, live, lease⟩ := h.claim_leases hs hc
  exact ⟨r, hr, .held live lease⟩

/-- A run that ends within the lease keeps the row on its course. -/
theorem Course.run (start : Course c ending [] s r) (hs : s.table.Ordered)
    (hr : s.table.find? c.id = some r) (run : Run Step s trace s')
    (forward : Ascending Fleet.clock trace) (within : s'.clock < ending) :
    ∃ r', s'.table.find? c.id = some r' ∧ Course c ending trace s' r' := by
  induction run with
  | refl => exact ⟨r, hr, start⟩
  | tail run last ih =>
      obtain ⟨earlier, now⟩ := forward.last
      -- the clock does not go back, so the run before the last step was within the lease too
      obtain ⟨a, ha, course⟩ := ih earlier (Int.lt_of_le_of_lt now within)
      exact course.step (Int.lt_of_le_of_lt now within) (ordered_of_run run hs) ha last now

/-! ## Exclusion -/

/-- A claim is held in a run: the move at a place gave it out under a lease that has not ended, and
nothing has written it back since. -/
def Holds (trace : Trace) (s : Fleet) (place : Nat) (c : Claim) : Prop :=
  ∃ before granted after relay limit lease batch,
    trace = before ++ granted :: after ∧ before.length = place ∧
    granted.move = .claim relay limit lease (.ok batch) ∧ c ∈ batch ∧
    s.clock < granted.before.clock + lease.nanos ∧ ∀ t ∈ after, c.token ∉ t.move.written

/-- Within its lease a claim gives way only to a write-back of its own. -/
theorem putsBack_between (fresh : s₀.Fresh) {before between after : Trace}
    {first second : Transition Fleet Move} {relay limit : Nat} {lease : Span} {batch : List Claim}
    {d : Claim} (run : Run Step s₀ (before ++ first :: between ++ second :: after) s)
    (forward : Ascending Fleet.clock (before ++ first :: between ++ second :: after))
    (claimed : first.move = .claim relay limit lease (.ok batch)) (hc : c ∈ batch)
    (hd : d ∈ second.move.given) (hid : d.id = c.id)
    (within : second.before.clock < first.before.clock + lease.nanos) :
    ∃ t ∈ between, ∃ next, PutsBack t c next ∧ next ≤ second.before.now := by
  obtain ⟨left, granted, mid, last, _⟩ := run.between
  rw [claimed] at granted
  have hs := (counted fresh left).ordered
  obtain ⟨r, hr, held⟩ := granted.claim_holds hs hc
  obtain ⟨r', hr', course⟩ := held.run (granted.ordered hs) hr mid forward.between.1 within
  have hs' := ordered_of_run mid (granted.ordered hs)
  have hgives : second.move.gives c.id = true := Outbox.Table.gives_iff.2 ⟨d, hd, hid⟩
  exact course.due within (last.due_of_gives hs' hr' hgives)

theorem PutsBack.written {t : Transition Fleet Move} {next : Instant} (h : PutsBack t c next) :
    c.token ∈ t.move.written := by
  obtain ⟨relay, batch, decisions, lastError, hmove, mem, _⟩ := h
  rw [hmove]
  exact List.mem_map.2 ⟨_, mem, rfl⟩

theorem Holds.not_lt (fresh : s₀.Fresh) (run : Run Step s₀ trace s)
    (forward : Ascending Fleet.clock trace) {i j : Nat} {d : Claim} (hi : Holds trace s i c)
    (hj : Holds trace s j d) (hid : c.id = d.id) : ¬ i < j := by
  intro hlt
  obtain ⟨before, first, late, relay, limit, lease, batch, rfl, rfl, claimed, hc, within, none⟩ := hi
  obtain ⟨early, second, after, relay', limit', lease', batch', htrace, rfl, claimed', hd, _, _⟩ :=
    hj
  have hgiven : d ∈ second.move.given := by rwa [claimed']
  rcases List.append_eq_append_iff.1 htrace with ⟨between, hearly, hlate⟩ | ⟨between, hbefore, _⟩
  · cases between with
    -- with nothing between them both claims would be made at one place
    | nil => simp [hearly] at hlt
    | cons first' between =>
        obtain ⟨rfl, rfl⟩ := List.cons.inj hlate
        have hsplit : before ++ first :: (between ++ second :: after) =
            before ++ first :: between ++ second :: after := by simp
        rw [List.append_eq, hsplit] at run forward
        obtain ⟨_, _, _, last, rest⟩ := run.between
        have hclock := (rest.head last).measure_le forward.between.2
        obtain ⟨t, ht, next, back, _⟩ := putsBack_between fresh run forward claimed hc hgiven
          hid.symm (Int.lt_of_le_of_lt hclock within)
        exact none t (List.mem_append_left _ ht) back.written
  · rw [hbefore, List.length_append] at hlt
    omega

end Courier.Relay.Fleet
