import Courier.Proofs.Dispatch.Batches

/-! # How late a worker may come to a delivery

A worker asks for the marker of a delivery when it comes to it, which may be as many POSTs after it
fetched the batch as there are deliveries before that one. Nothing else takes time, so that this is
the only way to be late.
-/

namespace Courier.Dispatch.Batches

open Courier.Stream

variable {cfg : Nat → Config} {timeout : Span} {count : Nat} {s s' : Batches} {m : Move} {w : Nat}
  {d : Delivery} {key : String}

/-! ## How late a worker may be -/

/-- How late it may be for a worker that handled `k` deliveries of its batch before the present
one. -/
def Pace (timeout : Span) (fetched : Int) (k : Nat) (clock : Int) (since : Option Int) :
    Stage → Prop
  | .start => clock ≤ fetched + (k * timeout.nanos : Nat)
  | .granted => ∃ start, since = some start ∧ start ≤ fetched + (k * timeout.nanos : Nat) ∧
      clock ≤ start + timeout.nanos
  | _ => clock ≤ fetched + ((k + 1) * timeout.nanos : Nat)

theorem Pace.spent {fetched clock : Int} {k : Nat} {since : Option Int} {st : Stage}
    (h : Pace timeout fetched k clock since st) :
    clock ≤ fetched + ((k + 1) * timeout.nanos : Nat) := by
  rw [Nat.succ_mul]
  cases st with
  | start =>
      unfold Pace at h
      omega
  | granted =>
      obtain ⟨start, _, begun, within⟩ := h
      omega
  | taken | recorded | known | ended =>
      unfold Pace at h
      rwa [Nat.succ_mul] at h

/-- A turn takes no time: a POST begins when the marker is given, and ends when it is answered. -/
theorem Pace.turn {wcfg : Config} {fetched clock : Int} {k : Nat} {since : Option Int}
    {st st' : Stage} {c : Call} {r : c.Reply} (h : Pace timeout fetched k clock since st)
    (turn : Turn wcfg d st c r st') :
    Pace timeout fetched k clock (Crew.sinceAfter clock since c r) st' := by
  have spent := h.spent
  cases turn with
  | report => exact h
  | @begin m event carries r =>
      cases r with
      | error e => exact spent
      | ok marker =>
          cases marker with
          | none =>
              refine ⟨clock, rfl, h, ?_⟩
              omega
          | some marker => cases marker <;> exact spent
  | @post m event carries r => cases r <;> exact spent
  | record => exact spent
  | @drop _ r | @finish r | @«repeat» r => cases r <;> exact spent

/-- The clock goes on only as far as a POST allows. -/
theorem Pace.waits {wcfg : Config} {g : Handling} {fetched now clock : Int} {k : Nat} {st : Stage}
    (h : Pace timeout fetched k now g.since st) (handles : Handles wcfg g.delivery g.rest st)
    (posts : ∃ request, upcoming g.rest = some (.send request))
    (within : ∀ start ∈ g.since, clock ≤ start + timeout.nanos) :
    Pace timeout fetched k clock g.since st := by
  obtain ⟨request, next⟩ := posts
  cases handles.granted_of_upcoming next
  obtain ⟨start, since, begun, _⟩ := h
  exact ⟨start, since, begun, within start since⟩

/-- No worker is later than the POSTs of the deliveries before the present one allow. -/
structure OnTime (cfg : Nat → Config) (timeout : Span) (count : Nat) (s : Batches) : Prop where
  free : ∀ w, s.workers w = none → s.later w ≠ [] → ∃ k : Nat,
    k + (s.later w).length ≤ count ∧ s.clock ≤ s.fetched w + (k * timeout.nanos : Nat)
  busy : ∀ w g, s.workers w = some g → ∃ st, Handles (cfg w) g.delivery g.rest st ∧ ∃ k : Nat,
    k + 1 + (s.later w).length ≤ count ∧ Pace timeout (s.fetched w) k s.clock g.since st

theorem restAfter_sublist (later : Nat → List Delivery) (m : Crew.Move) (w : Nat) :
    (restAfter later m w).Sublist (later w) := by
  cases m with
  | take v d =>
      by_cases hv : w = v
      · subst hv
        simp only [restAfter, Function.update_self]
        exact List.tail_sublist _
      · simp only [restAfter, Function.update_of_ne hv]
        exact List.Sublist.refl _
  | crash v =>
      by_cases hv : w = v
      · subst hv
        simp only [restAfter, Function.update_self]
        exact List.nil_sublist _
      · simp only [restAfter, Function.update_of_ne hv]
        exact List.Sublist.refl _
  | _ => exact List.Sublist.refl _

namespace OnTime

theorem start (fresh : s.Fresh) : OnTime cfg timeout count s where
  free := by
    intro w _ more
    exact absurd (fresh.later w) more
  busy := by
    intro w g hg
    cases (fresh.workers w).symm.trans hg

theorem fetch (h : OnTime cfg timeout count s) (counts : ∀ w, (cfg w).readCount ≤ count)
    {batch : List Delivery} (step : Step cfg timeout s (.fetch w batch) s') :
    OnTime cfg timeout count s' := by
  cases step with
  | fetch free handled given =>
      constructor
      · intro v hv more
        by_cases same : v = w
        · subst same
          refine ⟨0, ?_, ?_⟩
          · simp only [Function.update_self]
            have := (fetch_told given).1
            have := counts v
            omega
          · simp
        · simp only [Function.update_of_ne same] at more ⊢
          exact h.free v hv more
      · intro v g hg
        have other : v ≠ w := by
          rintro rfl
          cases free.symm.trans hg
        simp only [Function.update_of_ne other]
        exact h.busy v g hg

/-- Who is free with deliveries left was so before, or ended a handling that was on time. -/
theorem free_work (h : OnTime cfg timeout count s) {m : Crew.Move} {crew : Crew}
    (step : Crew.Step cfg s.toCrew m crew) (orderly : Orderly timeout s m)
    (hw : crew.workers w = none) (more : restAfter s.later m w ≠ []) :
    ∃ k : Nat, k + (restAfter s.later m w).length ≤ count ∧
      crew.clock ≤ s.fetched w + (k * timeout.nanos : Nat) := by
  cases step with
  | append => exact h.free w hw more
  | @take v d =>
      by_cases hv : w = v
      · subst hv
        simp at hw
      · simp only [restAfter, Function.update_of_ne hv] at hw more ⊢
        exact h.free w hw more
  | @answer v =>
      by_cases hv : w = v
      · subst hv
        simp at hw
      · simp only [Function.update_of_ne hv] at hw
        exact h.free w hw more
  | @finish v d result since done =>
      by_cases hv : w = v
      · subst hv
        obtain ⟨st, _, k, few, pace⟩ := h.busy w _ done
        exact ⟨k + 1, few, pace.spent⟩
      · simp only [Function.update_of_ne hv] at hw
        exact h.free w hw more
  | @crash v =>
      by_cases hv : w = v
      · subst hv
        simp [restAfter] at more
      · simp only [restAfter, Function.update_of_ne hv] at hw more ⊢
        exact h.free w hw more
  | lapse => exact orderly.elim
  | advance =>
      have waits := orderly.2 w
      unfold Waits at waits
      rw [hw] at waits
      exact absurd waits more

theorem busy_work (h : OnTime cfg timeout count s) {m : Crew.Move} {crew : Crew}
    (step : Crew.Step cfg s.toCrew m crew) (orderly : Orderly timeout s m) :
    ∀ w g, crew.workers w = some g → ∃ st, Handles (cfg w) g.delivery g.rest st ∧ ∃ k : Nat,
      k + 1 + (restAfter s.later m w).length ≤ count ∧
        Pace timeout (s.fetched w) k crew.clock g.since st := by
  refine step.stages h.busy ?_ ?_ ?_
  · rintro w g st hg handles ⟨k, few, pace⟩
    have shorter := (restAfter_sublist s.later m w).length_le
    refine ⟨k, by omega, ?_⟩
    cases step with
    | advance =>
        have waits := orderly.2 w
        unfold Waits at waits
        rw [hg] at waits
        exact pace.waits handles waits.1 waits.2
    | _ => exact pace
  -- the next delivery begins when the one before it ended
  · rintro w d rfl mem
    have next := orderly.next rfl
    have left : s.later w ≠ [] := by
      rw [next]
      exact List.cons_ne_nil _ _
    cases step with
    | take free =>
        obtain ⟨k, few, within⟩ := h.free w free left
        rw [next, List.length_cons] at few
        refine ⟨k, ?_, within⟩
        simp only [restAfter, Function.update_self]
        omega
  · rintro w c r k d since st st' rfl asking ⟨j, few, pace⟩ turn
    refine ⟨j, few, ?_⟩
    rw [step.clock_answer]
    exact pace.turn turn

theorem step (h : OnTime cfg timeout count s) (counts : ∀ w, (cfg w).readCount ≤ count)
    (step : Step cfg timeout s m s') : OnTime cfg timeout count s' := by
  cases step with
  | fetch free handled given => exact h.fetch counts (.fetch free handled given)
  | work step orderly => exact ⟨fun _ => h.free_work step orderly, h.busy_work step orderly⟩

end OnTime

/-! ## Deliveries that no marker was asked for -/

/-- The deliveries of the batch of a worker whose markers it is yet to ask for. -/
def unasked (s : Batches) (w : Nat) : List Delivery :=
  match s.workers w with
  | none => s.later w
  | some g =>
    match upcoming g.rest with
    | some (.tryBegin ..) => g.delivery :: s.later w
    | _ => s.later w

theorem unasked_eq {s s' : Batches} (workers : s'.workers w = s.workers w)
    (later : s'.later w = s.later w) : unasked s' w = unasked s w := by
  unfold unasked
  rw [workers, later]

theorem unasked_free (free : s.workers w = none) : unasked s w = s.later w := by
  simp only [unasked, free]

theorem unasked_asking {g : Handling} {ttl : Span} (hg : s.workers w = some g)
    (next : upcoming g.rest = some (.tryBegin key ttl)) :
    unasked s w = g.delivery :: s.later w := by
  simp only [unasked, hg, next]

theorem unasked_cases {g : Handling} (hg : s.workers w = some g) :
    unasked s w = s.later w ∨ (unasked s w = g.delivery :: s.later w ∧
      ∃ key ttl, upcoming g.rest = some (.tryBegin key ttl)) := by
  cases hnext : upcoming g.rest with
  | none => simp [unasked, hg, hnext]
  | some c => cases c <;> simp [unasked, hg, hnext]

theorem unasked_past {wcfg : Config} {g : Handling} {st : Stage} (hg : s.workers w = some g)
    (handles : Handles wcfg g.delivery g.rest st) (past : st ≠ .start) :
    unasked s w = s.later w := by
  rcases unasked_cases hg with same | ⟨_, key, ttl, next⟩
  · exact same
  · exact absurd (handles.start_of_upcoming next) past

theorem later_sublist (s : Batches) (w : Nat) : (s.later w).Sublist (unasked s w) := by
  cases hw : s.workers w with
  | none => simp [unasked_free hw]
  | some g => rcases unasked_cases hw with same | ⟨same, _⟩ <;> simp [same]

/-- How long after it fetched a batch of so many deliveries a worker may come to the last one. -/
def lateness (timeout : Span) (count : Nat) : Nat := (count - 1) * timeout.nanos

theorem mul_le_lateness (timeout : Span) {k count : Nat} (h : k + 1 ≤ count) :
    k * timeout.nanos ≤ lateness timeout count :=
  Nat.mul_le_mul_right _ (by omega)

/-- A worker comes to ask for a marker no later than that. -/
theorem OnTime.unasked_le (h : OnTime cfg timeout count s) (hd : d ∈ unasked s w) :
    s.clock ≤ s.fetched w + lateness timeout count := by
  cases hw : s.workers w with
  | none =>
      rw [unasked_free hw] at hd
      obtain ⟨k, few, within⟩ := h.free w hw (List.ne_nil_of_mem hd)
      have pos := List.length_pos_of_mem hd
      have before : k + 1 ≤ count := by omega
      have := mul_le_lateness timeout before
      omega
  | some g =>
      obtain ⟨st, handles, k, few, pace⟩ := h.busy w g hw
      rcases unasked_cases hw with same | ⟨same, key, ttl, next⟩
      · rw [same] at hd
        have pos := List.length_pos_of_mem hd
        have before : k + 1 + 1 ≤ count := by omega
        have := mul_le_lateness timeout before
        have := pace.spent
        omega
      · cases handles.start_of_upcoming next
        have before : k + 1 ≤ count := by omega
        have := mul_le_lateness timeout before
        unfold Pace at pace
        omega

end Courier.Dispatch.Batches
