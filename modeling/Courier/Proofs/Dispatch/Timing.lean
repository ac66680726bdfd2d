import Courier.Proofs.Dispatch.Crew
import Courier.Settings.Values

/-! # Time and markers

On a clock that does not go back, with POSTs that end in time and deliveries that are recorded when
their POST ends, the marker under which a worker posts lasts beyond the end of the POST. That needs
no more of the settings than that a marker outlives a POST and is not shortened when it is replaced.
-/

namespace Courier.Dispatch

open Courier.Stream

/-! ## What a handling comes to next -/

theorem Call.exists_reply (c : Call) : Nonempty c.Reply := by
  cases c with
  | report => exact ⟨()⟩
  | reclaim | read | acknowledge => exact ⟨Except.error (.unavailable "")⟩
  | tryBegin | markDelivered => exact ⟨Except.error (.unavailable "")⟩
  | send => exact ⟨Except.error (.status 0)⟩

variable {wcfg : Config} {d : Delivery} {talk : Talk (Except WorkerError Outcome)} {st : Stage}
  {c : Call}

/-- What comes next is a turn of the present stage. -/
theorem Handles.turn_of_upcoming (h : Handles wcfg d talk st) (next : upcoming talk = some c) :
    ∃ r st', Turn wcfg d st c r st' := by
  induction talk with
  | done a => cases next
  | ask c' k ih =>
      obtain ⟨r⟩ := c'.exists_reply
      obtain ⟨st', allowed, rest⟩ := h r
      cases c' with
      | report =>
          cases allowed
          exact ih () rest next
      | _ =>
          cases next
          exact ⟨r, st', allowed⟩

theorem Handles.upcoming_of_granted (h : Handles wcfg d talk .granted) :
    ∃ request, upcoming talk = some (.send request) := by
  induction talk with
  | done a => cases h
  | ask c k ih =>
      obtain ⟨r⟩ := c.exists_reply
      obtain ⟨st', allowed, rest⟩ := h r
      cases allowed with
      | report => exact ih () rest
      | post => exact ⟨_, rfl⟩

theorem Handles.upcoming_of_taken (h : Handles wcfg d talk .taken) :
    ∃ key ttl, upcoming talk = some (.markDelivered key ttl) := by
  induction talk with
  | done a => cases h
  | ask c k ih =>
      obtain ⟨r⟩ := c.exists_reply
      obtain ⟨st', allowed, rest⟩ := h r
      cases allowed with
      | report => exact ih () rest
      | record => exact ⟨_, _, rfl⟩

theorem Handles.granted_of_upcoming (h : Handles wcfg d talk st) {request : Webhook.Request}
    (next : upcoming talk = some (.send request)) : st = .granted := by
  obtain ⟨r, st', allowed⟩ := h.turn_of_upcoming next
  cases allowed
  rfl

theorem Handles.start_of_upcoming (h : Handles wcfg d talk st) {key : String} {ttl : Span}
    (next : upcoming talk = some (.tryBegin key ttl)) : st = .start := by
  obtain ⟨r, st', allowed⟩ := h.turn_of_upcoming next
  cases allowed
  rfl

/-- A handling comes to post, or to record its POST. -/
def Handling.InPost (g : Handling) : Prop :=
  (∃ request, upcoming g.rest = some (.send request)) ∨
    ∃ key ttl, upcoming g.rest = some (.markDelivered key ttl)

theorem inPost_iff {g : Handling} (h : Handles wcfg g.delivery g.rest st) :
    g.InPost ↔ st = .granted ∨ st = .taken := by
  constructor
  · rintro (⟨request, next⟩ | ⟨key, ttl, next⟩)
    · exact Or.inl (h.granted_of_upcoming next)
    · obtain ⟨r, st', allowed⟩ := h.turn_of_upcoming next
      cases allowed
      exact Or.inr rfl
  · rintro (rfl | rfl)
    · exact Or.inl h.upcoming_of_granted
    · exact Or.inr h.upcoming_of_taken

namespace Crew

/-! ## Workers set up alike -/

/-- The workers are set up alike: a marker outlives a POST, and recording a delivery does not shorten
the life of a marker. -/
structure Uniform (cfg : Nat → Config) (timeout inFlight dedupe : Span) : Prop where
  begins : ∀ w, lifetime (cfg w).inFlightTtl = inFlight
  records : ∀ w, lifetime (cfg w).dedupeTtl = dedupe
  outlives : timeout.nanos < inFlight.nanos
  covers : inFlight.nanos ≤ dedupe.nanos

/-- Settings that keep the rules have a marker outlive a POST, lapse before its message is handed
out again, and last no longer than the record of a delivery. -/
theorem ordered_of_valid {settings : Settings} (valid : settings.Valid) :
    settings.webhook.timeout.nanos < settings.webhook.inFlightTtl.nanos ∧
      settings.webhook.inFlightTtl.nanos < settings.webhook.reclaimIdle.nanos ∧
      settings.webhook.inFlightTtl.nanos ≤ settings.webhook.dedupeTtl.nanos := by
  have hwebhook : settings.webhook.violation? = none := by
    have hnone : settings.violation? = none := valid
    unfold Settings.violation? at hnone
    cases hw : settings.webhook.violation? with
    | none => rfl
    | some v => cases ho : settings.outbox.violation? <;> simp [ho, hw] at hnone
  unfold Settings.Webhook.violation? at hwebhook
  simp only [Span.le_iff, Span.lt_iff] at hwebhook
  split at hwebhook
  · cases hwebhook
  · split at hwebhook
    · cases hwebhook
    · split at hwebhook
      · cases hwebhook
      · split at hwebhook
        · cases hwebhook
        · omega

theorem lifetime_inFlightTtl {settings : Settings} (valid : settings.Valid) :
    lifetime settings.webhook.inFlightTtl = settings.webhook.inFlightTtl := by
  have ordered := ordered_of_valid valid
  simp only [Settings.Webhook.inFlightTtl, Span.ofSeconds] at ordered
  exact lifetime_ofSeconds (by omega)

/-- Settings that keep the rules set the workers up so. -/
theorem uniform_of_valid {settings : Settings} (valid : settings.Valid) :
    Uniform settings.webhook.worker settings.webhook.timeout settings.webhook.inFlightTtl
      settings.webhook.dedupeTtl := by
  obtain ⟨outlives, _, covers⟩ := ordered_of_valid valid
  refine ⟨fun w => lifetime_inFlightTtl valid, fun w => ?_, outlives, covers⟩
  simp only [Settings.Webhook.timeout, Settings.Webhook.inFlightTtl, Settings.Webhook.dedupeTtl,
    Span.ofSeconds] at outlives covers
  exact lifetime_ofSeconds (by omega)

variable {cfg : Nat → Config} {timeout inFlight dedupe : Span} {s s' s₀ : Crew} {m : Move}
  {trace : Trace} {key : String} {ending : Int}

/-! ## Steps in time -/

theorem TimedStep.clock_le (h : TimedStep cfg timeout s m s') : s.clock ≤ s'.clock := by
  obtain ⟨step, timely⟩ := h
  cases step with
  | advance => exact timely.1
  | _ => exact Int.le_refl _

/-- The clock goes on only as far as a handling in its POST allows. -/
theorem TimedStep.in_time (h : TimedStep cfg timeout s m s') {w : Nat} {g : Handling}
    (hg : s.workers w = some g) (inPost : g.InPost) {start : Int} (since : g.since = some start)
    (within : s.clock ≤ start + timeout.nanos) : s'.clock ≤ start + timeout.nanos := by
  obtain ⟨step, timely⟩ := h
  cases step with
  | advance =>
      have allows := timely.2 w g hg
      rcases inPost with ⟨request, next⟩ | ⟨key, ttl, next⟩
      · rw [Allows, next] at allows
        exact allows start since
      · rw [Allows, next] at allows
        exact Int.le_trans allows within
  | _ => exact within

theorem TimedStep.markers_cases (h : TimedStep cfg timeout s m s') :
    s'.markers = s.markers ∨ ∃ w c r, m = .answer w c r := by
  rcases h.step.store_cases with ⟨same, _⟩ | ⟨key, rfl, _, _⟩ | answered
  · exact Or.inl same
  · exact h.timely.elim
  · exact Or.inr answered

/-! ## What lasts -/

section Answers

variable {r : c.Reply} {st' : Stage} {markers : Marker.Store} {ids : List String}

/-- No answer shortens the life of a marker that lasts no longer than one that is set now. -/
theorem lasts_of_turn (lasts : s.markers.Lasts key ending) (turn : Turn wcfg d st c r st')
    (effect : Effect s c r markers ids)
    (hle : ending ≤ s.clock + (lifetime wcfg.dedupeTtl).nanos) : markers.Lasts key ending := by
  cases effect with
  | begin => exact lasts.tryBegin
  | beginFailed _ _ _ done =>
      cases done with
      | false => exact lasts
      | true => exact lasts.tryBegin
  | mark =>
      cases turn with
      | record => exact lasts.set hle
  | markFailed _ _ _ done =>
      cases turn with
      | record =>
          cases done with
          | false => exact lasts
          | true => exact lasts.set hle
  | _ => exact lasts

/-- While a delivery is recorded no answer takes that back. -/
theorem done_of_turn (done : s.markers.Done key ending) (within : s.clock < ending)
    (turn : Turn wcfg d st c r st') (effect : Effect s c r markers ids)
    (hle : ending ≤ s.clock + (lifetime wcfg.dedupeTtl).nanos) : markers.Done key ending := by
  cases effect with
  | begin => exact done.tryBegin within
  | beginFailed _ _ _ carried =>
      cases carried with
      | false => exact done
      | true => exact done.tryBegin within
  | mark =>
      cases turn with
      | record => exact done.markDelivered hle
  | markFailed _ _ _ carried =>
      cases turn with
      | record =>
          cases carried with
          | false => exact done
          | true => exact done.markDelivered hle
  | _ => exact done

end Answers

theorem TimedStep.lasts (h : TimedStep cfg timeout s m s')
    (uniform : Uniform cfg timeout inFlight dedupe)
    (staged : ∀ w g, s.workers w = some g → ∃ st, Handles (cfg w) g.delivery g.rest st)
    (lasts : s.markers.Lasts key ending) (hle : ending ≤ s.clock + dedupe.nanos) :
    s'.markers.Lasts key ending := by
  rcases h.markers_cases with same | ⟨w, c, r, rfl⟩
  · rwa [same]
  · obtain ⟨d, k, since, asking, _, effect⟩ := h.step.answered
    obtain ⟨st, handles⟩ := staged w _ asking
    obtain ⟨st', allowed, _⟩ := handles r
    exact lasts_of_turn lasts allowed effect (by rwa [uniform.records w])

theorem TimedStep.done (h : TimedStep cfg timeout s m s')
    (uniform : Uniform cfg timeout inFlight dedupe)
    (staged : ∀ w g, s.workers w = some g → ∃ st, Handles (cfg w) g.delivery g.rest st)
    (done : s.markers.Done key ending) (within : s.clock < ending)
    (hle : ending ≤ s.clock + dedupe.nanos) : s'.markers.Done key ending := by
  rcases h.markers_cases with same | ⟨w, c, r, rfl⟩
  · rwa [same]
  · obtain ⟨d, k, since, asking, _, effect⟩ := h.step.answered
    obtain ⟨st, handles⟩ := staged w _ asking
    obtain ⟨st', allowed, _⟩ := handles r
    exact done_of_turn done within allowed effect (by rwa [uniform.records w])

/-! ## POSTs -/

/-- A worker is in a POST for an outbox event, or about to record it. -/
def Open (s : Crew) (w : Nat) (n : Int) : Prop :=
  ∃ g m event, s.workers w = some g ∧ Carries g.delivery m event ∧ m.outboxId = n ∧ g.InPost

/-- In a POST, or between a POST and its record, a handling is within the timeout from its start on,
and the marker that it was given lasts. -/
def Covered (timeout inFlight : Span) (s : Crew) (d : Delivery) (since : Option Int) : Stage → Prop
  | .granted | .taken => ∃ start m event, since = some start ∧ Carries d m event ∧
      start ≤ s.clock ∧ s.clock ≤ start + timeout.nanos ∧
      s.markers.Lasts (Marker.key m.outboxId) (start + inFlight.nanos)
  | _ => True

theorem covered_iff {since : Option Int} : Covered timeout inFlight s d since st ↔
    (st = .granted ∨ st = .taken) → ∃ start m event, since = some start ∧ Carries d m event ∧
      start ≤ s.clock ∧ s.clock ≤ start + timeout.nanos ∧
      s.markers.Lasts (Marker.key m.outboxId) (start + inFlight.nanos) := by
  cases st <;> simp [Covered]

/-- Every POST is covered, no two for one event are open at once, and the marker of every POST that
was begun lasts. -/
structure Guarded (cfg : Nat → Config) (timeout inFlight : Span) (trace : Trace) (s : Crew) :
    Prop where
  workers : ∀ w g, s.workers w = some g → ∃ st, Handles (cfg w) g.delivery g.rest st ∧
    Covered timeout inFlight s g.delivery g.since st
  alone : ∀ w w' n, Open s w n → Open s w' n → w = w'
  started : ∀ t ∈ trace, ∀ w n, Starts t w n → t.before.clock ≤ s.clock ∧
    s.markers.Lasts (Marker.key n) (t.before.clock + inFlight.nanos)

namespace Guarded

theorem staged (h : Guarded cfg timeout inFlight trace s) :
    ∀ w g, s.workers w = some g → ∃ st, Handles (cfg w) g.delivery g.rest st := by
  intro w g hg
  obtain ⟨st, handles, _⟩ := h.workers w g hg
  exact ⟨st, handles⟩

theorem start (idle : ∀ w, s.workers w = none) : Guarded cfg timeout inFlight [] s where
  workers := by simp [idle]
  alone := by simp [Open, idle]
  started := by simp

/-- A POST that is open was open before, or begins. -/
theorem open_before (h : Guarded cfg timeout inFlight trace s) (step : Step cfg s m s') {w : Nat}
    {n : Int} (opened : Open s' w n) : Open s w n ∨ Starts ⟨s, m, s'⟩ w n := by
  obtain ⟨g, message, event, hg, carries, hn, inPost⟩ := opened
  rcases step.worker_cases hg with same | ⟨d, _, _, rfl⟩ | ⟨c, r, k, d, since, rfl, asking, rfl⟩
  · exact Or.inl ⟨g, message, event, same, carries, hn, inPost⟩
  -- a delivery that was just taken is before its POST
  · rcases (inPost_iff (handle_handles (cfg w) d)).1 inPost with hst | hst <;> cases hst
  · obtain ⟨st, handles⟩ : ∃ st, Handles (cfg w) d (.ask c k) st := h.staged w _ asking
    obtain ⟨st', allowed, rest⟩ := handles r
    have before (hst : st = .granted ∨ st = .taken) : Open s w n :=
      ⟨_, message, event, asking, carries, hn,
        (inPost_iff (g := ⟨d, .ask c k, since⟩) handles).2 hst⟩
    have hst' := (inPost_iff (g := ⟨d, k r, _⟩) rest).1 inPost
    cases allowed with
    | report => exact Or.inl (before hst')
    | @begin m' event' carries' r =>
        cases r with
        | error e => rcases hst' with hst | hst <;> cases hst
        | ok marker =>
            cases marker with
            | none => exact Or.inr ⟨_, message, event, _, _, asking, carries, hn, rfl⟩
            | some marker => cases marker <;> rcases hst' with hst | hst <;> cases hst
    | post => exact Or.inl (before (Or.inl rfl))
    | record => rcases hst' with hst | hst <;> cases hst
    | @drop _ r | @finish r | @«repeat» r =>
        cases r <;> rcases hst' with hst | hst <;> cases hst

/-- A POST begins only where the store gives out the marker of its event. -/
theorem tryBegin_of_starts (h : Guarded cfg timeout inFlight trace s)
    (uniform : Uniform cfg timeout inFlight dedupe) (step : Step cfg s m s') {w : Nat} {n : Int}
    (starts : Starts ⟨s, m, s'⟩ w n) :
    (s.markers.tryBegin (Marker.key n) inFlight s.now).2 = none ∧
      s'.markers = (s.markers.tryBegin (Marker.key n) inFlight s.now).1 := by
  obtain ⟨g, message, event, key, ttl, hg, carries, rfl, hm⟩ := starts
  dsimp only at hg hm
  subst hm
  obtain ⟨st, handles⟩ := h.staged w g hg
  obtain ⟨rest, st', turn, _, _, effect⟩ := step.turned hg handles
  cases turn with
  | begin carries' =>
      obtain ⟨rfl, rfl⟩ := carries.eq carries'
      have heffect := effect.begun
      rwa [uniform.begins w] at heffect

theorem covered_of_open (h : Guarded cfg timeout inFlight trace s) {w : Nat} {n : Int}
    (opened : Open s w n) : ∃ g start, s.workers w = some g ∧ g.since = some start ∧
      start ≤ s.clock ∧ s.clock ≤ start + timeout.nanos ∧
      s.markers.Lasts (Marker.key n) (start + inFlight.nanos) := by
  obtain ⟨g, message, event, hg, carries, rfl, inPost⟩ := opened
  obtain ⟨st, handles, covered⟩ := h.workers w g hg
  obtain ⟨start, m', event', since, carries', after, within, lasts⟩ :=
    covered_iff.1 covered ((inPost_iff handles).1 inPost)
  obtain ⟨rfl, rfl⟩ := carries.eq carries'
  exact ⟨g, start, hg, since, after, within, lasts⟩

theorem not_starts_of_open (h : Guarded cfg timeout inFlight trace s)
    (uniform : Uniform cfg timeout inFlight dedupe) (step : Step cfg s m s') {w w' : Nat} {n : Int}
    (opened : Open s w n) : ¬ Starts ⟨s, m, s'⟩ w' n := by
  intro starts
  obtain ⟨g, start, _, _, _, within, lasts⟩ := h.covered_of_open opened
  have hle := lasts.ending_le (h.tryBegin_of_starts uniform step starts).1
  have := uniform.outlives
  omega

theorem covered_step (h : Guarded cfg timeout inFlight trace s)
    (uniform : Uniform cfg timeout inFlight dedupe) (step : TimedStep cfg timeout s m s')
    {since : Option Int} (covered : Covered timeout inFlight s d since st)
    (within : ∀ start, (st = .granted ∨ st = .taken) → since = some start →
      s.clock ≤ start + timeout.nanos → s'.clock ≤ start + timeout.nanos) :
    Covered timeout inFlight s' d since st := by
  refine covered_iff.2 fun hst => ?_
  obtain ⟨start, message, event, hsince, carries, after, before, lasts⟩ :=
    covered_iff.1 covered hst
  have hcovers := uniform.covers
  exact ⟨start, message, event, hsince, carries, Int.le_trans after step.clock_le,
    within start hst hsince before, step.lasts uniform h.staged lasts (by omega)⟩

theorem workers_step (h : Guarded cfg timeout inFlight trace s)
    (uniform : Uniform cfg timeout inFlight dedupe) (step : TimedStep cfg timeout s m s') :
    ∀ w g, s'.workers w = some g → ∃ st, Handles (cfg w) g.delivery g.rest st ∧
      Covered timeout inFlight s' g.delivery g.since st := by
  refine step.step.stages h.workers ?_ ?_ ?_
  · intro w g st hg handles covered
    refine h.covered_step uniform step covered fun start hst since within => ?_
    exact step.in_time hg ((inPost_iff handles).2 hst) since within
  · intro w d _ _
    trivial
  · rintro w c r k d since st st' rfl asking covered turn
    have hclock := step.step.clock_answer
    have later {st : Stage} (covered : Covered timeout inFlight s d since st) :
        Covered timeout inFlight s' d since st :=
      h.covered_step uniform step covered fun start _ _ within => by rwa [hclock]
    obtain ⟨_, _, _, _, _, effect⟩ := step.step.answered
    cases turn with
    | report => exact later covered
    | @begin message event carries r =>
        cases r with
        | error e => trivial
        | ok marker =>
            cases marker with
            | none =>
                obtain ⟨none, hmarkers⟩ := effect.begun
                refine ⟨s.clock, message, event, rfl, carries, Int.le_of_eq hclock.symm, ?_, ?_⟩
                · omega
                · rw [hmarkers, ← uniform.begins w]
                  exact Marker.Store.lasts_of_tryBegin none
            | some marker => cases marker <;> trivial
    | @post message event carries r =>
        cases r with
        | error e => trivial
        | ok status => exact later covered
    | record => trivial
    | @drop _ r | @finish r | @«repeat» r => cases r <;> trivial

theorem alone_step (h : Guarded cfg timeout inFlight trace s)
    (uniform : Uniform cfg timeout inFlight dedupe) (step : Step cfg s m s') :
    ∀ w w' n, Open s' w n → Open s' w' n → w = w' := by
  intro w w' n opened opened'
  rcases h.open_before step opened with before | starts
  · rcases h.open_before step opened' with before' | starts'
    · exact h.alone w w' n before before'
    · exact absurd starts' (h.not_starts_of_open uniform step before)
  · rcases h.open_before step opened' with before' | starts'
    · exact absurd starts (h.not_starts_of_open uniform step before')
    · obtain ⟨_, _, _, _, _, _, _, _, hm⟩ := starts
      obtain ⟨_, _, _, _, _, _, _, _, hm'⟩ := starts'
      dsimp only at hm hm'
      rw [hm] at hm'
      exact (Move.answer.inj hm').1

theorem started_step (h : Guarded cfg timeout inFlight trace s)
    (uniform : Uniform cfg timeout inFlight dedupe) (step : TimedStep cfg timeout s m s') :
    ∀ t ∈ trace ++ [⟨s, m, s'⟩], ∀ w n, Starts t w n → t.before.clock ≤ s'.clock ∧
      s'.markers.Lasts (Marker.key n) (t.before.clock + inFlight.nanos) := by
  intro t ht w n starts
  rcases List.mem_append.1 ht with ht | ht
  · obtain ⟨hle, lasts⟩ := h.started t ht w n starts
    have hcovers := uniform.covers
    exact ⟨Int.le_trans hle step.clock_le, step.lasts uniform h.staged lasts (by omega)⟩
  · rw [List.mem_singleton.1 ht] at starts ⊢
    obtain ⟨none, hmarkers⟩ := h.tryBegin_of_starts uniform step.step starts
    refine ⟨step.clock_le, ?_⟩
    rw [hmarkers]
    exact Marker.Store.lasts_of_tryBegin none

theorem step (h : Guarded cfg timeout inFlight trace s)
    (uniform : Uniform cfg timeout inFlight dedupe) (step : TimedStep cfg timeout s m s') :
    Guarded cfg timeout inFlight (trace ++ [⟨s, m, s'⟩]) s' where
  workers := h.workers_step uniform step
  alone := h.alone_step uniform step.step
  started := h.started_step uniform step

end Guarded

theorem Guarded.run {rest : Trace} (h : Guarded cfg timeout inFlight trace s)
    (uniform : Uniform cfg timeout inFlight dedupe) (run : Run (TimedStep cfg timeout) s rest s') :
    Guarded cfg timeout inFlight (trace ++ rest) s' := by
  induction run with
  | refl => rwa [List.append_nil]
  | tail _ last ih =>
      rw [← List.append_assoc]
      exact ih.step uniform last

theorem guarded (uniform : Uniform cfg timeout inFlight dedupe) (idle : ∀ w, s₀.workers w = none)
    (run : Run (TimedStep cfg timeout) s₀ trace s) : Guarded cfg timeout inFlight trace s :=
  (Guarded.start idle).run uniform run

theorem clock_le_of_run (run : Run (TimedStep cfg timeout) s trace s') : s.clock ≤ s'.clock :=
  run.keeps (P := fun t => s.clock ≤ t.clock) (fun h step => Int.le_trans h step.clock_le)
    (Int.le_refl _)

end Crew

end Courier.Dispatch
