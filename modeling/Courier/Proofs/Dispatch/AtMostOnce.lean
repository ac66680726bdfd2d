import Courier.Proofs.Dispatch.Timing

/-! # Receivers see an event at most once

With settings that keep the rules no two POSTs for one outbox event overlap, and once a POST that
succeeded is recorded none begins before the record lapses: whoever asks for the marker meanwhile is
told that the delivery is done, and acknowledges the message.
-/

namespace Courier.Dispatch.Crew

open Courier.Stream

variable {cfg : Nat → Config} {timeout inFlight dedupe : Span} {s s' s₀ : Crew} {m : Move}
  {trace rest : Trace} {t : Transition Crew Move} {w w' : Nat} {n : Int} {key : String}
  {ending : Int}

/-! ## POSTs do not overlap -/

/-- A worker is in a POST for an outbox event since a time. -/
def Posting (s : Crew) (w : Nat) (n : Int) (start : Int) : Prop :=
  ∃ g m event request, s.workers w = some g ∧ Carries g.delivery m event ∧ m.outboxId = n ∧
    upcoming g.rest = some (.send request) ∧ g.since = some start

theorem Posting.opened {start : Int} (h : Posting s w n start) : Open s w n := by
  obtain ⟨g, message, event, request, hg, carries, hn, next, _⟩ := h
  exact ⟨g, message, event, hg, carries, hn, Or.inl ⟨request, next⟩⟩

/-- Who is given the marker posts from then on. -/
theorem posting_of_starts (h : Guarded cfg timeout inFlight trace s) (step : Step cfg s m s')
    (starts : Starts ⟨s, m, s'⟩ w n) : Posting s' w n s.clock := by
  obtain ⟨g, message, event, key, ttl, hg, carries, hn, hm⟩ := starts
  dsimp only at hg hm
  subst hm
  obtain ⟨st, handles⟩ := h.staged w g hg
  obtain ⟨rest, st', turn, handles', hg', _⟩ := step.turned hg handles
  cases turn with
  | begin =>
      obtain ⟨request, next⟩ := handles'.upcoming_of_granted
      exact ⟨_, message, event, request, hg', carries, hn, next, rfl⟩

theorem within_of_posting (h : Guarded cfg timeout inFlight trace s) {start : Int}
    (posting : Posting s w n start) : start ≤ s.clock ∧ s.clock ≤ start + timeout.nanos := by
  obtain ⟨g, start', hg, since', after, within, _⟩ := h.covered_of_open posting.opened
  obtain ⟨g', _, _, _, hg', _, _, _, since⟩ := posting
  obtain rfl := Option.some.inj (hg.symm.trans hg')
  obtain rfl := Option.some.inj (since.symm.trans since')
  exact ⟨after, within⟩

/-- POSTs for one event begin more than the timeout apart. -/
theorem apart_of_starts (h : Guarded cfg timeout inFlight trace s)
    (uniform : Uniform cfg timeout inFlight dedupe) (step : Step cfg s m s') (ht : t ∈ trace)
    (first : Starts t w n) (second : Starts ⟨s, m, s'⟩ w' n) :
    t.before.clock + timeout.nanos < s.clock := by
  obtain ⟨_, lasts⟩ := h.started t ht w n first
  have hle := lasts.ending_le (h.tryBegin_of_starts uniform step second).1
  have := uniform.outlives
  omega

/-! ## From a success to its record -/

/-- What a worker is at since its POST for an event was answered with a success: it is about to
record that, and no POST for the event began meanwhile, or it is past recording. -/
def Awaits (cfg : Nat → Config) (w : Nat) (n : Int) (seen : Trace) (s : Crew) : Prop :=
  ((∃ g m event, s.workers w = some g ∧ Carries g.delivery m event ∧ m.outboxId = n ∧
      Handles (cfg w) g.delivery g.rest .taken) ∧ ∀ t ∈ seen, ∀ w', ¬ Starts t w' n) ∨
    ∀ g, s.workers w = some g → ∃ st, Handles (cfg w) g.delivery g.rest st ∧
      (st = .recorded ∨ ∃ result, st = .ended result)

theorem past_of_turn {wcfg : Config} {d : Delivery} {st st' : Stage} {c : Call} {r : c.Reply}
    (past : st = .recorded ∨ ∃ result, st = .ended result) (turn : Turn wcfg d st c r st') :
    st' = .recorded ∨ ∃ result, st' = .ended result := by
  cases turn with
  | report => exact past
  | finish r => cases r <;> exact Or.inr ⟨_, rfl⟩
  | drop | begin | post | record | «repeat» => rcases past with h | ⟨_, h⟩ <;> cases h

theorem Awaits.step {seen : Trace} (h : Awaits cfg w n seen s)
    (guarded : Guarded cfg timeout inFlight trace s)
    (uniform : Uniform cfg timeout inFlight dedupe) (step : Step cfg s m s')
    (same : ∀ d, m ≠ .take w d) : Awaits cfg w n (seen ++ [⟨s, m, s'⟩]) s' := by
  rcases h with ⟨⟨g, message, event, hg, carries, hn, handles⟩, none⟩ | past
  · -- until the record is asked for, the marker of this POST keeps others out
    have opened : Open s w n :=
      ⟨g, message, event, hg, carries, hn, (inPost_iff handles).2 (Or.inr rfl)⟩
    have none' : ∀ t ∈ seen ++ [⟨s, m, s'⟩], ∀ w', ¬ Starts t w' n := by
      intro t ht w'
      rcases List.mem_append.1 ht with ht | ht
      · exact none t ht w'
      · rw [List.mem_singleton.1 ht]
        exact guarded.not_starts_of_open uniform step opened
    cases hg' : s'.workers w with
    | none => exact Or.inr (by simp [hg'])
    | some g' =>
        rcases step.worker_cases hg' with hsame | ⟨d, _, hm, _⟩ | ⟨c, r, k, d, since, rfl, asking, rfl⟩
        · obtain rfl := Option.some.inj (hg.symm.trans hsame)
          exact Or.inl ⟨⟨g, message, event, hg', carries, hn, handles⟩, none'⟩
        · exact absurd hm (same d)
        · obtain rfl := Option.some.inj (hg.symm.trans asking)
          obtain ⟨st', allowed, rest⟩ := handles r
          cases allowed with
          | report => exact Or.inl ⟨⟨_, message, event, hg', carries, hn, rest⟩, none'⟩
          | record =>
              refine Or.inr fun g' hsome => ?_
              obtain rfl := Option.some.inj (hg'.symm.trans hsome)
              exact ⟨.recorded, rest, Or.inl rfl⟩
  · refine Or.inr fun g' hg' => ?_
    rcases step.worker_cases hg' with hsame | ⟨d, _, hm, _⟩ | ⟨c, r, k, d, since, rfl, asking, rfl⟩
    · exact past g' hsame
    · exact absurd hm (same d)
    · obtain ⟨st, handles, hst⟩ := past _ asking
      obtain ⟨st', allowed, rest⟩ := handles r
      exact ⟨st', rest, past_of_turn hst allowed⟩

theorem Awaits.run {seen : Trace} (h : Awaits cfg w n [] s)
    (guarded : Guarded cfg timeout inFlight trace s)
    (uniform : Uniform cfg timeout inFlight dedupe) (run : Run (TimedStep cfg timeout) s seen s')
    (same : ∀ t ∈ seen, ∀ d, t.move ≠ .take w d) : Awaits cfg w n seen s' := by
  induction run with
  | refl => exact h
  | tail run last ih =>
      have early := ih fun t ht => same t (List.mem_append_left _ ht)
      exact early.step (guarded.run uniform run) uniform last.step
        (same _ (List.mem_append_right _ List.mem_cons_self))

theorem awaits_of_takes (h : Guarded cfg timeout inFlight trace s) (step : Step cfg s m s')
    (takes : Takes ⟨s, m, s'⟩ w n) : Awaits cfg w n [] s' := by
  obtain ⟨g, message, event, status, hg, carries, hn, _, hm⟩ := takes
  dsimp only at hg hm
  subst hm
  generalize Webhook.Request.mk _ _ _ = request at step
  obtain ⟨st, handles⟩ := h.staged w g hg
  obtain ⟨rest, st', turn, handles', hg', _⟩ := step.turned hg handles
  cases turn with
  | post => exact Or.inl ⟨⟨_, message, event, hg', carries, hn, handles'⟩, by simp⟩

/-- The record of a POST that was awaited is kept from then on, and no POST began meanwhile. -/
theorem Awaits.records {seen : Trace} (h : Awaits cfg w n seen s)
    (uniform : Uniform cfg timeout inFlight dedupe) (step : Step cfg s m s')
    (records : Records ⟨s, m, s'⟩ w) :
    (∀ t ∈ seen, ∀ w', ¬ Starts t w' n) ∧
      s'.markers.Done (Marker.key n) (s.clock + dedupe.nanos) := by
  obtain ⟨key, ttl, hm⟩ := records
  dsimp only at hm
  subst hm
  rcases h with ⟨⟨g, message, event, hg, carries, hn, handles⟩, none⟩ | past
  · obtain ⟨rest, st', turn, _, _, effect⟩ := step.turned hg handles
    cases turn with
    | record carries' =>
        obtain ⟨rfl, rfl⟩ := carries.eq carries'
        subst hn
        refine ⟨none, ?_⟩
        rw [effect.marked, uniform.records w]
        exact Marker.Store.done_markDelivered _ _ _ _
  · obtain ⟨d, k, since, asking, _, _⟩ := step.answered
    obtain ⟨st, handles, hst⟩ := past _ asking
    obtain ⟨st', allowed, _⟩ := handles (Except.ok ())
    cases allowed
    rcases hst with hst | ⟨_, hst⟩ <;> cases hst

/-! ## While the record is kept -/

/-- Until a time the store knows that the event was delivered. -/
def Kept (dedupe : Span) (n ending : Int) (s : Crew) : Prop :=
  ending ≤ s.clock + dedupe.nanos ∧ (s.clock < ending → s.markers.Done (Marker.key n) ending)

theorem Kept.step (h : Kept dedupe n ending s) (guarded : Guarded cfg timeout inFlight trace s)
    (uniform : Uniform cfg timeout inFlight dedupe) (step : TimedStep cfg timeout s m s') :
    Kept dedupe n ending s' := by
  obtain ⟨hle, done⟩ := h
  have hclock := step.clock_le
  refine ⟨by omega, fun within => ?_⟩
  have within' : s.clock < ending := by omega
  exact step.done uniform guarded.staged (done within') within' hle

theorem Kept.run (h : Kept dedupe n ending s) (guarded : Guarded cfg timeout inFlight trace s)
    (uniform : Uniform cfg timeout inFlight dedupe) (run : Run (TimedStep cfg timeout) s rest s') :
    Kept dedupe n ending s' := by
  induction run with
  | refl => exact h
  | tail run last ih => exact ih.step (guarded.run uniform run) uniform last

theorem Kept.ending_le (h : Kept dedupe n ending s)
    (guarded : Guarded cfg timeout inFlight trace s)
    (uniform : Uniform cfg timeout inFlight dedupe) (step : Step cfg s m s')
    (starts : Starts ⟨s, m, s'⟩ w n) : ending ≤ s.clock := by
  refine Int.not_lt.1 fun within => ?_
  have none := (guarded.tryBegin_of_starts uniform step starts).1
  have known : (s.markers.tryBegin (Marker.key n) inFlight s.now).2 = some .delivered :=
    (h.2 within).tryBegin_eq within
  cases none.symm.trans known

/-- What becomes of a handling that was told that the delivery is done: it is about to acknowledge
the message, or it did so as a duplicate, or that failed. -/
def Skips (cfg : Nat → Config) (w : Nat) (d : Delivery) (s : Crew) : Prop :=
  ∀ g, s.workers w = some g → g.delivery = d ∧ ∃ st, Handles (cfg w) d g.rest st ∧
    (st = .known ∨ (st = .ended (.ok .duplicate) ∧ d.id ∈ s.acknowledged) ∨
      ∃ e, st = .ended (.error e))

theorem Skips.step {d : Delivery} (h : Skips cfg w d s) (step : Step cfg s m s')
    (same : ∀ d, m ≠ .take w d) : Skips cfg w d s' := by
  intro g' hg'
  rcases step.worker_cases hg' with hsame | ⟨d', _, hm, _⟩ | ⟨c, r, k, d', since, rfl, asking, rfl⟩
  · obtain ⟨hd, st, handles, hst⟩ := h g' hsame
    refine ⟨hd, st, handles, ?_⟩
    rcases hst with hst | ⟨hst, hid⟩ | hst
    · exact Or.inl hst
    · exact Or.inr (Or.inl ⟨hst, step.mem_acknowledged hid⟩)
    · exact Or.inr (Or.inr hst)
  · exact absurd hm (same d')
  · obtain ⟨hd, st, handles, hst⟩ := h _ asking
    obtain ⟨st', allowed, rest⟩ := handles r
    refine ⟨hd, st', rest, ?_⟩
    obtain ⟨_, _, _, _, _, effect⟩ := step.answered
    cases allowed with
    | report =>
        rcases hst with hst | ⟨hst, hid⟩ | hst
        · exact Or.inl hst
        · exact Or.inr (Or.inl ⟨hst, step.mem_acknowledged hid⟩)
        · exact Or.inr (Or.inr hst)
    | «repeat» r =>
        cases r with
        | error e => exact Or.inr (Or.inr ⟨_, rfl⟩)
        | ok u =>
            refine Or.inr (Or.inl ⟨rfl, ?_⟩)
            rw [effect.acked]
            exact List.mem_cons_self
    | drop | begin | post | record | finish =>
        rcases hst with hst | ⟨hst, _⟩ | ⟨_, hst⟩ <;> cases hst

theorem Skips.run {d : Delivery} (h : Skips cfg w d s)
    (run : Run (TimedStep cfg timeout) s rest s') (same : ∀ t ∈ rest, ∀ d, t.move ≠ .take w d) :
    Skips cfg w d s' := by
  induction run with
  | refl => exact h
  | tail _ last ih =>
      have early := ih fun t ht => same t (List.mem_append_left _ ht)
      exact early.step last.step (same _ (List.mem_append_right _ List.mem_cons_self))

/-- Whoever asks for the marker while the record is kept is told so, and skips the message. -/
theorem Kept.skips (h : Kept dedupe n ending s) (guarded : Guarded cfg timeout inFlight trace s)
    (uniform : Uniform cfg timeout inFlight dedupe) {ttl : Span} {marker : Option Marker}
    {g : Handling} {message : Message} {event : Check.Completed}
    (step : Step cfg s (.answer w (.tryBegin key ttl) (.ok marker)) s')
    (hg : s.workers w = some g) (carries : Carries g.delivery message event)
    (hn : message.outboxId = n) (within : s.clock < ending) :
    marker = some .delivered ∧ Skips cfg w g.delivery s' := by
  obtain ⟨st, handles⟩ := guarded.staged w g hg
  obtain ⟨rest, st', turn, handles', hg', effect⟩ := step.turned hg handles
  cases turn with
  | begin carries' =>
      obtain ⟨rfl, rfl⟩ := carries.eq carries'
      subst hn
      have told := effect.begun.1
      rw [uniform.begins w, now, (h.2 within).tryBegin_eq within] at told
      subst told
      refine ⟨rfl, fun g' hsome => ?_⟩
      obtain rfl := Option.some.inj (hg'.symm.trans hsome)
      exact ⟨rfl, .known, handles', Or.inl rfl⟩

/-- A handling that skips its message does not post, and when it ends well the message is
acknowledged as a duplicate. -/
theorem Skips.ends {d : Delivery} (h : Skips cfg w d s) (step : Step cfg s m s') :
    (∀ request r, m ≠ .answer w (.send request) r) ∧
      ∀ o, m = .finish w (.ok o) → o = .duplicate ∧ d.id ∈ s.acknowledged := by
  constructor
  · rintro request r rfl
    obtain ⟨d', k, since, asking, _⟩ := step.answered
    obtain ⟨_, st, handles, hst⟩ := h _ asking
    obtain ⟨st', allowed, _⟩ := handles r
    cases allowed
    rcases hst with hst | ⟨hst, _⟩ | ⟨_, hst⟩ <;> cases hst
  · rintro o rfl
    cases step with
    | finish done =>
        obtain ⟨_, st, handles, hst⟩ := h _ done
        obtain rfl : st = .ended (.ok o) := handles
        rcases hst with hst | ⟨hst, hid⟩ | ⟨_, hst⟩
        · cases hst
        · cases hst
          exact ⟨rfl, hid⟩
        · cases hst

/-! ## At most once -/

/-- In a run the POST of a worker for an event is answered with a success, and the same handling
records that. -/
structure Recorded (trace before between after : Trace) (taken marked : Transition Crew Move)
    (w : Nat) (n : Int) : Prop where
  split : trace = before ++ taken :: between ++ marked :: after
  takes : Takes taken w n
  records : Records marked w
  same : ∀ t ∈ between, ∀ d, t.move ≠ .take w d

/-- What receivers may rely on in a run.

* `begun`, `inTime`: a POST begins when the marker is given out, and is over by the timeout.
* `alone`, `apart`: no two POSTs for one event are under way at once, and between the starts of two
  there is more than the timeout, so that also the POST of a worker that crashed is over.
* `once`: after a success that was recorded no POST for the event begins before the record lapses.
* `skipped`: a handling that asks for the marker meanwhile does not post, and when it ends well its
  message is acknowledged as a duplicate. -/
structure AtMostOnce (timeout dedupe : Span) (trace : Trace) (s : Crew) : Prop where
  begun : ∀ t ∈ trace, ∀ w n, Starts t w n → Posting t.after w n t.before.clock
  inTime : ∀ w n start, Posting s w n start → start ≤ s.clock ∧ s.clock ≤ start + timeout.nanos
  alone : ∀ w w' n start start', Posting s w n start → Posting s w' n start' → w = w'
  apart : ∀ (before between after : Trace) (first second : Transition Crew Move) (w w' : Nat)
    (n : Int), trace = before ++ first :: between ++ second :: after →
    Starts first w n → Starts second w' n →
    first.before.clock + timeout.nanos < second.before.clock
  once : ∀ before between after taken marked w n,
    Recorded trace before between after taken marked w n →
    ∀ t ∈ between ++ marked :: after, ∀ w', Starts t w' n →
    taken.before.clock + dedupe.nanos ≤ t.before.clock
  skipped : ∀ before between after taken marked w n,
    Recorded trace before between after taken marked w n →
    ∀ (early late : Trace) (asked : Transition Crew Move) (w' : Nat) (g : Handling) (m : Message)
      (event : Check.Completed) (key : String) (ttl : Span) (marker : Option Marker),
    after = early ++ asked :: late →
    asked.before.workers w' = some g → Carries g.delivery m event → m.outboxId = n →
    asked.move = .answer w' (.tryBegin key ttl) (.ok marker) →
    asked.before.clock < taken.before.clock + dedupe.nanos →
    marker = some .delivered ∧
      ∀ (rest last : Trace) (ended : Transition Crew Move), late = rest ++ ended :: last →
      (∀ t ∈ rest, ∀ d, t.move ≠ .take w' d) →
      (∀ request r, ended.move ≠ .answer w' (.send request) r) ∧
        ∀ o, ended.move = .finish w' (.ok o) →
          o = .duplicate ∧ g.delivery.id ∈ ended.before.acknowledged

/-- What a record leaves: no POST began since the success, and the record is kept. -/
theorem Recorded.kept {before between after : Trace} {taken marked : Transition Crew Move}
    (h : Recorded trace before between after taken marked w n)
    (uniform : Uniform cfg timeout inFlight dedupe) (idle : ∀ w, s₀.workers w = none)
    (run : Run (TimedStep cfg timeout) s₀ trace s) :
    (∀ t ∈ between, ∀ w', ¬ Starts t w' n) ∧ taken.before.clock ≤ marked.before.clock ∧
      Kept dedupe n (marked.before.clock + dedupe.nanos) marked.after ∧
      Guarded cfg timeout inFlight (before ++ taken :: between ++ [marked]) marked.after ∧
      Run (TimedStep cfg timeout) marked.after after s := by
  have hrun := run
  rw [h.split] at hrun
  obtain ⟨left, first, mid, second, right⟩ := hrun.between
  have hleft := guarded uniform idle left
  have hfirst := hleft.step uniform first
  have awaits := (awaits_of_takes hleft first.step h.takes).run hfirst uniform mid h.same
  obtain ⟨none, done⟩ := awaits.records uniform second.step h.records
  have hclock := second.clock_le
  refine ⟨none, Int.le_trans first.clock_le (clock_le_of_run mid), ⟨by omega, fun _ => done⟩, ?_,
    right⟩
  have hsecond := (hfirst.run uniform mid).step uniform second
  simpa using hsecond

/-- Receivers see an event at most once. -/
theorem at_most_once {settings : Settings} (valid : settings.Valid)
    (idle : ∀ w, s₀.workers w = none)
    (run : Run (TimedStep settings.webhook.worker settings.webhook.timeout) s₀ trace s) :
    AtMostOnce settings.webhook.timeout settings.webhook.dedupeTtl trace s := by
  have uniform := uniform_of_valid valid
  have hguarded := guarded uniform idle run
  constructor
  case begun =>
    intro t ht w n starts
    obtain ⟨before, after, rfl, left, step⟩ := run.of_mem ht
    exact posting_of_starts (guarded uniform idle left) step.step starts
  case inTime => exact fun w n start posting => within_of_posting hguarded posting
  case alone =>
    exact fun w w' n start start' posting posting' =>
      hguarded.alone w w' n posting.opened posting'.opened
  case apart =>
    intro before between after first second w w' n htrace starts starts'
    subst htrace
    obtain ⟨early, step, _⟩ := run.around
    exact apart_of_starts (guarded uniform idle early) uniform step.step (by simp) starts starts'
  case once =>
    intro before between after taken marked w n recorded t ht w' starts
    obtain ⟨none, hclock, kept, hmarked, rest⟩ := recorded.kept uniform idle run
    rcases List.mem_append.1 ht with ht | ht
    · exact absurd starts (none t ht w')
    · rcases List.mem_cons.1 ht with rfl | ht
      -- the record itself is no start of a POST
      · obtain ⟨_, _, _, _, _, _, _, _, hm⟩ := starts
        obtain ⟨_, _, hm'⟩ := recorded.records
        rw [hm] at hm'
        cases hm'
      · obtain ⟨xs, ys, rfl, left, step⟩ := rest.of_mem ht
        have hle := (kept.run hmarked uniform left).ending_le (hmarked.run uniform left) uniform
          step.step starts
        omega
  case skipped =>
    intro before between after taken marked w n recorded early late asked w' g m event key ttl
      marker hafter hg carries hn hm within
    obtain ⟨none, hclock, kept, hmarked, rest⟩ := recorded.kept uniform idle run
    subst hafter
    obtain ⟨left, step, right⟩ := rest.around
    have hstep := step.step
    rw [hm] at hstep
    obtain ⟨told, skips⟩ := (kept.run hmarked uniform left).skips (hmarked.run uniform left)
      uniform hstep hg carries hn (by omega)
    refine ⟨told, ?_⟩
    intro xs ys ended hlate same
    subst hlate
    obtain ⟨mid, last, _⟩ := right.around
    exact (skips.run mid same).ends last.step

/-- With the standard settings one message is delivered, and that is recorded. -/
theorem at_most_once_standard :
    ∃ settings, Settings.ofTree Settings.standard = .ok settings ∧
      ∃ trace s before between after taken marked,
        AtMostOnce settings.webhook.timeout settings.webhook.dedupeTtl trace s ∧
        Recorded trace before between after taken marked 0 7 := by
  have accepted : (Settings.ofTree Settings.standard).isOk = true := by decide +kernel
  cases hsettings : Settings.ofTree Settings.standard with
  | error e =>
      rw [hsettings] at accepted
      cases accepted
  | ok settings =>
      obtain ⟨event, carries⟩ := exists_carries_sample
      obtain ⟨before, taken, between, marked, after, s, run, _, takes, records, same, _⟩ :=
        exists_delivery (w := 0) (s := waiting) settings.webhook.worker settings.webhook.timeout rfl
          List.mem_cons_self carries rfl
      have valid := Settings.valid_of_ofTree hsettings
      exact ⟨settings, rfl, _, s, before, between, after, taken, marked,
        at_most_once valid (fun _ => rfl) run, rfl, takes, records, same⟩

end Courier.Dispatch.Crew
