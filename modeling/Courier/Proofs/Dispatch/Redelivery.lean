import Courier.Proofs.Dispatch.Failing
import Courier.Proofs.Dispatch.Lateness

/-! # Messages that are handed out again

If the stream waits for as long as a worker may be late and for the life of a marker before it hands
a message out again, then the marker that was set for a message has lapsed when the message is
handled again, and a marker that is found alive was set for another message of the same event. That
is always so where workers fetch one message at a time.

It is not so for all settings that keep the rules: these do not ask how many messages are fetched.
Where the stream does not wait that long, a worker that posted for all the messages before the last
one of its batch leaves a marker for that one which is still alive when the message comes again.
-/

namespace Courier.Dispatch.Batches

open Courier.Stream

/-- The workers are set up alike, fetch so many messages at most, and are not handed a message again
before its marker lapsed, however late they came to ask for it. -/
structure Paced (cfg : Nat → Config) (timeout inFlight : Span) (count : Nat) : Prop where
  begins : ∀ w, Crew.lifetime (cfg w).inFlightTtl = inFlight
  counts : ∀ w, (cfg w).readCount ≤ count
  idle : ∀ w, lateness timeout count + inFlight.nanos ≤ (cfg w).reclaimIdle.nanos
  positive : 0 < inFlight.nanos

variable {cfg : Nat → Config} {timeout inFlight : Span} {count : Nat} {s s' s₀ : Batches} {m : Move}
  {w w' : Nat} {d d' : Delivery} {trace : Trace} {key : String}
  {r : Except Marker.StoreError (Option Marker)}

theorem mem_of_asked {t : Transition Batches Move} {batch : List Delivery}
    (ht : t ∈ trace ++ [⟨s, .fetch w batch, s'⟩]) (asked : Asked t w' d key r) : t ∈ trace := by
  rcases List.mem_append.1 ht with ht | ht
  · exact ht
  · obtain ⟨_, _, _, _, hm⟩ := asked
    rw [List.mem_singleton.1 ht] at hm
    cases hm

/-! ## What is left to ask for -/

theorem later_sublist_of_step {crew : Crew.Move} (step : Step cfg timeout s (.work crew) s')
    (w : Nat) : (s'.later w).Sublist (s.later w) := by
  cases step with
  | work => exact restAfter_sublist s.later crew w

/-- A worker that fetches a batch is to ask for all of it. Nothing changes for the others. -/
theorem Step.fetches {batch : List Delivery} (step : Step cfg timeout s (.fetch w batch) s') :
    (Dispatch.fetch (cfg w)).Told (Hands s) (.ok batch) ∧ s'.clock = s.clock ∧
      s'.handed = s.handOut batch ∧ (unasked s' w = batch ∧ s'.fetched w = s.clock) ∧
      ∀ v, v ≠ w → unasked s' v = unasked s v ∧ s'.fetched v = s.fetched v := by
  cases step with
  | fetch free handled given =>
      refine ⟨given, rfl, rfl, ⟨?_, Function.update_self ..⟩, fun v hv => ⟨?_, ?_⟩⟩
      · simp only [unasked, free, Function.update_self]
      · exact unasked_eq rfl (Function.update_of_ne hv _ _)
      · exact Function.update_of_ne hv _ _

theorem unasked_sublist (onTime : OnTime cfg timeout count s) {crew : Crew.Move}
    (step : Step cfg timeout s (.work crew) s') (w : Nat) :
    (unasked s' w).Sublist (unasked s w) := by
  have fewer := later_sublist_of_step step w
  cases hw : s'.workers w with
  | none =>
      rw [unasked_free hw]
      exact fewer.trans (later_sublist s w)
  | some g =>
      rcases unasked_cases hw with same | ⟨same, key, ttl, next⟩ <;> rw [same]
      · exact fewer.trans (later_sublist s w)
      · cases step with
        | work step orderly =>
            rcases step.worker_cases hw with before | ⟨d, _, rfl, rfl⟩ |
              ⟨c, r, k, d, since, rfl, asking, rfl⟩
            · rw [unasked_asking before next]
              exact fewer.cons_cons g.delivery
            -- the next delivery was in the rest of the batch until now
            · have first := orderly.next rfl
              cases step with
              | take free =>
                  rw [unasked_free free, first]
                  simp [restAfter]
            · obtain ⟨st, handles, _⟩ := onTime.busy w _ asking
              obtain ⟨st', turn, rest⟩ := handles r
              cases Handles.start_of_upcoming rest next
              obtain ⟨_, report, rfl⟩ := turn.report_of_start
              rw [unasked_asking asking next]
              exact List.Sublist.refl _

/-- What a worker asked for it does not ask for again. -/
theorem unasked_of_asked (onTime : OnTime cfg timeout count s) (step : Step cfg timeout s m s')
    (asked : Asked ⟨s, m, s'⟩ w d key r) : unasked s w = d :: unasked s' w := by
  obtain ⟨g, ttl, hg, rfl, rfl⟩ := asked
  cases step with
  | work step =>
      obtain ⟨st, handles, _⟩ := onTime.busy w g hg
      obtain ⟨rest, st', turn, handles', hg', _⟩ := step.turned hg handles
      obtain ⟨d, k, since, asking, _⟩ := step.answered
      obtain rfl := Option.some.inj (hg.symm.trans asking)
      have past : st' ≠ .start := by
        rintro rfl
        obtain ⟨_, report, hreport⟩ := turn.report_of_start
        cases hreport
      rw [unasked_asking asking rfl, unasked_past hg' handles' past]
      rfl

theorem asked_cases (onTime : OnTime cfg timeout count s) (step : Step cfg timeout s m s')
    {t : Transition Batches Move} (ht : t ∈ trace ++ [⟨s, m, s'⟩]) (asked : Asked t w d key r) :
    t ∈ trace ∨ (t.before = s ∧ unasked s w = d :: unasked s' w) := by
  rcases List.mem_append.1 ht with ht | ht
  · exact Or.inl ht
  · rw [List.mem_singleton.1 ht] at asked ⊢
    exact Or.inr ⟨rfl, unasked_of_asked onTime step asked⟩

/-! ## Who was asked for when -/

/-- What is known of the messages of a run: when a message was last handed out, whose turn it is to
ask for its marker, and that all earlier asking for it lies the life of a marker back. -/
structure Ledger (cfg : Nat → Config) (timeout inFlight : Span) (count : Nat) (trace : Trace)
    (s : Batches) : Prop where
  onTime : OnTime cfg timeout count s
  past : ∀ t ∈ trace, t.before.clock ≤ s.clock
  given : ∀ w, ∀ d ∈ unasked s w, s.handed d.id = some (s.fetched w) ∧ s.fetched w ≤ s.clock
  lapsed : ∀ w, ∀ d ∈ unasked s w, ∀ t ∈ trace, ∀ w' d' key r, Asked t w' d' key r →
    d'.id = d.id → t.before.clock + inFlight.nanos ≤ s.fetched w
  asked : ∀ t ∈ trace, ∀ w d key r, Asked t w d key r →
    ∃ last, s.handed d.id = some last ∧ t.before.clock ≤ last + lateness timeout count
  alone : ∀ w w', ∀ d ∈ unasked s w, ∀ d' ∈ unasked s w', d.id = d'.id → w = w'
  once : ∀ w, ((unasked s w).map (·.id)).Nodup

namespace Ledger

theorem start (fresh : s.Fresh) : Ledger cfg timeout inFlight count [] s := by
  have nothing (w : Nat) : unasked s w = [] := by
    rw [unasked_free (fresh.workers w), fresh.later w]
  constructor
  case onTime => exact .start fresh
  all_goals simp [nothing]

theorem past_step (h : Ledger cfg timeout inFlight count trace s)
    (step : Step cfg timeout s m s') :
    ∀ t ∈ trace ++ [⟨s, m, s'⟩], t.before.clock ≤ s'.clock := by
  intro t ht
  have clock := step.clock_le
  rcases List.mem_append.1 ht with ht | ht
  · exact Int.le_trans (h.past t ht) clock
  · obtain rfl := List.mem_singleton.1 ht
    exact clock

theorem not_unasked (h : Ledger cfg timeout inFlight count trace s)
    (paced : Paced cfg timeout inFlight count) {batch : List Delivery}
    (given : (Dispatch.fetch (cfg w)).Told (Hands s) (.ok batch)) (hd : d ∈ batch)
    (hd' : d' ∈ unasked s w') : d'.id ≠ d.id := by
  intro same
  have idle := ((fetch_told given).2.2 d hd).2 (s.fetched w') (same ▸ (h.given w' d' hd').1)
  have late := h.onTime.unasked_le hd'
  have := paced.idle w
  have := paced.positive
  omega

/-- What is to be asked for after a batch was fetched is in the batch, or it was to be asked for
before. -/
theorem unasked_fetch (h : Ledger cfg timeout inFlight count trace s)
    (paced : Paced cfg timeout inFlight count) {batch : List Delivery}
    (step : Step cfg timeout s (.fetch w batch) s') (hd : d ∈ unasked s' w') :
    (w' = w ∧ d ∈ batch ∧ s'.handed d.id = some s.clock ∧ s'.fetched w' = s.clock) ∨
      (d ∈ unasked s w' ∧ s'.handed d.id = s.handed d.id ∧ s'.fetched w' = s.fetched w') := by
  obtain ⟨given, clock, handed, mine, others⟩ := step.fetches
  rw [handed]
  by_cases hw : w' = w
  · subst hw
    rw [mine.1] at hd
    exact Or.inl ⟨rfl, hd, handOut_of_mem hd, mine.2⟩
  · rw [(others w' hw).1] at hd
    refine Or.inr ⟨hd, handOut_of_not_mem fun e he => ?_, (others w' hw).2⟩
    exact (h.not_unasked paced given he hd).symm

theorem fetch (h : Ledger cfg timeout inFlight count trace s)
    (paced : Paced cfg timeout inFlight count) {batch : List Delivery}
    (step : Step cfg timeout s (.fetch w batch) s') :
    Ledger cfg timeout inFlight count (trace ++ [⟨s, .fetch w batch, s'⟩]) s' := by
  obtain ⟨given, clock, handed, mine, others⟩ := step.fetches
  constructor
  case onTime => exact h.onTime.step paced.counts step
  case past => exact h.past_step step
  case given =>
    intro v d hd
    rw [clock]
    rcases h.unasked_fetch paced step hd with ⟨_, _, handed, fetched⟩ | ⟨hd, handed, fetched⟩
    · rw [handed, fetched]
      exact ⟨rfl, Int.le_refl _⟩
    · rw [handed, fetched]
      exact h.given v d hd
  case lapsed =>
    intro v d hd t ht v' d' key r asked same
    have earlier := mem_of_asked ht asked
    rcases h.unasked_fetch paced step hd with ⟨rfl, hd, _, fetched⟩ | ⟨hd, _, fetched⟩ <;> rw [fetched]
    -- the stream waited since the message was last handed out
    · obtain ⟨last, handed, late⟩ := h.asked t earlier v' d' key r asked
      have idle := ((fetch_told given).2.2 d hd).2 last (same ▸ handed)
      have := paced.idle v
      omega
    · exact h.lapsed v d hd t earlier v' d' key r asked same
  case asked =>
    intro t ht v d key r asked
    have earlier := mem_of_asked ht asked
    obtain ⟨last, lately, late⟩ := h.asked t earlier v d key r asked
    have before := h.past t earlier
    rw [handed]
    by_cases hd : d.id ∈ batch.map (·.id)
    · exact ⟨s.clock, if_pos hd, by omega⟩
    · exact ⟨last, (if_neg hd).trans lately, late⟩
  case alone =>
    intro v v' d hd d' hd' same
    rcases h.unasked_fetch paced step hd with ⟨rfl, hd, _⟩ | ⟨hd, _⟩
    · rcases h.unasked_fetch paced step hd' with ⟨rfl, _⟩ | ⟨hd', _⟩
      · rfl
      · exact absurd same.symm (h.not_unasked paced given hd hd')
    · rcases h.unasked_fetch paced step hd' with ⟨rfl, hd', _⟩ | ⟨hd', _⟩
      · exact absurd same (h.not_unasked paced given hd' hd)
      · exact h.alone v v' d hd d' hd' same
  case once =>
    intro v
    by_cases hv : v = w
    · subst hv
      rw [mine.1]
      exact (fetch_told given).2.1
    · rw [(others v hv).1]
      exact h.once v

theorem work (h : Ledger cfg timeout inFlight count trace s)
    (paced : Paced cfg timeout inFlight count) {crew : Crew.Move}
    (step : Step cfg timeout s (.work crew) s') :
    Ledger cfg timeout inFlight count (trace ++ [⟨s, .work crew, s'⟩]) s' := by
  have fewer := unasked_sublist h.onTime step
  have still {w : Nat} {d : Delivery} (hd : d ∈ unasked s' w) : d ∈ unasked s w :=
    (fewer w).subset hd
  have clock := step.clock_le
  have handed : s'.handed = s.handed := by cases step; rfl
  have fetched : s'.fetched = s.fetched := by cases step; rfl
  constructor
  case onTime => exact h.onTime.step paced.counts step
  case past => exact h.past_step step
  case given =>
    intro w d hd
    obtain ⟨last, before⟩ := h.given w d (still hd)
    rw [handed, fetched]
    exact ⟨last, Int.le_trans before clock⟩
  case lapsed =>
    intro w d hd t ht w' d' key r asked same
    rw [fetched]
    rcases asked_cases h.onTime step ht asked with ht | ⟨_, first⟩
    · exact h.lapsed w d (still hd) t ht w' d' key r asked same
    -- what was asked for just now is in no batch any more
    · have hd' : d' ∈ unasked s w' := by
        rw [first]
        exact List.mem_cons_self
      obtain rfl := h.alone w' w d' hd' d (still hd) same
      have once := h.once w'
      rw [first, List.map_cons, List.nodup_cons, same] at once
      exact absurd (List.mem_map_of_mem hd) once.1
  case asked =>
    intro t ht w d key r asked
    rw [handed]
    rcases asked_cases h.onTime step ht asked with ht | ⟨hbefore, first⟩
    · exact h.asked t ht w d key r asked
    · have hd : d ∈ unasked s w := by
        rw [first]
        exact List.mem_cons_self
      rw [hbefore]
      exact ⟨s.fetched w, (h.given w d hd).1, h.onTime.unasked_le hd⟩
  case alone => exact fun w w' d hd d' hd' same => h.alone w w' d (still hd) d' (still hd') same
  case once => exact fun w => (h.once w).sublist ((fewer w).map _)

theorem step (h : Ledger cfg timeout inFlight count trace s)
    (paced : Paced cfg timeout inFlight count) (step : Step cfg timeout s m s') :
    Ledger cfg timeout inFlight count (trace ++ [⟨s, m, s'⟩]) s' := by
  cases m with
  | fetch => exact h.fetch paced step
  | work => exact h.work paced step

end Ledger

/-! ## Whose marker it is -/

/-- A marker of a running delivery that is there after an answer was there before, or the answer was
one about it. -/
theorem lookup_of_turn {wcfg : Config} {crew : Crew} {st st' : Stage} {c : Call} {r : c.Reply}
    {markers : Marker.Store} {ids : List String} {e : Marker.Entry} (turn : Turn wcfg d st c r st')
    (effect : Crew.Effect crew c r markers ids) (found : markers.entries.lookup key = some e)
    (running : Marker.ofText e.text = .inFlight) :
    crew.markers.entries.lookup key = some e ∨ (c = .tryBegin key wcfg.inFlightTtl ∧
      e.expiry = .ofNanos (crew.clock + (Crew.lifetime wcfg.inFlightTtl).nanos)) := by
  cases effect with
  | begin =>
      cases turn with
      | begin =>
          rcases Marker.Store.lookup_tryBegin found with before | ⟨rfl, expiry⟩
          · exact Or.inl before
          · exact Or.inr ⟨rfl, expiry⟩
  | beginFailed _ _ _ done =>
      cases turn with
      | begin =>
          cases done with
          | false => exact Or.inl found
          | true =>
              rcases Marker.Store.lookup_tryBegin found with before | ⟨rfl, expiry⟩
              · exact Or.inl before
              · exact Or.inr ⟨rfl, expiry⟩
  | mark => exact Or.inl (Marker.Store.lookup_markDelivered found running)
  | markFailed _ _ _ done =>
      cases done with
      | false => exact Or.inl found
      | true => exact Or.inl (Marker.Store.lookup_markDelivered found running)
  | _ => exact Or.inl found

/-- A marker of a running delivery was set for a worker that asked for it, and lives from then
on. -/
def Marked (inFlight : Span) (trace : Trace) (s : Batches) : Prop :=
  ∀ key e, s.markers.entries.lookup key = some e → Marker.ofText e.text = .inFlight →
    ∃ t ∈ trace, (∃ w d r, Asked t w d key r) ∧
      e.expiry = .ofNanos (t.before.clock + inFlight.nanos)

theorem Marked.step (h : Marked inFlight trace s) (paced : Paced cfg timeout inFlight count)
    (onTime : OnTime cfg timeout count s) (step : Step cfg timeout s m s') :
    Marked inFlight (trace ++ [⟨s, m, s'⟩]) s' := by
  intro key e found running
  have before (found : s.markers.entries.lookup key = some e) :
      ∃ t ∈ trace ++ [⟨s, m, s'⟩], (∃ w d r, Asked t w d key r) ∧
        e.expiry = .ofNanos (t.before.clock + inFlight.nanos) := by
    obtain ⟨t, ht, asked⟩ := h key e found running
    exact ⟨t, List.mem_append_left _ ht, asked⟩
  cases step with
  | fetch => exact before found
  | @work crew after step orderly =>
      rcases step.store_cases with ⟨same, _⟩ | ⟨_, rfl, _⟩ | ⟨w, c, r, rfl⟩
      · exact before (same ▸ found)
      · exact orderly.elim
      · obtain ⟨d, k, since, asking, _, effect⟩ := step.answered
        obtain ⟨st, handles, _⟩ := onTime.busy w _ asking
        obtain ⟨st', turn, _⟩ := handles r
        rcases lookup_of_turn turn effect found running with earlier | ⟨rfl, expiry⟩
        · exact before earlier
        · rw [paced.begins w] at expiry
          exact ⟨_, List.mem_append_right _ List.mem_cons_self,
            ⟨w, d, r, _, _, asking, rfl, rfl⟩, expiry⟩

/-! ## Runs -/

theorem ledger_of_run (paced : Paced cfg timeout inFlight count) (fresh : s₀.Fresh)
    (run : Run (Step cfg timeout) s₀ trace s) :
    Ledger cfg timeout inFlight count trace s ∧ Marked inFlight trace s := by
  induction run with
  | refl =>
      refine ⟨.start fresh, fun key e found => ?_⟩
      rw [fresh.markers] at found
      cases found
  | tail _ last ih =>
      obtain ⟨ledger, marked⟩ := ih
      exact ⟨ledger.step paced last, marked.step paced ledger.onTime last⟩

/-- What is told in a run of messages that come again.

* `lapsed`: between two times that a worker asks for the marker of one message there is the life of
  a marker.
* `elsewhere`: who is told that a delivery is running is not told of an earlier handling of the same
  message, but of one of another message under the same key that is still alive. -/
structure Redelivers (inFlight : Span) (trace : Trace) : Prop where
  lapsed : ∀ (before between after : Trace) (first second : Transition Batches Move) (w w' : Nat)
    (d d' : Delivery) (key key' : String) (r r' : Except Marker.StoreError (Option Marker)),
    trace = before ++ first :: between ++ second :: after →
    Asked first w d key r → Asked second w' d' key' r' → d.id = d'.id →
    first.before.clock + inFlight.nanos ≤ second.before.clock
  elsewhere : ∀ (before after : Trace) (told : Transition Batches Move) (w : Nat) (d : Delivery)
    (key : String), trace = before ++ told :: after →
    Asked told w d key (.ok (some .inFlight)) →
    ∃ t ∈ before, ∃ w' d' r, Asked t w' d' key r ∧ d'.id ≠ d.id ∧
      told.before.clock < t.before.clock + inFlight.nanos

namespace Ledger

variable {t : Transition Batches Move} {r' : Except Marker.StoreError (Option Marker)}
  {key' : String}

theorem lapsed_of_asked (h : Ledger cfg timeout inFlight count trace s)
    (step : Step cfg timeout s m s') (ht : t ∈ trace) (first : Asked t w d key r)
    (second : Asked ⟨s, m, s'⟩ w' d' key' r') (same : d.id = d'.id) :
    t.before.clock + inFlight.nanos ≤ s.clock := by
  have hd : d' ∈ unasked s w' := by
    rw [unasked_of_asked h.onTime step second]
    exact List.mem_cons_self
  have lapsed := h.lapsed w' d' hd t ht w d key r first same
  have given := (h.given w' d' hd).2
  omega

theorem elsewhere_of_told (h : Ledger cfg timeout inFlight count trace s)
    (marked : Marked inFlight trace s) (step : Step cfg timeout s m s')
    (told : Asked ⟨s, m, s'⟩ w d key (.ok (some .inFlight))) :
    ∃ t ∈ trace, ∃ w' d' r, Asked t w' d' key r ∧ d'.id ≠ d.id ∧
      s.clock < t.before.clock + inFlight.nanos := by
  obtain ⟨g, ttl, hg, hd, hm⟩ := told
  dsimp only at hg hm
  subst hm
  cases step with
  | work crew orderly =>
      obtain ⟨_, _, _, _, _, effect⟩ := crew.answered
      obtain ⟨e, found, live, running⟩ := Marker.Store.live_of_tryBegin effect.begun.1
      obtain ⟨t, ht, ⟨w', d', r, asked⟩, expiry⟩ := marked key e found running
      rw [expiry] at live
      have alive := Instant.ofNanos_lt.1 live
      refine ⟨t, ht, w', d', r, asked, fun same => ?_, alive⟩
      have := h.lapsed_of_asked (.work crew orderly) ht asked ⟨g, ttl, hg, hd, rfl⟩ same
      omega

end Ledger

theorem paced_of_valid {settings : Settings} (valid : settings.Valid)
    (waits : lateness settings.webhook.timeout settings.webhook.readCount +
      settings.webhook.inFlightTtl.nanos ≤ settings.webhook.reclaimIdle.nanos) :
    Paced settings.webhook.worker settings.webhook.timeout settings.webhook.inFlightTtl
      settings.webhook.readCount where
  begins := fun _ => Crew.lifetime_inFlightTtl valid
  counts := fun _ => Nat.le_refl _
  idle := fun _ => waits
  positive := by
    have := Crew.ordered_of_valid valid
    omega

/-- Where messages are fetched one by one the stream waits long enough. -/
theorem waits_of_single {settings : Settings} (valid : settings.Valid)
    (single : settings.webhook.readCount = 1) :
    lateness settings.webhook.timeout settings.webhook.readCount +
      settings.webhook.inFlightTtl.nanos ≤ settings.webhook.reclaimIdle.nanos := by
  have := Crew.ordered_of_valid valid
  rw [single]
  simp only [lateness, Nat.sub_self, Nat.zero_mul]
  omega

/-- A message that comes again is not mistaken for a running delivery, where the stream waits for as
long as a worker may be late and for the life of a marker. All the while every worker handles each
delivery of its batch in turn. -/
theorem redelivers {settings : Settings} (valid : settings.Valid)
    (waits : lateness settings.webhook.timeout settings.webhook.readCount +
      settings.webhook.inFlightTtl.nanos ≤ settings.webhook.reclaimIdle.nanos)
    (fresh : s₀.Fresh)
    (run : Run (Step settings.webhook.worker settings.webhook.timeout) s₀ trace s) :
    Redelivers settings.webhook.inFlightTtl trace ∧
      EachInTurn settings.webhook.worker trace := by
  have paced := paced_of_valid valid waits
  refine ⟨?_, eachInTurn_of_run run⟩
  constructor
  case lapsed =>
    rintro before between after first second w w' d d' key key' r r' rfl asked asked' same
    obtain ⟨early, step, _⟩ := run.around
    have ledger := (ledger_of_run paced fresh early).1
    exact ledger.lapsed_of_asked step (by simp) asked asked' same
  case elsewhere =>
    rintro before after told w d key rfl asked
    obtain ⟨early, step, _⟩ := run.around
    obtain ⟨ledger, marked⟩ := ledger_of_run paced fresh early
    exact ledger.elsewhere_of_told marked step asked

/-- With the standard settings the POST for a message fails, and when the message comes again its
marker is given out once more. -/
theorem redelivers_standard :
    ∃ settings, Settings.ofTree Settings.standard = .ok settings ∧ ∃ trace after,
      (Redelivers settings.webhook.inFlightTtl trace ∧ EachInTurn settings.webhook.worker trace) ∧
        ComesAgain trace 0 (numbered 0) (Marker.key 0) after none := by
  have accepted : (Settings.ofTree Settings.standard).toOption.any fun settings =>
      settings.webhook.readCount == 1 := by decide +kernel
  cases hsettings : Settings.ofTree Settings.standard with
  | error e =>
      rw [hsettings] at accepted
      cases accepted
  | ok settings =>
      rw [hsettings] at accepted
      have single : settings.webhook.readCount = 1 := by
        simpa [Except.toOption] using accepted
      have valid := Settings.valid_of_ofTree hsettings
      have ordered := Crew.ordered_of_valid valid
      obtain ⟨trace, s, run, again⟩ := exists_again settings.webhook.worker
        settings.webhook.timeout (c := settings.webhook.reclaimIdle.nanos) single
        (by decide) (Int.le_refl _) (by omega)
      have begins : Crew.lifetime (settings.webhook.worker 0).inFlightTtl =
          settings.webhook.inFlightTtl := Crew.lifetime_inFlightTtl valid
      rw [begins, if_neg (by omega)] at again
      exact ⟨settings, rfl, trace, _, redelivers valid (waits_of_single valid single)
        (fresh_stocked 1) run, again⟩

/-! ## Where the stream does not wait that long -/

theorem ComesAgain.not_redelivers {after : Int} {marker : Option Marker}
    (h : ComesAgain trace w d key after marker) (soon : after < inFlight.nanos) :
    ¬ Redelivers inFlight trace := by
  intro told
  obtain ⟨before, posting, waiting, rest, first, failed, fetched, again, batch, rfl, asked, _, _, _,
    _, asked', later⟩ := h
  have lapsed := told.lapsed before (posting ++ fetched :: waiting) rest first again w w d d
    key key _ _ (by simp) asked asked' rfl
  omega

/-- Where the stream waits less than a worker may be late and a marker lives, a message may come
again while the marker of its own earlier handling is alive. -/
theorem mistaken_of_soon {settings : Settings} (valid : settings.Valid)
    (few : settings.webhook.readCount ≤ 2 ^ 63)
    (soon : settings.webhook.reclaimIdle.nanos <
      lateness settings.webhook.timeout settings.webhook.readCount +
        settings.webhook.inFlightTtl.nanos) :
    ∃ trace s d key after,
      Run (Step settings.webhook.worker settings.webhook.timeout)
        (stocked settings.webhook.readCount) trace s ∧
      ComesAgain trace 0 d key after (some .inFlight) ∧
      after < settings.webhook.inFlightTtl.nanos := by
  have ordered := Crew.ordered_of_valid valid
  cases hcount : settings.webhook.readCount with
  | zero =>
      rw [hcount] at soon
      simp only [lateness, Nat.zero_sub, Nat.zero_mul] at soon
      omega
  | succ count =>
      rw [hcount] at soon few
      simp only [lateness, Nat.add_sub_cancel] at soon
      obtain ⟨trace, s, run, again⟩ := exists_again settings.webhook.worker
        settings.webhook.timeout
        (c := max (count * settings.webhook.timeout.nanos : Nat)
          settings.webhook.reclaimIdle.nanos) hcount (by omega) (Int.le_max_right _ _)
        (Int.le_max_left _ _)
      have begins : Crew.lifetime (settings.webhook.worker 0).inFlightTtl =
          settings.webhook.inFlightTtl := Crew.lifetime_inFlightTtl valid
      rw [begins, if_pos (by omega)] at again
      exact ⟨trace, s, _, _, _, run, again, by omega⟩

/-- Settings that keep the rules, with which two messages are fetched at once: the POST for the
first one takes 29 seconds, and that for the second one fails after it; when the second one comes
again 31 seconds after the batch was fetched, its marker lives for 28 seconds more. -/
theorem mistaken_pair :
    ∃ settings, Settings.ofEntries [("webhook.read_count", .int 2),
        ("webhook.request_timeout_secs", .int 29), ("webhook.reclaim_idle_ms", .int 31000)] =
          .ok settings ∧ settings.Valid ∧
      ∃ trace s d key after, (stocked 2).Fresh ∧
        Run (Step settings.webhook.worker settings.webhook.timeout) (stocked 2) trace s ∧
        EachInTurn settings.webhook.worker trace ∧
        ComesAgain trace 0 d key after (some .inFlight) ∧
        ¬ Redelivers settings.webhook.inFlightTtl trace := by
  have accepted : (Settings.ofEntries [("webhook.read_count", .int 2),
      ("webhook.request_timeout_secs", .int 29),
      ("webhook.reclaim_idle_ms", .int 31000)]).toOption.any fun settings =>
        decide (settings.Valid ∧ settings.webhook.readCount = 2 ∧
          settings.webhook.reclaimIdle.nanos <
            lateness settings.webhook.timeout settings.webhook.readCount +
              settings.webhook.inFlightTtl.nanos) := by decide +kernel
  cases hsettings : Settings.ofEntries [("webhook.read_count", .int 2),
      ("webhook.request_timeout_secs", .int 29), ("webhook.reclaim_idle_ms", .int 31000)] with
  | error e =>
      rw [hsettings] at accepted
      cases accepted
  | ok settings =>
      rw [hsettings] at accepted
      simp only [Except.toOption, Option.any_some, decide_eq_true_eq] at accepted
      obtain ⟨valid, pair, soon⟩ := accepted
      obtain ⟨trace, s, d, key, after, run, again, alive⟩ :=
        mistaken_of_soon valid (by omega) soon
      rw [pair] at run
      exact ⟨settings, rfl, valid, trace, s, d, key, after, fresh_stocked 2, run,
        eachInTurn_of_run run, again, again.not_redelivers alive⟩

end Courier.Dispatch.Batches
