import Courier.Proofs.Dispatch.Protocol
import Courier.Proofs.Marker
import Courier.Proofs.Run
import Mathlib.Logic.Function.Basic

/-! # Workers that share a stream

Any number of workers handle the messages of one stream under one store of markers. A message may be
handed to any worker at any time, again and again, also after it was acknowledged. Every question of
a handling is answered by itself, so that handlings interleave at their questions and a worker may
crash between any two of them. A collaborator that fails may have done what it was asked or not.
-/

namespace Courier.Dispatch

open Courier.Stream

/-- A worker at a delivery: what is left of the handling, and when its POST began. -/
structure Handling where
  delivery : Delivery
  rest : Talk (Except WorkerError Outcome)
  since : Option Int

/-- The next question that is no report. -/
def upcoming {α : Type} : Talk α → Option Call
  | .done _ => none
  | .ask (.report _) k => upcoming (k ())
  | .ask c _ => some c

/-- The clock in nanoseconds, the store of markers, the messages of the stream, the ids of those
that were acknowledged, and what each worker is at. -/
structure Crew where
  clock : Int
  markers : Marker.Store
  entries : List Delivery
  acknowledged : List String
  workers : Nat → Option Handling

namespace Crew

inductive Move
  | append (d : Delivery)
  | take (worker : Nat) (d : Delivery)
  | answer (worker : Nat) (c : Call) (r : c.Reply)
  | finish (worker : Nat) (result : Except WorkerError Outcome)
  | crash (worker : Nat)
  | lapse (key : String)
  | advance (clock : Int)

def now (s : Crew) : Instant := .ofNanos s.clock

/-- How long the store is asked to keep a marker: for whole seconds, at least one. -/
def lifetime (ttl : Span) : Span := .ofSeconds (Nat.max 1 ttl.seconds)

theorem lifetime_ofSeconds {n : Nat} (h : 0 < n) : lifetime (.ofSeconds n) = .ofSeconds n := by
  have hn : Nat.max 1 n = n := Nat.max_eq_right h
  simp [lifetime, Span.ofSeconds, Span.seconds, hn]

/-- How a question may be answered, and what the answer leaves of the markers and of what was
acknowledged. -/
inductive Effect (s : Crew) : (c : Call) → c.Reply → Marker.Store → List String → Prop
  | report (r : Report) (u : Unit) : Effect s (.report r) u s.markers s.acknowledged
  | begin (key : String) (ttl : Span) :
      Effect s (.tryBegin key ttl)
        (Except.ok (s.markers.tryBegin key (lifetime ttl) s.now).2 :
          Except Marker.StoreError (Option Marker))
        (s.markers.tryBegin key (lifetime ttl) s.now).1 s.acknowledged
  | beginFailed (key : String) (ttl : Span) (e : Marker.StoreError) (done : Bool) :
      Effect s (.tryBegin key ttl) (Except.error e : Except Marker.StoreError (Option Marker))
        (if done then (s.markers.tryBegin key (lifetime ttl) s.now).1 else s.markers)
        s.acknowledged
  | send (r : Webhook.Request) {status : Nat} (success : Webhook.IsSuccess status) :
      Effect s (.send r) (Except.ok status : Except Webhook.SendError Nat) s.markers s.acknowledged
  | sendFailed (r : Webhook.Request) (e : Webhook.SendError) :
      Effect s (.send r) (Except.error e : Except Webhook.SendError Nat) s.markers s.acknowledged
  | mark (key : String) (ttl : Span) :
      Effect s (.markDelivered key ttl) (Except.ok () : Except Marker.StoreError Unit)
        (s.markers.markDelivered key (lifetime ttl) s.now) s.acknowledged
  | markFailed (key : String) (ttl : Span) (e : Marker.StoreError) (done : Bool) :
      Effect s (.markDelivered key ttl) (Except.error e : Except Marker.StoreError Unit)
        (if done then s.markers.markDelivered key (lifetime ttl) s.now else s.markers)
        s.acknowledged
  | acknowledge (id : String) :
      Effect s (.acknowledge id) (Except.ok () : Except BrokerError Unit) s.markers
        (id :: s.acknowledged)
  | acknowledgeFailed (id : String) (e : BrokerError) (done : Bool) :
      Effect s (.acknowledge id) (Except.error e : Except BrokerError Unit) s.markers
        (if done then id :: s.acknowledged else s.acknowledged)

namespace Effect

variable {s : Crew} {key id : String} {ttl : Span} {markers : Marker.Store} {ids : List String}

/-- An answer about a marker is that of the store. -/
theorem begun {marker : Option Marker}
    (h : Effect s (.tryBegin key ttl) (Except.ok marker : Except Marker.StoreError _) markers ids) :
    (s.markers.tryBegin key (lifetime ttl) s.now).2 = marker ∧
      markers = (s.markers.tryBegin key (lifetime ttl) s.now).1 := by
  generalize hr : (Except.ok marker : Except Marker.StoreError (Option Marker)) = r at h
  cases h with
  | begin => exact ⟨(Except.ok.inj hr).symm, rfl⟩
  | beginFailed => cases hr

theorem sent {r : Webhook.Request} {status : Nat}
    (h : Effect s (.send r) (Except.ok status : Except Webhook.SendError Nat) markers ids) :
    Webhook.IsSuccess status := by
  cases h with
  | send _ success => exact success

theorem marked {u : Unit}
    (h : Effect s (.markDelivered key ttl) (Except.ok u : Except Marker.StoreError Unit) markers
      ids) : markers = s.markers.markDelivered key (lifetime ttl) s.now := by
  cases h with
  | mark => rfl

theorem acked {u : Unit}
    (h : Effect s (.acknowledge id) (Except.ok u : Except BrokerError Unit) markers ids) :
    ids = id :: s.acknowledged := by
  cases h with
  | acknowledge => rfl

end Effect

/-- A POST begins when the marker for it was set. -/
def sinceAfter (clock : Int) (since : Option Int) : (c : Call) → c.Reply → Option Int
  | .tryBegin _ _, .ok none => some clock
  | _, _ => since

inductive Step (cfg : Nat → Config) : Crew → Move → Crew → Prop
  | append {s : Crew} {d : Delivery} (fresh : ∀ e ∈ s.entries, e.id ≠ d.id) :
      Step cfg s (.append d) { s with entries := s.entries ++ [d] }
  | take {s : Crew} {w : Nat} {d : Delivery} (free : s.workers w = none) (mem : d ∈ s.entries) :
      Step cfg s (.take w d)
        { s with workers := Function.update s.workers w (some ⟨d, handle (cfg w) d, none⟩) }
  | answer {s : Crew} {w : Nat} {d : Delivery} {c : Call}
      {k : c.Reply → Talk (Except WorkerError Outcome)} {since : Option Int} {r : c.Reply}
      {markers : Marker.Store} {acknowledged : List String}
      (asking : s.workers w = some ⟨d, .ask c k, since⟩)
      (effect : Effect s c r markers acknowledged) :
      Step cfg s (.answer w c r)
        { s with
          markers, acknowledged
          workers := Function.update s.workers w (some ⟨d, k r, sinceAfter s.clock since c r⟩) }
  | finish {s : Crew} {w : Nat} {d : Delivery} {result : Except WorkerError Outcome}
      {since : Option Int} (done : s.workers w = some ⟨d, .done result, since⟩) :
      Step cfg s (.finish w result) { s with workers := Function.update s.workers w none }
  | crash {s : Crew} {w : Nat} :
      Step cfg s (.crash w) { s with workers := Function.update s.workers w none }
  | lapse {s : Crew} {key : String} :
      Step cfg s (.lapse key) { s with markers := s.markers.lapse key }
  | advance {s : Crew} {clock : Int} : Step cfg s (.advance clock) { s with clock }

/-! ## Time -/

/-- A handling lets the clock go on to a time: a POST ends within the timeout from its start on, and
the delivery is recorded when the POST ends. -/
def Allows (timeout : Span) (now clock : Int) (g : Handling) : Prop :=
  match upcoming g.rest with
  | some (.send _) => ∀ start ∈ g.since, clock ≤ start + timeout.nanos
  | some (.markDelivered ..) => clock ≤ now
  | _ => True

/-- The clock goes on only as far as every handling allows, and no marker lapses before its time. -/
def Timely (timeout : Span) (s : Crew) : Move → Prop
  | .advance clock => s.clock ≤ clock ∧ ∀ w g, s.workers w = some g →
      Allows timeout s.clock clock g
  | .lapse _ => False
  | _ => True

structure TimedStep (cfg : Nat → Config) (timeout : Span) (s : Crew) (m : Move) (s' : Crew) :
    Prop where
  step : Step cfg s m s'
  timely : Timely timeout s m

abbrev Trace := List (Transition Crew Move)

/-- A worker begins to post for an outbox event: it is given the marker. -/
def Starts (t : Transition Crew Move) (w : Nat) (n : Int) : Prop :=
  ∃ g m event key ttl, t.before.workers w = some g ∧ Carries g.delivery m event ∧
    m.outboxId = n ∧ t.move = .answer w (.tryBegin key ttl) (.ok none)

/-- The POST of a worker for an outbox event is answered with a success. -/
def Takes (t : Transition Crew Move) (w : Nat) (n : Int) : Prop :=
  ∃ g m event status, t.before.workers w = some g ∧ Carries g.delivery m event ∧
    m.outboxId = n ∧ Webhook.IsSuccess status ∧
    t.move = .answer w (.send ⟨m.eventType, event.idempotencyKey, m.body⟩) (.ok status)

/-- The record of a worker that a delivery is done is kept. -/
def Records (t : Transition Crew Move) (w : Nat) : Prop :=
  ∃ key ttl, t.move = .answer w (.markDelivered key ttl) (.ok ())

/-! ## What a step does -/

namespace Step

variable {cfg : Nat → Config} {s s' : Crew} {m : Move} {w : Nat} {g : Handling}

theorem mem_entries (h : Step cfg s m s') {d : Delivery} (hd : d ∈ s.entries) : d ∈ s'.entries := by
  cases h with
  | append => exact List.mem_append_left _ hd
  | _ => exact hd

theorem mem_acknowledged (h : Step cfg s m s') {id : String} (hid : id ∈ s.acknowledged) :
    id ∈ s'.acknowledged := by
  cases h with
  | answer asking effect =>
      cases effect with
      | acknowledge => exact List.mem_cons_of_mem _ hid
      | acknowledgeFailed _ _ done =>
          cases done with
          | false => exact hid
          | true => exact List.mem_cons_of_mem _ hid
      | _ => exact hid
  | _ => exact hid

/-- A worker is left as it was, or starts with a delivery, or was given an answer. -/
theorem worker_cases (h : Step cfg s m s') (hg : s'.workers w = some g) :
    s.workers w = some g ∨
    (∃ d ∈ s.entries, m = .take w d ∧ g = ⟨d, handle (cfg w) d, none⟩) ∨
    ∃ c r k d since, m = .answer w c r ∧ s.workers w = some ⟨d, .ask c k, since⟩ ∧
      g = ⟨d, k r, sinceAfter s.clock since c r⟩ := by
  cases h with
  | @take w' d free mem =>
      simp only [Function.update_apply] at hg
      split at hg
      · rename_i hw
        subst hw
        exact Or.inr (Or.inl ⟨d, mem, rfl, (Option.some.inj hg).symm⟩)
      · exact Or.inl hg
  | @answer w' d c k since r markers acknowledged asking effect =>
      simp only [Function.update_apply] at hg
      split at hg
      · rename_i hw
        subst hw
        exact Or.inr (Or.inr ⟨c, r, k, d, since, rfl, asking, (Option.some.inj hg).symm⟩)
      · exact Or.inl hg
  | finish | crash =>
      simp only [Function.update_apply] at hg
      split at hg
      · cases hg
      · exact Or.inl hg
  | _ => exact Or.inl hg

/-- An answer goes to a worker that asked, and has the effect of its question. -/
theorem answered {c : Call} {r : c.Reply} (h : Step cfg s (.answer w c r) s') :
    ∃ d k since, s.workers w = some ⟨d, .ask c k, since⟩ ∧
      s'.workers w = some ⟨d, k r, sinceAfter s.clock since c r⟩ ∧
      Effect s c r s'.markers s'.acknowledged := by
  cases h with
  | answer asking effect => exact ⟨_, _, _, asking, Function.update_self .., effect⟩

/-- For the handling of the worker that asked, an answer is a turn of the protocol. -/
theorem turned {c : Call} {r : c.Reply} {st : Stage} (h : Step cfg s (.answer w c r) s')
    (hg : s.workers w = some g) (handles : Handles (cfg w) g.delivery g.rest st) :
    ∃ rest st', Turn (cfg w) g.delivery st c r st' ∧ Handles (cfg w) g.delivery rest st' ∧
      s'.workers w = some ⟨g.delivery, rest, sinceAfter s.clock g.since c r⟩ ∧
      Effect s c r s'.markers s'.acknowledged := by
  obtain ⟨d, k, since, asking, hg', effect⟩ := h.answered
  obtain rfl := Option.some.inj (hg.symm.trans asking)
  obtain ⟨st', allowed, rest⟩ := handles r
  exact ⟨k r, st', allowed, rest, hg', effect⟩

theorem clock_answer {c : Call} {r : c.Reply} (h : Step cfg s (.answer w c r) s') :
    s'.clock = s.clock := by
  cases h
  rfl

/-- Markers and acknowledgements change only by answers, and by markers that lapse. -/
theorem store_cases (h : Step cfg s m s') :
    (s'.markers = s.markers ∧ s'.acknowledged = s.acknowledged) ∨
    (∃ key, m = .lapse key ∧ s'.markers = s.markers.lapse key ∧
      s'.acknowledged = s.acknowledged) ∨
    ∃ w c r, m = .answer w c r := by
  cases h with
  | answer => exact Or.inr (Or.inr ⟨_, _, _, rfl⟩)
  | lapse => exact Or.inr (Or.inl ⟨_, rfl, rfl, rfl⟩)
  | _ => exact Or.inl ⟨rfl, rfl⟩

/-- What holds of every handling and its stage: it starts with each delivery that is taken, and goes
on through every turn of the protocol. -/
theorem stages {P P' : Nat → Handling → Stage → Prop} (h : Step cfg s m s')
    (before : ∀ w g, s.workers w = some g → ∃ st, Handles (cfg w) g.delivery g.rest st ∧ P w g st)
    (keep : ∀ w g st, s.workers w = some g → Handles (cfg w) g.delivery g.rest st → P w g st →
      P' w g st)
    (start : ∀ w d, m = .take w d → d ∈ s.entries → P' w ⟨d, handle (cfg w) d, none⟩ .start)
    (turn : ∀ w c r k d since st st', m = .answer w c r →
      s.workers w = some ⟨d, .ask c k, since⟩ → P w ⟨d, .ask c k, since⟩ st →
      Turn (cfg w) d st c r st' → P' w ⟨d, k r, sinceAfter s.clock since c r⟩ st') :
    ∀ w g, s'.workers w = some g → ∃ st, Handles (cfg w) g.delivery g.rest st ∧ P' w g st := by
  intro w g hg
  rcases h.worker_cases hg with same | ⟨d, hd, hm, rfl⟩ | ⟨c, r, k, d, since, hm, asking, rfl⟩
  · obtain ⟨st, handles, holds⟩ := before w g same
    exact ⟨st, handles, keep w g st same handles holds⟩
  · exact ⟨.start, handle_handles (cfg w) d, start w d hm hd⟩
  · obtain ⟨st, handles, holds⟩ := before w _ asking
    obtain ⟨st', allowed, rest⟩ := handles r
    exact ⟨st', rest, turn w c r k d since st st' hm asking holds allowed⟩

end Step

/-! ## One delivery -/

section Delivery

variable {cfg : Nat → Config} {timeout : Span} {s s₀ : Crew} {w : Nat} {d : Delivery}
  {m : Message} {event : Check.Completed}

theorem exists_take (cfg : Nat → Config) (timeout : Span) (free : s.workers w = none)
    (mem : d ∈ s.entries) : ∃ s', TimedStep cfg timeout s (.take w d) s' ∧
      s'.workers w = some ⟨d, handle (cfg w) d, none⟩ ∧ s'.markers = s.markers :=
  ⟨_, ⟨.take free mem, trivial⟩, Function.update_self .., rfl⟩

theorem exists_answer (cfg : Nat → Config) (timeout : Span) {c : Call}
    {k : c.Reply → Talk (Except WorkerError Outcome)} {since : Option Int} {r : c.Reply}
    {markers : Marker.Store} {ids : List String} (asking : s.workers w = some ⟨d, .ask c k, since⟩)
    (effect : Effect s c r markers ids) :
    ∃ s', TimedStep cfg timeout s (.answer w c r) s' ∧
      s'.workers w = some ⟨d, k r, sinceAfter s.clock since c r⟩ ∧ s'.acknowledged = ids :=
  ⟨_, ⟨.answer asking effect, trivial⟩, Function.update_self .., rfl⟩

theorem handle_of_carries (wcfg : Config) (carries : Carries d m event) :
    ∃ k, handle wcfg d = .ask (.tryBegin (Marker.key m.outboxId) wcfg.inFlightTtl) k ∧
      k (Except.ok none) = post wcfg d m event.idempotencyKey := by
  unfold handle
  rw [decode_eq_ok_iff.2 ⟨event, carries, rfl⟩]
  exact ⟨_, rfl, rfl⟩

/-- A worker that is free delivers a message that has no marker, if nothing fails: the receiver takes
it, that is recorded, and the message is acknowledged. -/
theorem exists_delivery (cfg : Nat → Config) (timeout : Span) (free : s.workers w = none)
    (mem : d ∈ s.entries) (carries : Carries d m event)
    (unmarked : s.markers.entries.lookup (Marker.key m.outboxId) = none) :
    ∃ before taken between marked after s',
      Run (TimedStep cfg timeout) s (before ++ taken :: between ++ marked :: after) s' ∧
      (∃ t ∈ before, Starts t w m.outboxId) ∧ Takes taken w m.outboxId ∧ Records marked w ∧
      (∀ t ∈ between, ∀ d, t.move ≠ .take w d) ∧ d.id ∈ s'.acknowledged := by
  obtain ⟨k, hhandle, hk⟩ := handle_of_carries (cfg w) carries
  obtain ⟨s₁, take, at₁, hmarkers⟩ := exists_take cfg timeout free mem
  have begins := Effect.begin (s := s₁) (Marker.key m.outboxId) (cfg w).inFlightTtl
  have none : (s₁.markers.tryBegin (Marker.key m.outboxId) (lifetime (cfg w).inFlightTtl)
      s₁.now).2 = none := by
    rw [hmarkers]
    exact Marker.Store.tryBegin_of_unmarked unmarked
  rw [none] at begins
  rw [hhandle] at at₁
  obtain ⟨s₂, start, at₂, _⟩ := exists_answer cfg timeout at₁ begins
  rw [hk] at at₂
  obtain ⟨s₃, count, at₃, _⟩ := exists_answer cfg timeout at₂ (.report _ ())
  obtain ⟨s₄, send, at₄, _⟩ := exists_answer cfg timeout at₃
    (.send ⟨m.eventType, event.idempotencyKey, m.body⟩ (show Webhook.IsSuccess 200 by decide))
  obtain ⟨s₅, time, at₅, _⟩ := exists_answer cfg timeout at₄ (.report _ ())
  obtain ⟨s₆, record, at₆, _⟩ := exists_answer cfg timeout at₅ (.mark _ _)
  obtain ⟨s₇, acknowledge, at₇, hids⟩ := exists_answer cfg timeout at₆ (.acknowledge _)
  have run := (Run.refl.head acknowledge).head record |>.head time |>.head send |>.head count
    |>.head start |>.head take
  refine ⟨[_, _, _], _, [_], _, [_], s₇, run, ⟨_, List.mem_cons_of_mem _ List.mem_cons_self, ?_⟩,
    ?_, ⟨_, _, rfl⟩, by simp, ?_⟩
  · exact ⟨_, m, event, _, _, at₁, carries, rfl, rfl⟩
  · exact ⟨_, m, event, 200, at₃, carries, rfl, by decide, rfl⟩
  · rw [hids]
    exact List.mem_cons_self

end Delivery

def sampleMessage : Message where
  eventType := Check.eventType
  body := "\x7b\"check_id\":7,\"user_id\":\"u\",\"point\":\x7b\"lat\":1,\"lon\":2\x7d," ++
    "\"incident_ids\":[],\"occurred_at\":\"2025-01-01T00:00:00Z\"\x7d"
  outboxId := 7

theorem exists_carries_sample :
    ∃ event, Carries (.ofMessage "1-0" sampleMessage) sampleMessage event := by
  have spelt : (Check.Completed.ofText? sampleMessage.body).isSome = true := by decide +kernel
  obtain ⟨event, spells⟩ := Option.isSome_iff_exists.1 spelt
  exact ⟨event, ⟨⟨"7", by decide +kernel, by decide +kernel⟩, by decide +kernel, by decide +kernel,
    rfl, spells⟩⟩

def waiting : Crew := ⟨0, .empty, [.ofMessage "1-0" sampleMessage], [], fun _ => none⟩

end Crew

end Courier.Dispatch
