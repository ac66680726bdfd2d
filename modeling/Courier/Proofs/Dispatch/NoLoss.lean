import Courier.Proofs.Dispatch.Crew
import Mathlib.Data.List.Dedup

/-! # No message is lost

Whatever fails and whenever workers crash, a message is acknowledged only if nobody can decode it or
a receiver took it. What carries this from one worker to another are the markers: one that says that
a delivery is done is set only for an event that a receiver took.
-/

namespace Courier.Dispatch.Crew

open Courier.Stream

/-- Some POST for an outbox event was answered with a success. -/
def Took (trace : Trace) (n : Int) : Prop := ∃ t ∈ trace, ∃ w, Takes t w n

def TookMessage (trace : Trace) (d : Delivery) : Prop :=
  ∃ m event, Carries d m event ∧ Took trace m.outboxId

variable {cfg : Nat → Config} {s s' s₀ : Crew} {m : Move} {trace rest : Trace} {d : Delivery}

theorem Took.append {n : Int} (h : Took trace n) : Took (trace ++ rest) n := by
  obtain ⟨t, ht, takes⟩ := h
  exact ⟨t, List.mem_append_left _ ht, takes⟩

theorem TookMessage.append (h : TookMessage trace d) : TookMessage (trace ++ rest) d := by
  obtain ⟨m, event, carries, took⟩ := h
  exact ⟨m, event, carries, took.append⟩

/-! ## Markers -/

/-- Markers say that a delivery is done only for events that a receiver took. -/
def Vouches (trace : Trace) (markers : Marker.Store) : Prop :=
  ∀ key e, markers.entries.lookup key = some e → Marker.ofText e.text = .delivered →
    ∃ n, key = Marker.key n ∧ Took trace n

namespace Vouches

variable {markers : Marker.Store} {key : String} {ttl : Span} {clock : Int}

theorem append (h : Vouches trace markers) : Vouches (trace ++ rest) markers := by
  intro key e found delivered
  obtain ⟨n, hkey, took⟩ := h key e found delivered
  exact ⟨n, hkey, took.append⟩

theorem lapse (h : Vouches trace markers) : Vouches trace (markers.lapse key) := by
  intro k e found delivered
  rw [Marker.Store.lookup_lapse] at found
  split at found
  · cases found
  · exact h k e found delivered

theorem tryBegin (h : Vouches trace markers) :
    Vouches trace (markers.tryBegin key ttl (.ofNanos clock)).1 := by
  rcases Marker.Store.tryBegin_cases markers key ttl (.ofNanos clock) with
    ⟨e, _, _, heq⟩ | ⟨_, heq⟩
  · rwa [heq]
  · rw [heq]
    intro k e found delivered
    rw [Marker.Store.lookup_set] at found
    split at found
    · cases found
      cases delivered
    · exact h k e found delivered

theorem markDelivered {n : Int} (h : Vouches trace markers) (took : Took trace n) :
    Vouches trace (markers.markDelivered (Marker.key n) ttl (.ofNanos clock)) := by
  intro k e found delivered
  rw [Marker.Store.markDelivered, Marker.Store.lookup_set] at found
  split at found
  · rename_i hk
    exact ⟨n, hk, took⟩
  · exact h k e found delivered

/-- Who is told that the delivery of an event is done may rely on it. -/
theorem took {n : Int} (h : Vouches trace markers)
    (told : (markers.tryBegin (Marker.key n) ttl (.ofNanos clock)).2 = some .delivered) :
    Took trace n := by
  rcases Marker.Store.tryBegin_cases markers (Marker.key n) ttl (.ofNanos clock) with
    ⟨e, found, _, heq⟩ | ⟨_, heq⟩
  · rw [heq, Option.some.injEq] at told
    obtain ⟨n', hkey, took⟩ := h _ e found told
    rwa [Marker.key_injective hkey]
  · rw [heq] at told
    cases told

end Vouches

/-! ## Stages -/

/-- What a stage of the handling of a delivery rests on. -/
def Backed (trace : Trace) (d : Delivery) : Stage → Prop
  | .taken | .recorded | .known => TookMessage trace d
  | _ => True

theorem Backed.append {st : Stage} (h : Backed trace d st) : Backed (trace ++ rest) d st := by
  cases st with
  | taken | recorded | known => exact TookMessage.append h
  | _ => trivial

theorem backed_acknowledged (trace : Trace) (d : Delivery) (o : Outcome)
    (r : Except BrokerError Unit) : Backed trace d (.acknowledged o r) := by
  cases r <;> trivial

/-- Every turn of the protocol leads to a stage that has what it rests on. -/
theorem Backed.turn {w : Nat} {c : Call} {r : c.Reply} {st st' : Stage} {since : Option Int}
    {k : c.Reply → Talk (Except WorkerError Outcome)} (h : Backed trace d st)
    (vouches : Vouches trace s.markers) (step : Step cfg s (.answer w c r) s')
    (asking : s.workers w = some ⟨d, .ask c k, since⟩) (turn : Turn (cfg w) d st c r st') :
    Backed (trace ++ [⟨s, .answer w c r, s'⟩]) d st' := by
  obtain ⟨_, _, _, _, _, effect⟩ := step.answered
  cases turn with
  | report => exact h.append
  | drop => exact backed_acknowledged _ _ _ _
  | @begin m event carries r =>
      cases r with
      | error e => trivial
      | ok marker =>
          cases marker with
          | none => trivial
          | some marker =>
              cases marker with
              | inFlight => trivial
              | delivered => exact ⟨m, event, carries, (vouches.took effect.begun.1).append⟩
  | @post m event carries r =>
      cases r with
      | error e => trivial
      | ok status =>
          refine ⟨m, event, carries, _, List.mem_append_right _ List.mem_cons_self, ?_⟩
          exact ⟨w, _, m, event, status, asking, carries, rfl, effect.sent, rfl⟩
  | record => exact TookMessage.append h
  | finish => exact backed_acknowledged _ _ _ _
  | «repeat» => exact backed_acknowledged _ _ _ _

/-! ## Answers -/

section Answers

variable {c : Call} {r : c.Reply} {st st' : Stage} {markers : Marker.Store} {ids : List String}
  {wcfg : Config}

/-- A marker that says that a delivery is done is set only after the receiver took it. -/
theorem Vouches.answered (h : Vouches trace s.markers) (backed : Backed trace d st)
    (turn : Turn wcfg d st c r st') (effect : Effect s c r markers ids) :
    Vouches trace markers := by
  cases effect with
  | begin => exact h.tryBegin
  | beginFailed _ _ _ done =>
      cases done with
      | false => exact h
      | true => exact h.tryBegin
  | mark =>
      cases turn with
      | record carries =>
          obtain ⟨m', event', carries', took⟩ := backed
          obtain ⟨rfl, rfl⟩ := carries.eq carries'
          exact h.markDelivered took
  | markFailed _ _ _ done =>
      cases turn with
      | record carries =>
          obtain ⟨m', event', carries', took⟩ := backed
          obtain ⟨rfl, rfl⟩ := carries.eq carries'
          cases done with
          | false => exact h
          | true => exact h.markDelivered took
  | _ => exact h

/-- A delivery is acknowledged only if it cannot be decoded or the receiver took its event. -/
theorem acknowledged_of_turn (backed : Backed trace d st) (turn : Turn wcfg d st c r st')
    (effect : Effect s c r markers ids) {id : String} (hid : id ∈ ids) :
    id ∈ s.acknowledged ∨ id = d.id ∧ (Undecodable d ∨ TookMessage trace d) := by
  have reason {id : String} {r : Except BrokerError Unit}
      (turn : Turn wcfg d st (.acknowledge id) r st') :
      id = d.id ∧ (Undecodable d ∨ TookMessage trace d) := by
    cases turn with
    | drop undecodable => exact ⟨rfl, Or.inl undecodable⟩
    | finish | «repeat» => exact ⟨rfl, Or.inr backed⟩
  cases effect with
  | acknowledge =>
      rcases List.mem_cons.1 hid with rfl | hid
      · exact Or.inr (reason turn)
      · exact Or.inl hid
  | acknowledgeFailed _ _ done =>
      cases done with
      | false => exact Or.inl hid
      | true =>
          rcases List.mem_cons.1 hid with rfl | hid
          · exact Or.inr (reason turn)
          · exact Or.inl hid
  | _ => exact Or.inl hid

end Answers

/-! ## Runs -/

/-- The workers have nothing in hand, nothing is acknowledged, there are no markers, and no two
messages have one id. -/
structure Fresh (s : Crew) : Prop where
  idle : ∀ w, s.workers w = none
  acknowledged : s.acknowledged = []
  markers : s.markers = .empty
  ids : (s.entries.map (·.id)).Nodup

/-- Every handling has what its stage rests on, markers vouch for what was taken, and what is
acknowledged cannot be decoded or was taken. -/
structure Sound (cfg : Nat → Config) (trace : Trace) (s : Crew) : Prop where
  workers : ∀ w g, s.workers w = some g → ∃ st, Handles (cfg w) g.delivery g.rest st ∧
    g.delivery ∈ s.entries ∧ Backed trace g.delivery st
  markers : Vouches trace s.markers
  acknowledged : ∀ id ∈ s.acknowledged, ∃ d ∈ s.entries, d.id = id ∧
    (Undecodable d ∨ TookMessage trace d)
  ids : (s.entries.map (·.id)).Nodup

namespace Sound

theorem start (fresh : s.Fresh) : Sound cfg [] s where
  workers := by simp [fresh.idle]
  markers := by simp [Vouches, fresh.markers, Marker.Store.empty]
  acknowledged := by simp [fresh.acknowledged]
  ids := fresh.ids

theorem markers_step (h : Sound cfg trace s) (step : Step cfg s m s') :
    Vouches (trace ++ [⟨s, m, s'⟩]) s'.markers := by
  rcases step.store_cases with ⟨same, _⟩ | ⟨key, _, lapsed, _⟩ | ⟨w, c, r, rfl⟩
  · rw [same]
    exact h.markers.append
  · rw [lapsed]
    exact h.markers.lapse.append
  · obtain ⟨d, k, since, asking, _, effect⟩ := step.answered
    obtain ⟨st, handles, _, backed⟩ := h.workers w _ asking
    obtain ⟨st', allowed, _⟩ := handles r
    exact (h.markers.answered backed allowed effect).append

theorem acknowledged_step (h : Sound cfg trace s) (step : Step cfg s m s') :
    ∀ id ∈ s'.acknowledged, ∃ d ∈ s'.entries, d.id = id ∧
      (Undecodable d ∨ TookMessage (trace ++ [⟨s, m, s'⟩]) d) := by
  have old {id : String} (hid : id ∈ s.acknowledged) : ∃ d ∈ s'.entries, d.id = id ∧
      (Undecodable d ∨ TookMessage (trace ++ [⟨s, m, s'⟩]) d) := by
    obtain ⟨d, hd, hdid, reason⟩ := h.acknowledged id hid
    exact ⟨d, step.mem_entries hd, hdid, reason.imp_right TookMessage.append⟩
  intro id hid
  rcases step.store_cases with ⟨_, same⟩ | ⟨_, _, _, same⟩ | ⟨w, c, r, rfl⟩
  · rw [same] at hid
    exact old hid
  · rw [same] at hid
    exact old hid
  · obtain ⟨d, k, since, asking, _, effect⟩ := step.answered
    obtain ⟨st, handles, hd, backed⟩ := h.workers w _ asking
    obtain ⟨st', allowed, _⟩ := handles r
    rcases acknowledged_of_turn backed allowed effect hid with hid | ⟨rfl, reason⟩
    · exact old hid
    · exact ⟨d, step.mem_entries hd, rfl, reason.imp_right TookMessage.append⟩

theorem ids_step (h : Sound cfg trace s) (step : Step cfg s m s') :
    (s'.entries.map (·.id)).Nodup := by
  cases step with
  | append fresh =>
      rw [List.map_append]
      refine List.nodup_append.2 ⟨h.ids, List.nodup_singleton _, ?_⟩
      intro a ha b hb
      obtain ⟨e, he, rfl⟩ := List.mem_map.1 ha
      rw [List.mem_singleton.1 hb]
      exact fresh e he
  | _ => exact h.ids

theorem step (h : Sound cfg trace s) (step : Step cfg s m s') :
    Sound cfg (trace ++ [⟨s, m, s'⟩]) s' where
  workers := by
    refine step.stages h.workers ?_ ?_ ?_
    · rintro w g st _ _ ⟨hd, backed⟩
      exact ⟨step.mem_entries hd, backed.append⟩
    · intro w d hm hd
      exact ⟨step.mem_entries hd, trivial⟩
    · rintro w c r k d since st st' rfl asking ⟨hd, backed⟩ turn
      exact ⟨step.mem_entries hd, backed.turn h.markers step asking turn⟩
  markers := h.markers_step step
  acknowledged := h.acknowledged_step step
  ids := h.ids_step step

end Sound

theorem sound (fresh : s₀.Fresh) (run : Run (Step cfg) s₀ trace s) : Sound cfg trace s := by
  induction run with
  | refl => exact Sound.start fresh
  | tail _ last ih => exact ih.step last

/-- What a run of workers keeps.

* `acknowledged`: a message is acknowledged only if it cannot be decoded, or some POST for its
  outbox event has been answered with a success.
* `kept`: so one that can be decoded is not acknowledged as long as no such POST was.
* `vouched`: a marker says that a delivery is done only for such outbox events. -/
structure NoLoss (trace : Trace) (s : Crew) : Prop where
  acknowledged : ∀ d ∈ s.entries, d.id ∈ s.acknowledged → Undecodable d ∨
    ∃ m event, Carries d m event ∧ Took trace m.outboxId
  kept : ∀ d ∈ s.entries, ∀ m event, Carries d m event → ¬ Took trace m.outboxId →
    d.id ∉ s.acknowledged
  vouched : ∀ n e, s.markers.entries.lookup (Marker.key n) = some e →
    Marker.ofText e.text = .delivered → Took trace n

/-- No message is lost. -/
theorem no_loss (fresh : s₀.Fresh) (run : Run (Step cfg) s₀ trace s) : NoLoss trace s := by
  have hsound := sound fresh run
  have acknowledged : ∀ d ∈ s.entries, d.id ∈ s.acknowledged → Undecodable d ∨
      ∃ m event, Carries d m event ∧ Took trace m.outboxId := by
    intro d hd hid
    obtain ⟨d', hd', hid', reason⟩ := hsound.acknowledged d.id hid
    rwa [List.inj_on_of_nodup_map hsound.ids hd' hd hid'] at reason
  refine ⟨acknowledged, ?_, ?_⟩
  · intro d hd m event carries untaken hid
    rcases acknowledged d hd hid with undecodable | ⟨m', event', carries', took⟩
    · exact undecodable m event carries
    · obtain ⟨rfl, rfl⟩ := carries.eq carries'
      exact untaken took
  · intro n e found delivered
    obtain ⟨n', hkey, took⟩ := hsound.markers _ e found delivered
    rwa [Marker.key_injective hkey]

/-- One message is delivered and acknowledged. -/
theorem no_loss_waiting : ∃ trace s, NoLoss trace s ∧ Took trace 7 ∧ "1-0" ∈ s.acknowledged := by
  let cfg : Nat → Config := fun _ =>
    ⟨"worker-0", 1, .ofSeconds 2, .ofSeconds 60, .ofSeconds 30, .ofSeconds 86400⟩
  obtain ⟨event, carries⟩ := exists_carries_sample
  obtain ⟨before, taken, between, marked, after, s, run, _, takes, _, _, hid⟩ :=
    exists_delivery (w := 0) (s := waiting) cfg (.ofSeconds 5) rfl List.mem_cons_self carries rfl
  have fresh : waiting.Fresh := ⟨fun _ => rfl, rfl, rfl, List.nodup_singleton _⟩
  exact ⟨_, s, no_loss fresh (run.mono TimedStep.step), ⟨taken, by simp, 0, takes⟩, hid⟩

end Courier.Dispatch.Crew
