import Courier.Proofs.Check.Reading
import Courier.Proofs.Dispatch.Protocol
import Courier.Proofs.Relay.Evidence
import Courier.Redis.Broker

/-! # The way of an event

An event that was stored is pushed by a relay, kept by the stream, and posted by a worker. On the way
it is written to a column and read back, copied into a claim, written into a message, and read from
the fields of a delivery. It arrives as it was: the key is the number of the check, and what a
worker posts is the text that the relay pushed, which spells the event.
-/

namespace Courier.Pipeline

open Courier.Check Courier.Dispatch Courier.Outbox Courier.Relay Courier.Storage Courier.Stream
open Courier.Redis (Reply)

/-! ## From the stream to the receiver -/

/-- What the server answers for a message that it keeps: an id, and the fields as they came. -/
def echo (id : String) (x : Message) : Reply :=
  .list [.text id, .list ((x.fields.flatMap fun (k, v) => [k, v]).map .text)]

def numberText (e : Completed) : String := String.ofList (Text.integer e.checkId)

/-- An event arrives by a message.

* `body`, `event`: the message has the text of the event, which spells the event.
* `key`: its key is the number of the check.
* `delivered`, `decoded`: every delivery of it that the server may hand out carries all that.
* `handled`, `posted`: no worker drops the delivery, and what a worker posts for it, if anything, is
  the text of the message under that key. -/
structure Arrives (e : Completed) (x : Message) : Prop where
  body : x.body = e.json.text
  event : Completed.ofText? x.body = some e
  key : businessKey x = .ok (numberText e)
  delivered : ∀ id, (Redis.Broker.entry? (echo id x)).map Redis.Broker.Entry.delivery =
    some (.ofMessage id x)
  decoded : ∀ id, decode (.ofMessage id x) = .ok (x, numberText e)
  handled : ∀ cfg id, ¬ (handle cfg (.ofMessage id x)).Yields (.ok .poison)
  posted : ∀ cfg id request, (handle cfg (.ofMessage id x)).Asks (.send request) ↔
    request = ⟨x.eventType, numberText e, x.body⟩

theorem entry?_echo (id : String) (x : Message) :
    (Redis.Broker.entry? (echo id x)).map Redis.Broker.Entry.delivery = some (.ofMessage id x) :=
  rfl

variable {e : Completed} {x : Message}

theorem Arrives.of_body (readable : e.Readable) (word : Text.InWord x.outboxId)
    (known : x.eventType = eventType) (body : x.body = e.json.text) : Arrives e x := by
  have spells : Completed.ofText? x.body = some e := body ▸ readable.event
  have carries (id : String) := carries_ofMessage id word known spells
  exact {
    body := body
    event := spells
    key := businessKey_eq_ok_iff.2 ⟨e, known, spells, rfl⟩
    delivered := fun id => entry?_echo id x
    decoded := fun id => decode_eq_ok_iff.2 ⟨e, carries id, rfl⟩
    handled := fun _ id => (carries id).not_poison
    posted := fun _ id _ => (carries id).asks_send }

/-! ## From the outbox to the stream -/

theorem stored_of_run {s₀ s : Fleet} {trace : Fleet.Trace} (run : Run Fleet.Step s₀ trace s) :
    ∀ t ∈ trace, ∀ e n, t.move = .enqueue e (.ok n) → ∃ r ∈ s.table.rows,
      r.id = n ∧ r.eventType = e.eventType ∧ r.payload = .ofJson e.payload := by
  induction run with
  | refl => simp
  | @tail trace s m s' _ last ih =>
      intro t ht e n stored
      rcases List.mem_append.1 ht with ht | ht
      · obtain ⟨r, hr, hid, htype, hpayload⟩ := ih t ht e n stored
        obtain ⟨r', hr', rewrites⟩ := last.row_after hr
        obtain ⟨htype', hpayload'⟩ := rewrites.content_eq
        exact ⟨r', hr', rewrites.id_eq.trans hid, htype'.trans htype, hpayload'.trans hpayload⟩
      · rw [List.mem_singleton.1 ht] at stored
        obtain rfl : m = .enqueue e (.ok n) := stored
        obtain ⟨hn, hr⟩ := last.enqueued
        exact ⟨_, hr, hn.symm, rfl, rfl⟩

section Run

variable {cfg : Nat → Relay.Config} {s s₀ : Rounds} {trace : Rounds.Trace}

theorem given_of_pushed (fresh : s₀.Fresh) (run : Run (Rounds.Step cfg) s₀ trace s)
    {u : Transition Rounds Rounds.Move} (hu : u ∈ trace) {w : Nat} {messages : List Message}
    {a : Except BrokerError Unit} (push : u.move = .answer w (.publish messages) a)
    (hx : x ∈ messages) : ∃ c ∈ Fleet.givenIn (trace.map Rounds.project), x = messageOf c := by
  obtain ⟨sent, m, next⟩ := u
  obtain rfl : m = .answer w (.publish messages) a := push
  obtain ⟨before, after, rfl, left, step⟩ := run.of_mem hu
  dsimp only at left step
  have staged := Rounds.staged_of_run fresh left
  cases step with
  | answer asking effect =>
      obtain ⟨batch, hstage, rfl⟩ := staged.publishes asking
      have hand : (Rounds.stageOf before w).batch? = some batch := by rw [hstage]; rfl
      have held := (Rounds.latest_of_head (staged.hand w batch hand)).2
      obtain ⟨c, hc, rfl⟩ := List.mem_map.1 hx
      have given := (Rounds.counted_of_run fresh left).mem_givenIn held hc
      refine ⟨c, ?_, rfl⟩
      rw [List.map_append, Fleet.givenIn_append]
      exact List.mem_append_left _ given

/-- What a run does with an event.

* `stores`: a server that is up stores the event.
* `arrives`: every message that is ever pushed for a row that the event was stored in brings the
  event, whether the push was accepted or refused. The number of the row is a word, which is all that
  its column holds and that a worker reads. -/
structure Travels (cfg : Nat → Relay.Config) (trace : Rounds.Trace) (s : Rounds) (e : Completed) :
    Prop where
  stores : Sql.Up s.session → ∀ notBefore, ∃ s',
    Rounds.Step cfg s (.enqueue (e.newEvent notBefore) (.ok (s.table.lastId + 1))) s'
  arrives : ∀ t ∈ trace, ∀ notBefore n, t.move = .enqueue (e.newEvent notBefore) (.ok n) →
    Text.InWord n → ∀ u ∈ trace, ∀ w messages a, u.move = .answer w (.publish messages) a →
    ∀ x ∈ messages, x.outboxId = n → Arrives e x

/-- In every run an event arrives as it was stored. -/
theorem payload_round_trip (fresh : s₀.Fresh) (run : Run (Rounds.Step cfg) s₀ trace s)
    (readable : e.Readable) : Travels cfg trace s e where
  stores := by
    intro up notBefore
    exact ⟨_, .enqueue (Sql.enqueue_up (e.newEvent notBefore) s.now up)⟩
  arrives := by
    intro t ht notBefore n stored word u hu w messages a push x hx hid
    have view := Rounds.view_of_run fresh run
    have ordered := (Rounds.counted_of_run fresh run).ordered
    obtain ⟨r, hr, hrid, htype, hpayload⟩ := stored_of_run view (Rounds.project t)
      (List.mem_map_of_mem ht) (e.newEvent notBefore) n (congrArg (Rounds.view t.before) stored)
    obtain ⟨c, hc, rfl⟩ := given_of_pushed fresh run hu push hx
    obtain ⟨r', hr', hrid', htype', hpayload'⟩ := Fleet.copied_of_run view c hc
    cases ordered.eq_of_id_eq hr hr' (hrid.trans (hid.symm.trans hrid'.symm))
    have value : r.payload.value = e.json := by
      rw [hpayload]
      exact Document.value_of_value? readable.document
    have body : (messageOf c).body = e.json.text := by rw [messageOf, ← hpayload', value]
    exact .of_body readable (hid ▸ word) (htype'.symm.trans htype) body

/-- A check in an inserted second, by a user whose name needs escapes. -/
def awkward : Completed where
  checkId := -9223372036854775808
  userId := "\"a\\b\x01\n\u00e9"
  point := ⟨52.5, -13.25⟩
  incidentIds := [9223372036854775807, 0, -1]
  occurredAt := ⟨1483228799, 1500000000⟩

theorem readable_awkward : awkward.Readable where
  fits := ⟨by decide, by decide⟩
  lat := by decide +kernel
  lon := by decide +kernel
  proper := Or.inr (by decide)
  year := by decide

theorem payload_round_trip_awkward : ∃ trace s x w,
    Run (Rounds.Step fun _ => Rounds.patient 10) Rounds.resting trace s ∧
    Travels (fun _ => Rounds.patient 10) trace s awkward ∧
    (∃ t ∈ trace, t.move = .enqueue (awkward.newEvent (.ofNanos 0)) (.ok 1)) ∧
    (∃ t ∈ trace, t.move = .answer w (.publish [x]) (.ok ())) ∧ Arrives awkward x := by
  -- the payload is not computed, only carried along
  let table := (Outbox.Table.empty.insert eventType (.ofJson awkward.json) (.ofNanos 0)
    (.ofNanos 0)).1
  let held := (table.claim 10 (.ofNanos 30000000000) (.ofNanos 0)).1
  let claim : Claim := ⟨1, eventType, (Document.ofJson awkward.json).value, 1⟩
  have up : Sql.Up Rounds.resting.session := rfl
  have stored : Sql.transaction id (Sql.enqueue (awkward.newEvent (.ofNanos 0))
      Rounds.resting.now) Rounds.resting.session =
      (.ok 1, (Fleet.serving table 0 (fun _ => []) []).session) := Sql.enqueue_up _ _ up
  have claimable : ∀ r ∈ table.due 10 (.ofNanos 0), r.Claimable := by
    intro r hr
    cases List.mem_singleton.1 (Outbox.Table.mem_of_mem_due hr).1
    have readable : (Document.ofJson awkward.json).value?.isSome := by
      rw [readable_awkward.document]
      rfl
    exact ⟨⟨readable, by decide⟩, by decide⟩
  have claimed : Sql.claimBatch 10 (.ofSeconds 30) (.ofNanos 0)
      (Fleet.serving table 0 (fun _ => []) []).session =
      (.ok [claim], (Fleet.serving held 0 (fun _ => []) []).session) :=
    Sql.claimBatch_up up (by decide) rfl claimable
  have run := (Run.refl : Run (Rounds.Step fun _ => Rounds.patient 10) Rounds.resting [] _)
    |>.tail (show Rounds.Step _ _ (.enqueue (awkward.newEvent (.ofNanos 0)) (.ok 1))
      ⟨Fleet.serving table 0 (fun _ => []) [], fun _ => none⟩ from .enqueue stored)
    |>.tail (show Rounds.Step _ _ (.begin 0) _ from .begin rfl)
    |>.tail (show Rounds.Step _ _ (.answer 0 (.claim 10 (.ofSeconds 30)) (.ok [claim])) _
      from .answer rfl (.claim claimed))
    |>.tail (show Rounds.Step _ _ (.answer 0 (.report _) ()) _ from .answer rfl (.report _ _))
    |>.tail (show Rounds.Step _ _ (.answer 0 (.publish [messageOf claim]) (.ok ())) _
      from .answer rfl (.publish _ _))
  have fresh : Rounds.resting.Fresh := ⟨⟨rfl, fun _ => rfl⟩, fun _ => rfl⟩
  have travels := payload_round_trip fresh run readable_awkward
  have arrives := travels.arrives _ List.mem_cons_self (.ofNanos 0) 1 rfl (by decide) _
    (List.mem_append_right _ (List.mem_singleton_self _)) 0 _ _ rfl (messageOf claim)
    (List.mem_singleton_self _) rfl
  exact ⟨_, _, messageOf claim, 0, run, travels, ⟨_, List.mem_cons_self, rfl⟩,
    ⟨_, List.mem_append_right _ (List.mem_singleton_self _), rfl⟩, arrives⟩

end Run

end Courier.Pipeline
