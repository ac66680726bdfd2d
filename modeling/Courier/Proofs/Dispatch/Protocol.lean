import Courier.Dispatch.Handling
import Courier.Proofs.Dialogue

/-! # The protocol of handling

However its questions are answered, the handling of a delivery asks for the marker of its event once,
posts only if it was given the marker, records a delivery only after the receiver took it, and
acknowledges only what cannot be decoded, what the receiver took and what is recorded as delivered.
-/

namespace Courier.Dispatch

open Courier.Stream

/-! ## What a delivery carries -/

/-- A delivery is a message: it names an outbox event, has the type of completed checks, and has a
body that spells one. -/
structure Carries (d : Delivery) (m : Message) (event : Check.Completed) : Prop where
  outboxId : ∃ text, d.fields.lookup Message.outboxIdField = some text ∧
    Text.word? text = some m.outboxId
  eventType : d.fields.lookup Message.typeField = some m.eventType
  body : d.fields.lookup Message.bodyField = some m.body
  known : m.eventType = Check.eventType
  spells : Check.Completed.ofText? m.body = some event

def Undecodable (d : Delivery) : Prop := ∀ m event, ¬ Carries d m event

variable {d : Delivery} {m m' : Message} {event event' : Check.Completed}

theorem Carries.eq (h : Carries d m event) (h' : Carries d m' event') :
    m = m' ∧ event = event' := by
  obtain ⟨text, found, word⟩ := h.outboxId
  obtain ⟨text', found', word'⟩ := h'.outboxId
  have hid : m.outboxId = m'.outboxId := by
    obtain rfl := Option.some.inj (found.symm.trans found')
    exact Option.some.inj (word.symm.trans word')
  have htype := Option.some.inj (h.eventType.symm.trans h'.eventType)
  have hbody := Option.some.inj (h.body.symm.trans h'.body)
  have hm : m = m' := by
    cases m
    cases m'
    exact Message.mk.injEq _ _ _ _ _ _ ▸ ⟨htype, hbody, hid⟩
  subst hm
  exact ⟨rfl, Option.some.inj (h.spells.symm.trans h'.spells)⟩

theorem field_eq_ok_iff {name text : String} :
    d.field name = .ok text ↔ d.fields.lookup name = some text := by
  unfold Delivery.field
  cases d.fields.lookup name <;> simp

theorem outboxId_eq_ok_iff {n : Int} : d.outboxId = .ok n ↔
    ∃ text, d.fields.lookup Message.outboxIdField = some text ∧ Text.word? text = some n := by
  unfold Delivery.outboxId Delivery.field
  cases d.fields.lookup Message.outboxIdField with
  | none => simp [bind, Except.bind]
  | some text => cases hw : Text.word? text <;> simp [bind, Except.bind, hw]

theorem message_eq_ok_iff : d.message = .ok m ↔
    d.outboxId = .ok m.outboxId ∧ d.field Message.typeField = .ok m.eventType ∧
      d.field Message.bodyField = .ok m.body := by
  unfold Delivery.message
  cases d.outboxId with
  | error e => simp [bind, Except.bind]
  | ok n =>
      cases d.field Message.typeField with
      | error e => simp [bind, Except.bind]
      | ok eventType =>
          cases d.field Message.bodyField with
          | error e => simp [bind, Except.bind]
          | ok body =>
              cases m
              simp [bind, Except.bind, pure, Except.pure, and_comm, and_left_comm]

theorem businessKey_eq_ok_iff {key : String} : businessKey m = .ok key ↔
    ∃ event, m.eventType = Check.eventType ∧ Check.Completed.ofText? m.body = some event ∧
      key = event.idempotencyKey := by
  unfold businessKey
  by_cases known : m.eventType = Check.eventType
  · cases Check.Completed.ofText? m.body <;> simp [known, eq_comm]
  · simp [known]

/-- Decoding finds exactly what a delivery carries. -/
theorem decode_eq_ok_iff {key : String} :
    decode d = .ok (m, key) ↔ ∃ event, Carries d m event ∧ key = event.idempotencyKey := by
  have hdecode : decode d = .ok (m, key) ↔ d.message = .ok m ∧ businessKey m = .ok key := by
    unfold decode
    cases d.message with
    | error e => simp
    | ok m' => cases hkey : businessKey m' <;> simp [Except.map] <;> grind
  rw [hdecode, message_eq_ok_iff, businessKey_eq_ok_iff, outboxId_eq_ok_iff, field_eq_ok_iff,
    field_eq_ok_iff]
  constructor
  · rintro ⟨⟨outboxId, eventType, body⟩, event, known, spells, hkey⟩
    exact ⟨event, ⟨outboxId, eventType, body, known, spells⟩, hkey⟩
  · rintro ⟨event, carries, hkey⟩
    exact ⟨⟨carries.outboxId, carries.eventType, carries.body⟩, event, carries.known,
      carries.spells, hkey⟩

theorem undecodable_of_decode {reason : PoisonReason} (h : decode d = .error reason) :
    Undecodable d := by
  intro m event carries
  rw [decode_eq_ok_iff.2 ⟨event, carries, rfl⟩] at h
  cases h

/-! ## Stages -/

inductive Stage
  | start
  | granted
  | taken
  | recorded
  | known
  | ended (result : Except WorkerError Outcome)

def Stage.begun : Except Marker.StoreError (Option Marker) → Stage
  | .error e => .ended (.error (.markers e))
  | .ok none => .granted
  | .ok (some .delivered) => .known
  | .ok (some .inFlight) => .ended (.ok .inFlight)

def Stage.posted : Except Webhook.SendError Nat → Stage
  | .error _ => .ended (.ok .failed)
  | .ok _ => .taken

def Stage.acknowledged (o : Outcome) : Except BrokerError Unit → Stage
  | .error e => .ended (.error (.broker e))
  | .ok _ => .ended (.ok o)

/-- What may be asked in a stage, and where the answers lead. -/
inductive Turn (cfg : Config) (d : Delivery) : Stage → (c : Call) → c.Reply → Stage → Prop
  | report (s : Stage) (r : Report) (u : Unit) : Turn cfg d s (.report r) u s
  | drop (undecodable : Undecodable d) (r : Except BrokerError Unit) :
      Turn cfg d .start (.acknowledge d.id) r (.acknowledged .poison r)
  | begin {m : Message} {event : Check.Completed} (carries : Carries d m event)
      (r : Except Marker.StoreError (Option Marker)) :
      Turn cfg d .start (.tryBegin (Marker.key m.outboxId) cfg.inFlightTtl) r (.begun r)
  | post {m : Message} {event : Check.Completed} (carries : Carries d m event)
      (r : Except Webhook.SendError Nat) :
      Turn cfg d .granted (.send ⟨m.eventType, event.idempotencyKey, m.body⟩) r (.posted r)
  | record {m : Message} {event : Check.Completed} (carries : Carries d m event)
      (r : Except Marker.StoreError Unit) :
      Turn cfg d .taken (.markDelivered (Marker.key m.outboxId) cfg.dedupeTtl) r .recorded
  | finish (r : Except BrokerError Unit) :
      Turn cfg d .recorded (.acknowledge d.id) r (.acknowledged .delivered r)
  | repeat (r : Except BrokerError Unit) :
      Turn cfg d .known (.acknowledge d.id) r (.acknowledged .duplicate r)

/-- Only a report leaves a handling at its start. -/
theorem Turn.report_of_start {cfg : Config} {st : Stage} {c : Call} {r : c.Reply}
    (h : Turn cfg d st c r .start) : st = .start ∧ ∃ report, c = .report report := by
  generalize hst : Stage.start = st' at h
  cases h with
  | report s report => exact ⟨rfl, report, rfl⟩
  | begin _ r => rcases r with _ | _ | _ | _ <;> cases hst
  | drop _ r | post _ r | finish r | «repeat» r => cases r <;> cases hst
  | record => cases hst

def Handles (cfg : Config) (d : Delivery) (talk : Talk (Except WorkerError Outcome)) (s : Stage) :
    Prop :=
  talk.Follows (Turn cfg d) (fun s result => s = .ended result) s

variable {cfg : Config}

theorem handles_report {r : Report} {rest : Unit → Talk (Except WorkerError Outcome)} {s : Stage}
    (h : Handles cfg d (rest ()) s) : Handles cfg d ((report r).bind rest) s :=
  fun u => ⟨s, .report s r u, h⟩

theorem handles_acknowledging {next : Talk Outcome} {s : Stage} {o : Outcome}
    (allowed : ∀ r, Turn cfg d s (.acknowledge d.id) r (.acknowledged o r))
    (h : Handles cfg d (next.bind fun o => .done (.ok o)) (.ended (.ok o))) :
    Handles cfg d (acknowledging d.id next) s := by
  intro r
  refine ⟨.acknowledged o r, allowed r, ?_⟩
  cases r with
  | error e => rfl
  | ok u => exact h

theorem handles_post {key : String} (carries : Carries d m event)
    (hkey : key = event.idempotencyKey) : Handles cfg d (post cfg d m key) .granted := by
  subst hkey
  refine handles_report fun r => ?_
  refine ⟨.posted r, .post carries r, ?_⟩
  refine handles_report ?_
  cases r with
  | error e => exact handles_report (handles_report rfl)
  | ok status =>
      intro recorded
      refine ⟨.recorded, .record carries recorded, ?_⟩
      cases recorded with
      | error e =>
          refine handles_report (handles_acknowledging .finish ?_)
          exact handles_report (handles_report rfl)
      | ok u =>
          refine handles_acknowledging .finish ?_
          exact handles_report (handles_report rfl)

/-- The handling of a delivery keeps to the protocol. -/
theorem handle_handles (cfg : Config) (d : Delivery) : Handles cfg d (handle cfg d) .start := by
  unfold handle
  split
  · rename_i reason undecodable
    refine handles_report (handles_report ?_)
    exact handles_acknowledging (.drop (undecodable_of_decode undecodable)) rfl
  · rename_i m key decoded
    obtain ⟨event, carries, hkey⟩ := decode_eq_ok_iff.1 decoded
    intro r
    refine ⟨.begun r, .begin carries r, ?_⟩
    cases r with
    | error e => rfl
    | ok marker =>
        cases marker with
        | none => exact handles_post carries hkey
        | some marker =>
            cases marker with
            | inFlight => exact handles_report rfl
            | delivered =>
                refine handles_report (handles_report ?_)
                exact handles_acknowledging .repeat rfl

/-! ## Deliveries of messages -/

theorem carries_ofMessage (id : String) (word : Text.InWord m.outboxId)
    (known : m.eventType = Check.eventType) (spells : Check.Completed.ofText? m.body = some event) :
    Carries (.ofMessage id m) m event where
  outboxId := by
    refine ⟨String.ofList (Text.integer m.outboxId), rfl, ?_⟩
    rw [Text.word?, String.toList_ofList, Text.signed?_integer]
    exact Option.filter_some_pos (decide_eq_true word)
  eventType := rfl
  body := rfl
  known := known
  spells := spells

/-- What is posted for a message is the message, under the key of its event. -/
theorem Carries.asks_send (carries : Carries d m event) {request : Webhook.Request} :
    (handle cfg d).Asks (.send request) ↔ request = ⟨m.eventType, event.idempotencyKey, m.body⟩ := by
  constructor
  · intro asked
    obtain ⟨_, _, turn⟩ := (handle_handles cfg d).asks asked (.ok 200)
    cases turn with
    | post carries' =>
        obtain ⟨rfl, rfl⟩ := carries.eq carries'
        rfl
  · rintro rfl
    have decoded := decode_eq_ok_iff.2 ⟨event, carries, rfl⟩
    unfold handle
    rw [decoded]
    exact .later (.ok none) (.later () (.now _ _))

theorem Carries.not_poison (carries : Carries d m event) :
    ¬ (handle cfg d).Yields (.ok .poison) := by
  intro poison
  have kept (s : Stage) (c : Call) (r : c.Reply) (s' : Stage) (h : s ≠ .ended (.ok .poison))
      (turn : Turn cfg d s c r s') : s' ≠ .ended (.ok .poison) := by
    cases turn with
    | report => exact h
    | drop undecodable => exact absurd carries (undecodable m event)
    | begin _ r => rcases r with _ | _ | _ | _ <;> nofun
    | post _ r | finish r | «repeat» r => cases r <;> nofun
    | record => nofun
  have start : Stage.start ≠ .ended (.ok .poison) := nofun
  obtain ⟨s, going, ended⟩ := (handle_handles cfg d).yields start kept poison
  exact going ended

theorem Undecodable.poison (h : Undecodable d) (cfg : Config) :
    (handle cfg d).Yields (.ok .poison) := by
  cases decoded : decode d with
  | ok found =>
      obtain ⟨event, carries, _⟩ := decode_eq_ok_iff.1 decoded
      exact absurd carries (h _ event)
  | error reason =>
      unfold handle
      rw [decoded]
      exact .ask () (.ask () (.ask (.ok ()) (.done _)))

end Courier.Dispatch
