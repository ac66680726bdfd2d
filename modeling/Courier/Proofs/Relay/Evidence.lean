import Courier.Proofs.Relay.Fencing
import Courier.Proofs.Relay.Rounds

/-! # What the end of an event is evidence of

A row that is dispatched or dead says what became of a push: the push of the latest claim of the
event, by the relay that was given the claim. The fence makes it so. A relay decides about the
copies that it claimed; the row that its write-back finds live is the row that they were copied
from.
-/

namespace Courier.Relay

open Courier.Outbox Courier.Storage Courier.Stream

/-! ## Copies -/

namespace Fleet

theorem Move.Rewrites.content_eq {m : Move} {clock : Int} {r r' : Row}
    (h : m.Rewrites clock r r') : r'.eventType = r.eventType ∧ r'.payload = r.payload := by
  cases h with
  | claimed => exact ⟨rfl, rfl⟩
  | written _ writes =>
      cases writes with
      | dispatched => exact ⟨rfl, rfl⟩
      | @settled _ _ d _ _ _ => cases d <;> exact ⟨rfl, rfl⟩
  | kept => exact ⟨rfl, rfl⟩

/-- What was given out stays a copy of its row. -/
theorem copied_of_run {s₀ s : Fleet} {trace : Trace} (run : Run Step s₀ trace s) :
    ∀ c ∈ givenIn trace, ∃ r ∈ s.table.rows,
      r.id = c.id ∧ r.eventType = c.eventType ∧ r.payload.value = c.payload := by
  induction run with
  | refl => simp [givenIn]
  | @tail trace s m s' _ last ih =>
      intro c hc
      have copy : ∃ r ∈ s.table.rows,
          r.id = c.id ∧ r.eventType = c.eventType ∧ r.payload.value = c.payload := by
        rw [givenIn_append, List.mem_append] at hc
        rcases hc with hc | hc
        · exact ih c hc
        · have hc : c ∈ m.given := by simpa [givenIn] using hc
          obtain ⟨r, hr, _, _, rfl⟩ := last.exists_due hc
          exact ⟨r, hr, rfl, rfl, rfl⟩
      obtain ⟨r, hr, hid, htype, hpayload⟩ := copy
      obtain ⟨r', hr', rewrites⟩ := last.row_after hr
      obtain ⟨htype', hpayload'⟩ := rewrites.content_eq
      refine ⟨r', hr', rewrites.id_eq.trans hid, htype'.trans htype, ?_⟩
      rw [hpayload', hpayload]

end Fleet

namespace Rounds

variable {cfg : Nat → Config} {s s' s₀ : Rounds} {m : Move} {w : Nat} {trace : Trace}
  {batch : List Claim} {t : Transition Rounds Move}

/-! ## The course of a round -/

/-- The relay does nothing but report and look at the clock. -/
def Move.Quiet (w : Nat) : Move → Prop
  | .answer _ (.report _) _ | .answer _ .now _ => True
  | m => m.relay? ≠ some w

/-- Something happened, and the relay was quiet since. -/
def Since (w : Nat) (happened : Trace → Transition Rounds Move → Prop) (trace : Trace) : Prop :=
  ∃ before t after, trace = before ++ t :: after ∧ happened before t ∧ ∀ u ∈ after, u.move.Quiet w

theorem Since.now {happened : Trace → Transition Rounds Move → Prop} (h : happened trace t) :
    Since w happened (trace ++ [t]) := ⟨trace, t, [], rfl, h, by simp⟩

theorem Since.quiet {happened : Trace → Transition Rounds Move → Prop}
    (h : Since w happened trace) (quiet : t.move.Quiet w) : Since w happened (trace ++ [t]) := by
  obtain ⟨before, u, after, rfl, hu, since⟩ := h
  refine ⟨before, u, after ++ [t], by simp, hu, ?_⟩
  intro v hv
  rcases List.mem_append.1 hv with hv | hv
  · exact since v hv
  · rwa [List.mem_singleton.1 hv]

/-- The relay was given a batch, and has the batch in hand. -/
def Claimed (w : Nat) (batch : List Claim) : Trace → Prop :=
  Since w fun _ t => ∃ limit lease, t.move = .answer w (.claim limit lease) (.ok batch) ∧ batch ≠ []

def Pushed (w : Nat) (batch : List Claim) (r : Except BrokerError Unit) : Trace → Prop :=
  Since w fun before t =>
    Claimed w batch before ∧ t.move = .answer w (.publish (batch.map messageOf)) r

/-- What must have happened for a relay to be in a stage. -/
def History (w : Nat) : Stage → Trace → Prop
  | .claimed batch => Claimed w batch
  | .accepted batch => Pushed w batch (.ok ())
  | .refused batch e | .decided batch e _ => Pushed w batch (.error e)
  | .start | .ended => fun _ => True

theorem History.quiet {st : Stage} (h : History w st trace) (quiet : t.move.Quiet w) :
    History w st (trace ++ [t]) := by
  cases st with
  | start | ended => trivial
  | _ => exact Since.quiet h quiet

theorem history_step (staged : Staged cfg trace s) (step : Step cfg s m s')
    (h : History w (stageOf trace w) trace) :
    History w (stageOf (trace ++ [⟨s, m, s'⟩]) w) (trace ++ [⟨s, m, s'⟩]) := by
  rw [stageOf_append]
  rcases step.relay_cases w with ⟨others, _⟩ | ⟨rfl, _⟩ | ⟨c, r, k, rfl, asking, _⟩ | ⟨_, ended, _⟩
  · have quiet : m.Quiet w := by
      unfold Move.Quiet
      split
      · trivial
      · trivial
      · exact others
    rw [leads_others others]
    exact h.quiet quiet
  · rw [leads_begin]
    trivial
  · rw [leads_answer]
    have may := (staged.may asking r).1
    generalize stageOf trace w = st at h may
    cases may with
    | report => exact h.quiet trivial
    | claim =>
        cases r with
        | error e => trivial
        | ok claims =>
            cases claims with
            | nil => trivial
            | cons c cs => exact Since.now ⟨_, _, rfl, List.cons_ne_nil c cs⟩
    | publish batch =>
        cases r with
        | error e => exact Since.now ⟨h, rfl⟩
        | ok u => exact Since.now ⟨h, rfl⟩
    | now batch e => exact Since.quiet h trivial
    | dispatched | failed => trivial
    | abort => exact nomatch r
  · rw [ended]
    trivial

theorem history_of_run (fresh : s₀.Fresh) (run : Run (Step cfg) s₀ trace s) (w : Nat) :
    History w (stageOf trace w) trace := by
  induction run with
  | refl => trivial
  | tail run last ih => exact history_step (staged_of_run fresh run) last ih

/-! ## The write-back that ends an event -/

/-- The status of a row of an event is new after a transition. -/
def Reaches (t : Transition Rounds Move) (r : Row) (status : Status) : Prop :=
  r ∈ t.after.table.rows ∧ r.status = status.text ∧
    ∀ r' ∈ t.before.table.rows, r'.id = r.id → r'.status ≠ status.text

/-- The push of the latest claim of an event was answered like this. -/
def PushedLast (past : Trace) (id : Int) (messages : List Message) (r : Except BrokerError Unit) :
    Prop :=
  ∃ before granted mid pushed after w limit lease batch,
    past = before ++ granted :: mid ++ pushed :: after ∧
    granted.move = .answer w (.claim limit lease) (.ok batch) ∧ (∃ c ∈ batch, c.id = id) ∧
    (∀ t ∈ mid, t.move.Quiet w) ∧
    pushed.move = .answer w (.publish messages) r ∧ messages = batch.map messageOf ∧
    ∀ t ∈ mid ++ pushed :: after, t.move.gives id = false

theorem view_eq_written {fm : Fleet.Move} {relay : Nat} {o : Outcome} {u : Unit}
    (hm : s.view m = fm) (hfm : fm = .reconcile relay batch o (.ok u)) :
    m = .answer relay (.reconcile o) (.ok ()) ∧ batch = latest s.toFleet relay := by
  subst hfm
  cases m with
  | answer w c r =>
      cases c with
      | reconcile o' =>
          cases r with
          | error e => cases hm
          | ok u' =>
              cases hm
              exact ⟨rfl, rfl⟩
      | _ => cases hm
  | panic w c => cases c <;> cases hm
  | _ => cases hm

/-- What a move makes of a row: a claim gives it out, the relay that has it in hand writes it back,
or it keeps every column. -/
theorem Step.row_cases (h : Step cfg s m s') (staged : Staged cfg trace s) {r r' : Row}
    (rewrites : (s.view m).Rewrites s.clock r r') :
    (m.gives r.id = true ∧ r'.status = Status.processing.text) ∨
    (∃ w batch o, m = .answer w (.reconcile o) (.ok ()) ∧ (stageOf trace w).batch? = some batch ∧
      (stageOf trace w).May (cfg w) (.reconcile o) ∧ (∃ c ∈ batch, r.Live c.id c.attempts) ∧
      o.Writes s.now r r') ∨
    (r' = r ∧ ∀ w o, m = .answer w (.reconcile o) (.ok ()) → ∀ p ∈ o.tokens, ¬ r.Live p.1 p.2) := by
  generalize hm : s.view m = fm at rewrites
  cases rewrites with
  | claimed given =>
      refine Or.inl ⟨?_, rfl⟩
      rw [← gives_view s, hm]
      exact given
  | @written relay batch o u _ _ live writes =>
      obtain ⟨rfl, rfl⟩ := view_eq_written hm rfl
      cases h with
      | answer asking effect =>
          obtain ⟨batch, hbatch, built⟩ := staged.writesBack asking
          have may := (staged.may asking (.ok ())).1
          refine Or.inr (Or.inl ⟨_, batch, o, rfl, hbatch, may, ?_, writes⟩)
          obtain ⟨p, hp, live⟩ := live
          rw [built.tokens] at hp
          obtain ⟨c, hc, rfl⟩ := List.mem_map.1 hp
          exact ⟨c, hc, live⟩
  | kept _ fenced =>
      refine Or.inr (Or.inr ⟨rfl, ?_⟩)
      rintro w o rfl p hp
      subst hm
      exact fenced p hp

/-- Only a write-back ends an event, and it finds the row live under a claim of its batch. -/
theorem Step.ends (h : Step cfg s m s') (staged : Staged cfg trace s) {r : Row} {status : Status}
    (reached : Reaches ⟨s, m, s'⟩ r status) (terminal : status.isTerminal = true) :
    ∃ w batch o r', m = .answer w (.reconcile o) (.ok ()) ∧ (stageOf trace w).batch? = some batch ∧
      (stageOf trace w).May (cfg w) (.reconcile o) ∧ r' ∈ s.table.rows ∧
      (∃ c ∈ batch, r'.Live c.id c.attempts) ∧ o.Writes s.now r' r := by
  obtain ⟨hr, hstatus, hnew⟩ := reached
  have ended (other : Status) (unended : other.isTerminal = false) : r.status ≠ other.text := by
    intro hother
    rw [Row.status_unique hstatus hother, unended] at terminal
    cases terminal
  rcases (h.view staged).row_before hr with ⟨r', hr', rewrites⟩ | ⟨e, n, payload, _, rfl⟩
  · rcases h.row_cases staged rewrites with ⟨_, processing⟩ |
      ⟨w, batch, o, hm, hbatch, may, live, writes⟩ | ⟨rfl, _⟩
    · exact absurd processing (ended .processing rfl)
    · exact ⟨w, batch, o, r', hm, hbatch, may, hr', live, writes⟩
    · exact absurd hstatus (hnew r hr' rfl)
  · exact absurd rfl (ended .pending rfl)

/-- A row that is live under a claim that was pushed has no later claim. -/
theorem Pushed.last (fresh : s₀.Fresh) {r : Except BrokerError Unit}
    (run : Run (Step cfg) s₀ trace s) (step : Step cfg s m s') (pushed : Pushed w batch r trace)
    {c : Claim} (hc : c ∈ batch) {row : Row} (hrow : row ∈ s.table.rows)
    (live : row.Live c.id c.attempts) :
    PushedLast trace row.id (batch.map messageOf) r := by
  obtain ⟨_, published, after, rfl, ⟨⟨before, granted, mid, rfl, given, quiet⟩, push⟩, _⟩ := pushed
  obtain ⟨limit, lease, claimed, _⟩ := given
  obtain ⟨hid, _, hattempts⟩ := live
  refine ⟨before, granted, mid, published, after, w, limit, lease, batch, rfl, claimed,
    ⟨c, hc, hid.symm⟩, quiet, push, rfl, ?_⟩
  have whole : Run Fleet.Step s₀.toFleet (before.map project ++ project granted ::
      (mid ++ published :: after).map project ++ project ⟨s, m, s'⟩ :: []) s'.toFleet := by
    simpa using view_of_run fresh (run.tail step)
  have hcounted := counted_of_run fresh run
  have hfind := hcounted.ordered.find?_eq_some_iff.2 ⟨hrow, hid⟩
  have hgiven : c ∈ (project granted).move.given := by
    change c ∈ (granted.before.view granted.move).given
    rw [given_view, claimed]
    exact hc
  have unclaimed :=
    (Fleet.attempts_eq_iff_unclaimed fresh.fleet whole hgiven hfind).1 hattempts
  intro t ht
  have hnone := unclaimed (project t) (List.mem_map_of_mem ht)
  rw [hid, ← gives_view t.before]
  exact hnone

/-! ## Terminal states -/

/-- What a transition needs to end an event.

* `dispatched`: the push of the latest claim of the event was accepted, and the batch held a message
  with the id of the row, its type, and the text of its payload.
* `dead`: the event was claimed as often as the policy allows, and the push of the latest claim was
  refused in the words that the row keeps. -/
structure TellsTruth (most : Int) (past : Trace) (t : Transition Rounds Move) : Prop where
  dispatched : ∀ r, Reaches t r .dispatched → ∃ messages,
    PushedLast past r.id messages (.ok ()) ∧
    ⟨r.eventType, r.payload.value.text, r.id⟩ ∈ messages
  dead : ∀ r, Reaches t r .dead → most ≤ claimsOf past r.id ∧ ∃ messages e,
    PushedLast past r.id messages (.error e) ∧ r.lastError = some e.message

theorem mem_messages (fresh : s₀.Fresh) (run : Run (Step cfg) s₀ trace s)
    (held : batch ∈ s.memory w) {c : Claim} (hc : c ∈ batch) {r : Row} (hr : r ∈ s.table.rows)
    (hid : r.id = c.id) : ⟨r.eventType, r.payload.value.text, r.id⟩ ∈ batch.map messageOf := by
  have hcounted := counted_of_run fresh run
  obtain ⟨r', hr', hid', htype, hpayload⟩ := Fleet.copied_of_run (view_of_run fresh run) c
    (hcounted.mem_givenIn held hc)
  cases hcounted.ordered.eq_of_id_eq hr hr' (hid.trans hid'.symm)
  refine List.mem_map.2 ⟨c, hc, ?_⟩
  rw [messageOf, htype, hpayload, hid]

theorem Step.dispatches (fresh : s₀.Fresh) (run : Run (Step cfg) s₀ trace s)
    (step : Step cfg s m s') {r : Row} (reached : Reaches ⟨s, m, s'⟩ r .dispatched) :
    ∃ messages, PushedLast trace r.id messages (.ok ()) ∧
      ⟨r.eventType, r.payload.value.text, r.id⟩ ∈ messages := by
  have staged := staged_of_run fresh run
  have history := history_of_run fresh run
  obtain ⟨w, batch, o, row, rfl, hbatch, may, hrow, ⟨c, hc, live⟩, writes⟩ :=
    step.ends staged reached rfl
  have held := (latest_of_head (staged.hand w batch hbatch)).2
  have hmem := mem_messages fresh run held hc hrow live.1
  have history := history_of_run fresh run w
  generalize stageOf trace w = st at hbatch may history
  cases writes with
  | dispatched =>
      cases may with
      | dispatched =>
          cases hbatch
          have last := Pushed.last fresh run step history hc hrow live
          exact ⟨_, last, hmem⟩
  | @settled decisions lastError d _ mem live' =>
      have hstatus := reached.2.1
      cases d with
      | retry => cases Row.status_unique (show _ = Status.pending.text from rfl) hstatus
      | dead => cases Row.status_unique (show _ = Status.dead.text from rfl) hstatus

theorem Step.buries {most : Int} (shared : ∀ w, (cfg w).policy.maxAttempts = most)
    (fresh : s₀.Fresh) (run : Run (Step cfg) s₀ trace s) (step : Step cfg s m s') {r : Row}
    (reached : Reaches ⟨s, m, s'⟩ r .dead) :
    most ≤ claimsOf trace r.id ∧ ∃ messages e,
      PushedLast trace r.id messages (.error e) ∧ r.lastError = some e.message := by
  have staged := staged_of_run fresh run
  obtain ⟨w, batch, o, row, rfl, hbatch, may, hrow, ⟨c, hc, live⟩, writes⟩ :=
    step.ends staged reached rfl
  have history := history_of_run fresh run w
  have hattempts := (counted_of_run fresh run).attempts row hrow
  rw [claimsOf_project] at hattempts
  generalize stageOf trace w = st at hbatch may history
  have hstatus := reached.2.1
  cases writes with
  | dispatched => cases Row.status_unique (show _ = Status.dispatched.text from rfl) hstatus
  | @settled decisions lastError d _ mem live' =>
      cases may with
      | @failed batch' e t ds made =>
          cases hbatch
          have last := Pushed.last fresh run step history hc hrow live
          cases d with
          | retry => cases Row.status_unique (show _ = Status.pending.text from rfl) hstatus
          | dead id attempts =>
              obtain ⟨c', _, decided⟩ := decided_of_mem made mem
              obtain ⟨exhausted, _, hsame⟩ := attempts_of_decide?_dead decided
              have hlive : row.attempts = attempts := live'.2.2
              rw [shared w, ← hsame, ← hlive, hattempts] at exhausted
              exact ⟨exhausted, _, e, last, rfl⟩

/-- In every run the rows that are dispatched or dead tell the truth about the last push. -/
theorem terminal_rows_tell_truth {most : Int} (shared : ∀ w, (cfg w).policy.maxAttempts = most)
    (fresh : s₀.Fresh) (run : Run (Step cfg) s₀ trace s) :
    ∀ past t later, trace = past ++ t :: later → TellsTruth most past t := by
  intro past t later htrace
  subst htrace
  obtain ⟨left, step, _⟩ := run.around
  constructor
  · intro r reached
    exact step.dispatches fresh left reached
  · intro r reached
    exact step.buries shared fresh left reached

def resting : Rounds := ⟨Fleet.serving .empty 0 (fun _ => []) [], fun _ => none⟩

def patient (maxAttempts : Int) : Config :=
  ⟨.withMaxAttempts maxAttempts, 10, .ofSeconds 1, .ofSeconds 30⟩

/-- One event is given up after its push was refused, and the relay crashes; another relay pushes
the next event. -/
theorem terminal_rows_tell_truth_crash : ∃ trace s,
    Run (Step fun _ => patient 1) resting trace s ∧
    (∀ past t later, trace = past ++ t :: later → TellsTruth 1 past t) ∧
    s.table.rows.map (fun r => (r.status, r.lastError)) =
      [("dead", some "Broker unavailable: down"), ("dispatched", none)] := by
  have run := (Run.refl : Run (Step fun _ => patient 1) resting [] _)
    |>.tail (show Step _ _ (.enqueue ⟨"check", .null, .ofNanos 0⟩ (.ok 1)) _ from .enqueue rfl)
    |>.tail (show Step _ _ (.begin 0) _ from .begin rfl)
    |>.tail (show Step _ _ (.answer 0 (.claim ..) (.ok [⟨1, "check", .null, 1⟩])) _
      from .answer rfl (.claim rfl))
    |>.tail (show Step _ _ (.answer 0 (.report _) ()) _ from .answer rfl (.report _ _))
    |>.tail (show Step _ _ (.answer 0 (.publish [⟨"check", "null", 1⟩])
        (.error (.unavailable "down"))) _ from .answer rfl (.publish _ _))
    |>.tail (show Step _ _ (.answer 0 .now (.ofNanos 0)) _ from .answer rfl .now)
    |>.tail (show Step _ _ (.answer 0 (.report _) ()) _ from .answer rfl (.report _ _))
    |>.tail (show Step _ _ (.answer 0 (.report _) ()) _ from .answer rfl (.report _ _))
    |>.tail (show Step _ _ (.answer 0 (.reconcile (.failed [.dead 1 1] _)) (.ok ())) _
      from .answer rfl (.reconcile rfl))
    |>.tail (show Step _ _ (.crash 0) _ from .crash)
    |>.tail (show Step _ _ (.enqueue ⟨"check", .null, .ofNanos 0⟩ (.ok 2)) _ from .enqueue rfl)
    |>.tail (show Step _ _ (.begin 1) _ from .begin rfl)
    |>.tail (show Step _ _ (.answer 1 (.claim ..) (.ok [⟨2, "check", .null, 1⟩])) _
      from .answer rfl (.claim rfl))
    |>.tail (show Step _ _ (.answer 1 (.report _) ()) _ from .answer rfl (.report _ _))
    |>.tail (show Step _ _ (.answer 1 (.publish [⟨"check", "null", 2⟩]) (.ok ())) _
      from .answer rfl (.publish _ _))
    |>.tail (show Step _ _ (.answer 1 (.reconcile (.dispatched _)) (.ok ())) _
      from .answer rfl (.reconcile rfl))
  have fresh : resting.Fresh := ⟨⟨rfl, fun _ => rfl⟩, fun _ => rfl⟩
  exact ⟨_, _, run, terminal_rows_tell_truth (fun _ => rfl) fresh run, by decide⟩

end Rounds

end Courier.Relay
