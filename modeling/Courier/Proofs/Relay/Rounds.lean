import Courier.Proofs.Relay.Counting
import Courier.Proofs.Relay.Protocol

/-! # Rounds that interleave

Relays that share an outbox work in rounds. Every question of a round is answered by itself, so that
rounds interleave at their questions and a relay may crash between any two of them. A claim and a
write-back is one transaction each; the server may fail any of its statements. A push may be
accepted or refused.

To the outbox the rounds are relays that claim, push and write back what they claimed last: `view`
says as which move of such relays a move counts, and every run of rounds is a run of them. What the
moves of a relay say about the round that it is in is its stage.
-/

namespace Courier.Relay

open Courier.Outbox Courier.Storage Courier.Stream

/-- Relays that share an outbox, with what each has left of its round. -/
structure Rounds extends Fleet where
  talks : Nat → Option (Talk (Except WorkerError Summary))

namespace Rounds

inductive Move
  | enqueue (e : NewEvent) (answer : Fleet.Answer Int)
  | begin (relay : Nat)
  | answer (relay : Nat) (c : Call) (r : c.Reply)
  | panic (relay : Nat) (c : Call)
  | finish (relay : Nat) (result : Except WorkerError Summary)
  | crash (relay : Nat)
  | advance (clock : Int)

/-- What the database said, unless the relay did not survive it. -/
def said {α : Type} (r : Except StorageError α) : Fleet.Answer α := r.mapError .error

/-- How a question of a relay may be answered, and what that leaves. -/
inductive Effect (s : Fleet) (relay : Nat) : (c : Call) → c.Reply → Fleet → Prop
  | report (r : Report) (u : Unit) : Effect s relay (.report r) u s
  | now : Effect s relay .now s.now s
  | claim {limit : Nat} {lease : Span} {r : Except StorageError (List Claim)} {session : Session}
      (done : Sql.claimBatch limit lease s.now s.session = (said r, session)) :
      Effect s relay (.claim limit lease) r { s with session, memory := s.remember relay (said r) }
  | publish (messages : List Message) (r : Except BrokerError Unit) :
      Effect s relay (.publish messages) r
        { s with stream := if r.isOk then s.stream ++ [messages] else s.stream }
  | reconcile {o : Outcome} {r : Except StorageError Unit} {session : Session}
      (done : Sql.reconcile o s.now s.session = (said r, session)) :
      Effect s relay (.reconcile o) r { s with session }

inductive Panics (s : Fleet) : Call → Session → Prop
  | claim {limit : Nat} {lease : Span} {session : Session}
      (done : Sql.claimBatch limit lease s.now s.session = (.error .crash, session)) :
      Panics s (.claim limit lease) session
  | reconcile {o : Outcome} {session : Session}
      (done : Sql.reconcile o s.now s.session = (.error .crash, session)) :
      Panics s (.reconcile o) session
  | abort : Panics s .abort s.session

/-- What may happen, with the relay of each number set up by `cfg`. The clock may be set to any
time. -/
inductive Step (cfg : Nat → Config) : Rounds → Move → Rounds → Prop
  | enqueue {s : Rounds} {e : NewEvent} {answer : Fleet.Answer Int} {session : Session}
      (done : Sql.transaction id (Sql.enqueue e s.now) s.session = (answer, session)) :
      Step cfg s (.enqueue e answer) { s with session }
  | begin {s : Rounds} {w : Nat} (free : s.talks w = none) :
      Step cfg s (.begin w)
        { s with talks := Function.update s.talks w (some (round (cfg w))) }
  | answer {s : Rounds} {w : Nat} {c : Call} {k : c.Reply → Talk (Except WorkerError Summary)}
      {r : c.Reply} {fleet : Fleet} (asking : s.talks w = some (.ask c k))
      (effect : Effect s.toFleet w c r fleet) :
      Step cfg s (.answer w c r) ⟨fleet, Function.update s.talks w (some (k r))⟩
  | panic {s : Rounds} {w : Nat} {c : Call} {k : c.Reply → Talk (Except WorkerError Summary)}
      {session : Session} (asking : s.talks w = some (.ask c k))
      (panics : Panics s.toFleet c session) :
      Step cfg s (.panic w c) { s with session, talks := Function.update s.talks w none }
  | finish {s : Rounds} {w : Nat} {result : Except WorkerError Summary}
      (done : s.talks w = some (.done result)) :
      Step cfg s (.finish w result) { s with talks := Function.update s.talks w none }
  | crash {s : Rounds} {w : Nat} :
      Step cfg s (.crash w)
        { s with
          memory := Function.update s.memory w []
          talks := Function.update s.talks w none }
  | advance {s : Rounds} {clock : Int} : Step cfg s (.advance clock) { s with clock }

structure Fresh (s : Rounds) : Prop where
  fleet : s.toFleet.Fresh
  talks : ∀ w, s.talks w = none

abbrev Trace := List (Transition Rounds Move)

/-- The clock is never set back. -/
abbrev Forward (trace : Trace) : Prop := Ascending (fun s : Rounds => s.clock) trace

/-! ## Claims of a trace -/

def Move.given : Move → List Claim
  | .answer _ (.claim ..) (.ok claims) => claims
  | _ => []

def Move.gives (m : Move) (id : Int) : Bool := Outbox.Table.gives m.given id

def claimsOf (trace : Trace) (id : Int) : Nat := trace.countP fun t => t.move.gives id

/-! ## Rounds as relays -/

def latest (s : Fleet) (w : Nat) : List Claim := (s.memory w).headD []

/-- A move as one of relays that remember what they claimed. What they do not see takes no time. -/
def view (s : Rounds) : Move → Fleet.Move
  | .enqueue e answer => .enqueue e answer
  | .answer w (.claim limit lease) r => .claim w limit lease (said r)
  | .answer w (.publish _) r => .publish w (latest s.toFleet w) (Except.isOk r)
  | .answer w (.reconcile o) r => .reconcile w (latest s.toFleet w) o (said r)
  | .panic w (.claim limit lease) => .claim w limit lease (.error .crash)
  | .panic w (.reconcile o) => .reconcile w (latest s.toFleet w) o (.error .crash)
  | .crash w => .crash w
  | .advance clock => .advance clock
  | _ => .advance s.clock

def project (t : Transition Rounds Move) : Transition Fleet Fleet.Move :=
  ⟨t.before.toFleet, t.before.view t.move, t.after.toFleet⟩

theorem Forward.project {trace : Trace} (h : Forward trace) :
    Ascending Fleet.clock (trace.map project) := List.forall_mem_map.2 h

theorem given_view (s : Rounds) (m : Move) : (s.view m).given = m.given := by
  cases m with
  | answer w c r =>
      cases c with
      | claim limit lease => cases r <;> rfl
      | _ => rfl
  | panic w c => cases c <;> rfl
  | _ => rfl

theorem gives_view (s : Rounds) (m : Move) (id : Int) : (s.view m).gives id = m.gives id := by
  rw [Fleet.Move.gives, given_view, Move.gives]

theorem claimsOf_project (trace : Trace) (id : Int) :
    Fleet.claimsOf (trace.map project) id = claimsOf trace id := by
  have same : (fun t => t.move.gives id) ∘ project = fun t : Transition Rounds Move =>
      t.move.gives id := funext fun t => gives_view t.before t.move id
  rw [Fleet.claimsOf, claimsOf, List.countP_map, same]

/-! ## Stages -/

def Move.relay? : Move → Option Nat
  | .begin w | .answer w _ _ | .panic w _ | .finish w _ | .crash w => some w
  | .enqueue .. | .advance _ => none

/-- The round that a relay was in is over: its write-back is answered, or it was broken off. -/
def Move.Ends (w : Nat) : Move → Prop
  | .answer w' (.reconcile _) _ => w' = w
  | .panic w' _ | .crash w' => w' = w
  | _ => False

def Move.leads (w : Nat) (st : Stage) (m : Move) : Stage :=
  if m.relay? = some w then
    match m with
    | .begin _ => .start
    | .answer _ c r => st.next c r
    | _ => .ended
  else st

def stageOf (trace : Trace) (w : Nat) : Stage :=
  trace.foldl (fun st t => t.move.leads w st) .ended

@[simp] theorem stageOf_append (trace : Trace) (t : Transition Rounds Move) (w : Nat) :
    stageOf (trace ++ [t]) w = t.move.leads w (stageOf trace w) := by
  simp [stageOf]

variable {cfg : Nat → Config} {s s' s₀ : Rounds} {m : Move} {w : Nat} {trace : Trace}

theorem leads_others {st : Stage} (others : m.relay? ≠ some w) : m.leads w st = st := if_neg others

theorem leads_begin {st : Stage} : (Move.begin w).leads w st = .start := if_pos rfl

theorem leads_answer {st : Stage} {c : Call} {r : c.Reply} :
    (Move.answer w c r).leads w st = st.next c r := if_pos rfl

/-- What a step means to a relay: nothing, the beginning of a round, an answer, or an end. -/
theorem Step.relay_cases (h : Step cfg s m s') (w : Nat) :
    (m.relay? ≠ some w ∧ s'.talks w = s.talks w ∧ s'.memory w = s.memory w) ∨
    (m = .begin w ∧ s.talks w = none ∧ s'.talks w = some (round (cfg w))) ∨
    (∃ c r k, m = .answer w c r ∧ s.talks w = some (.ask c k) ∧ s'.talks w = some (k r) ∧
      Effect s.toFleet w c r s'.toFleet) ∨
    ((m.Ends w ∨ ∃ result, s.talks w = some (.done result)) ∧ (∀ st, m.leads w st = .ended) ∧
      s'.talks w = none) := by
  by_cases own : m.relay? = some w
  · cases h with
    | begin free =>
        cases own
        exact Or.inr (Or.inl ⟨rfl, free, Function.update_self ..⟩)
    | answer asking effect =>
        cases own
        exact Or.inr (Or.inr (Or.inl ⟨_, _, _, rfl, asking, Function.update_self .., effect⟩))
    | finish done =>
        cases own
        exact Or.inr (Or.inr (Or.inr ⟨Or.inr ⟨_, done⟩, fun _ => if_pos rfl,
          Function.update_self ..⟩))
    | panic | crash =>
        cases own
        exact Or.inr (Or.inr (Or.inr ⟨Or.inl rfl, fun _ => if_pos rfl, Function.update_self ..⟩))
    | _ => cases own
  · refine Or.inl ⟨own, ?_⟩
    cases h with
    | answer asking effect =>
        have other : w ≠ _ := fun hw => own (congrArg some hw.symm)
        refine ⟨Function.update_of_ne other .., ?_⟩
        cases effect with
        | @claim limit lease r session done =>
            cases r with
            | error e => rfl
            | ok claims => exact Function.update_of_ne other ..
        | _ => rfl
    | crash =>
        have other : w ≠ _ := fun hw => own (congrArg some hw.symm)
        exact ⟨Function.update_of_ne other .., Function.update_of_ne other ..⟩
    | begin | panic | finish =>
        have other : w ≠ _ := fun hw => own (congrArg some hw.symm)
        exact ⟨Function.update_of_ne other .., rfl⟩
    | _ => exact ⟨rfl, rfl⟩

/-- Every relay is at a talk that keeps to the protocol from its stage on, with the batch that it
claimed last in hand. -/
structure Staged (cfg : Nat → Config) (trace : Trace) (s : Rounds) : Prop where
  idle : ∀ w, s.talks w = none → stageOf trace w = .ended
  keeps : ∀ w talk, s.talks w = some talk → Keeps (cfg w) talk (stageOf trace w)
  hand : ∀ w batch, (stageOf trace w).batch? = some batch → (s.memory w).head? = some batch

namespace Staged

theorem start (fresh : s₀.Fresh) : Staged cfg [] s₀ where
  idle := fun _ _ => rfl
  keeps := by
    intro w talk h
    rw [fresh.talks] at h
    cases h
  hand := by
    intro w batch h
    cases h

theorem may (h : Staged cfg trace s) {c : Call} {k : c.Reply → Talk (Except WorkerError Summary)}
    (asking : s.talks w = some (.ask c k)) (r : c.Reply) : (stageOf trace w).May (cfg w) c ∧
      Keeps (cfg w) (k r) ((stageOf trace w).next c r) :=
  keeps_ask.1 (h.keeps w _ asking) r

theorem hand_answer (h : Staged cfg trace s) {c : Call} {r : c.Reply} {fleet : Fleet}
    (effect : Effect s.toFleet w c r fleet) {batch : List Claim}
    (hbatch : ((stageOf trace w).next c r).batch? = some batch) :
    (fleet.memory w).head? = some batch := by
  have hand := h.hand w
  generalize stageOf trace w = st at hand hbatch
  cases effect with
  | @claim limit lease r session done =>
      cases r with
      | error e => cases hbatch
      | ok claims =>
          cases claims with
          | nil => cases hbatch
          | cons c cs =>
              cases hbatch
              simp [Fleet.remember, said, Except.mapError]
  | reconcile => cases hbatch
  | publish messages r => exact hand batch (Stage.batch?_publish.symm.trans hbatch)
  | now => exact hand batch (Stage.batch?_now.symm.trans hbatch)
  | report => exact hand batch hbatch

theorem step (h : Staged cfg trace s) (step : Step cfg s m s') :
    Staged cfg (trace ++ [⟨s, m, s'⟩]) s' := by
  constructor
  · intro w free
    rw [stageOf_append]
    rcases step.relay_cases w with ⟨others, talk, _⟩ | ⟨_, _, talk⟩ | ⟨c, r, k, _, _, talk, _⟩ |
      ⟨_, ended, _⟩
    · rw [leads_others others, h.idle w (talk.symm.trans free)]
    · rw [free] at talk
      cases talk
    · rw [free] at talk
      cases talk
    · exact ended _
  · intro w talk htalk
    rw [stageOf_append]
    rcases step.relay_cases w with ⟨others, same, _⟩ | ⟨rfl, _, begun⟩ |
      ⟨c, r, k, rfl, asking, going, _⟩ | ⟨_, _, none⟩
    · rw [leads_others others]
      exact h.keeps w talk (same.symm.trans htalk)
    · cases begun.symm.trans htalk
      rw [leads_begin]
      exact round_keeps (cfg w)
    · cases going.symm.trans htalk
      rw [leads_answer]
      exact (h.may asking r).2
    · cases none.symm.trans htalk
  · intro w batch hbatch
    rw [stageOf_append] at hbatch
    rcases step.relay_cases w with ⟨others, _, same⟩ | ⟨rfl, _, _⟩ | ⟨c, r, k, rfl, _, _, effect⟩ |
      ⟨_, ended, _⟩
    · rw [leads_others others] at hbatch
      rw [same]
      exact h.hand w batch hbatch
    · rw [leads_begin] at hbatch
      cases hbatch
    · rw [leads_answer] at hbatch
      exact h.hand_answer effect hbatch
    · rw [ended] at hbatch
      cases hbatch

end Staged

/-! ## What relays do -/

theorem latest_of_head {batch : List Claim} (h : (s.memory w).head? = some batch) :
    latest s.toFleet w = batch ∧ batch ∈ s.memory w := by
  refine ⟨?_, List.mem_of_head? h⟩
  rw [latest, List.headD_eq_head?_getD, h]
  rfl

namespace Staged

/-- A relay pushes the batch that it claimed last. -/
theorem publishes (h : Staged cfg trace s) {messages : List Message}
    {k : Except BrokerError Unit → Talk (Except WorkerError Summary)}
    (asking : s.talks w = some (.ask (.publish messages) k)) :
    ∃ batch, stageOf trace w = .claimed batch ∧ messages = batch.map messageOf := by
  have may := (h.may asking (.ok ())).1
  generalize stageOf trace w = st at may
  cases may with
  | publish batch => exact ⟨batch, rfl, rfl⟩

/-- A relay writes back the batch that it claimed last. -/
theorem writesBack (h : Staged cfg trace s) {o : Outcome}
    {k : Except StorageError Unit → Talk (Except WorkerError Summary)}
    (asking : s.talks w = some (.ask (.reconcile o) k)) :
    ∃ batch, (stageOf trace w).batch? = some batch ∧ o.WritesBack batch := by
  have may := (h.may asking (.ok ())).1
  generalize stageOf trace w = st at may
  cases may with
  | dispatched batch => exact ⟨batch, rfl, .dispatched⟩
  | @failed batch e t ds made => exact ⟨batch, rfl, decisions_writesBack made⟩

end Staged

/-- Every step of rounds is one of relays that remember what they claimed. -/
theorem Step.view (h : Step cfg s m s') (staged : Staged cfg trace s) :
    Fleet.Step s.toFleet (s.view m) s'.toFleet := by
  have still : Fleet.Step s.toFleet (.advance s.clock) s.toFleet := .advance
  cases h with
  | enqueue done => exact .enqueue done
  | begin => exact still
  | @answer w c k r fleet asking effect =>
      cases effect with
      | report => exact still
      | now => exact still
      | claim done => exact .claim done
      | publish messages r =>
          obtain ⟨batch, hstage, rfl⟩ := staged.publishes asking
          have hbatch : (stageOf trace w).batch? = some batch := by rw [hstage]; rfl
          obtain ⟨hlatest, held⟩ := latest_of_head (staged.hand w batch hbatch)
          change Fleet.Step _ (.publish w (latest s.toFleet w) r.isOk) _
          rw [hlatest]
          exact .publish held r.isOk
      | @reconcile o r session done =>
          obtain ⟨batch, hbatch, built⟩ := staged.writesBack asking
          obtain ⟨hlatest, held⟩ := latest_of_head (staged.hand w batch hbatch)
          change Fleet.Step _ (.reconcile w (latest s.toFleet w) o (said r)) _
          rw [hlatest]
          exact .reconcile held built done
  | @panic w c k session asking panics =>
      cases panics with
      | claim done => exact .claim done
      | reconcile done =>
          obtain ⟨batch, hbatch, built⟩ := staged.writesBack asking
          obtain ⟨hlatest, held⟩ := latest_of_head (staged.hand w batch hbatch)
          change Fleet.Step _ (.reconcile w (latest s.toFleet w) _ (.error .crash)) _
          rw [hlatest]
          exact .reconcile held built done
      | abort => exact still
  | finish => exact still
  | crash => exact .crash
  | advance => exact .advance

theorem staged_of_run (fresh : s₀.Fresh) (run : Run (Step cfg) s₀ trace s) : Staged cfg trace s := by
  induction run with
  | refl => exact .start fresh
  | tail _ last ih => exact ih.step last

/-- Every run of rounds is one of relays that remember what they claimed. -/
theorem view_of_run (fresh : s₀.Fresh) (run : Run (Step cfg) s₀ trace s) :
    Run Fleet.Step s₀.toFleet (trace.map project) s.toFleet := by
  induction run with
  | refl => exact Run.refl
  | tail run last ih =>
      rw [List.map_append]
      exact ih.tail (last.view (staged_of_run fresh run))

theorem counted_of_run (fresh : s₀.Fresh) (run : Run (Step cfg) s₀ trace s) :
    Fleet.Counted (trace.map project) s.toFleet :=
  Fleet.counted fresh.fleet (view_of_run fresh run)

end Rounds

end Courier.Relay
