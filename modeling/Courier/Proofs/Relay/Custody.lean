import Courier.Proofs.Relay.Prompt

/-! # Who has an event

The pushes of an event are told from the trace alone, and so is where its last round is: a claim
puts the event into the hands of a relay, a write-back that is committed sets it free, and it is
lost when the round breaks off. In an orderly run only the relay that has the event pushes it or
writes it back.
-/

namespace Courier.Relay.Rounds

open Courier.Outbox Courier.Storage Courier.Stream

variable {cfg : Nat → Config} {s s' s₀ : Rounds} {m : Move} {w : Nat} {id : Int}
  {trace : Trace} {t : Transition Rounds Move} {batch : List Claim} {r r' : Row}

/-! ## The pushes of an event -/

def Move.answered (id : Int) : Move → Option (Except BrokerError Unit)
  | .answer _ (.publish messages) r =>
      if messages.any fun x => x.outboxId == id then some r else none
  | _ => none

def pushesOf (trace : Trace) (id : Int) : List (Except BrokerError Unit) :=
  trace.filterMap fun t => t.move.answered id

theorem pushesOf_append (trace : Trace) (t : Transition Rounds Move) (id : Int) :
    pushesOf (trace ++ [t]) id = pushesOf trace id ++ (t.move.answered id).toList := by
  cases h : t.move.answered id <;> simp [pushesOf, h]

/-- A relay pushes what it claimed last. -/
theorem Step.answered (step : Step cfg s m s') (staged : Staged cfg trace s)
    {a : Except BrokerError Unit} (h : m.answered id = some a) :
    ∃ w batch, m = .answer w (.publish (batch.map messageOf)) a ∧
      stageOf trace w = .claimed batch ∧ ∃ c ∈ batch, c.id = id := by
  cases step with
  | @answer w c k r fleet asking effect =>
      cases c with
      | publish messages =>
          obtain ⟨batch, hstage, rfl⟩ := staged.publishes asking
          rw [Move.answered] at h
          split at h
          · rename_i pushed
            cases h
            exact ⟨w, batch, rfl, hstage, by simpa [messageOf] using pushed⟩
          · cases h
      | _ => cases h
  | _ => cases h

/-! ## Rounds that are written back -/

/-- Where the round is that was given an event last: written back, in the hands of a relay, or
broken off before its write-back was committed. -/
inductive Custody
  | free
  | held (relay : Nat)
  | lost
  deriving DecidableEq

def Custody.release (c : Custody) (w : Nat) (left : Custody) : Custody :=
  if c = .held w then left else c

def Move.passes (id : Int) (c : Custody) : Move → Custody
  | .answer w (.claim ..) (.ok batch) => if Outbox.Table.gives batch id then .held w else c
  | .answer w (.reconcile _) (.ok _) => c.release w .free
  | .answer w (.reconcile _) (.error _) | .panic w _ | .crash w => c.release w .lost
  | _ => c

def custodyOf (trace : Trace) (id : Int) : Custody :=
  trace.foldl (fun c t => t.move.passes id c) .free

/-- Every round that was given the event has been written back. -/
def Settled (trace : Trace) (id : Int) : Prop := custodyOf trace id = .free

instance : Decidable (Settled trace id) := inferInstanceAs (Decidable (_ = _))

/-- Each round that is given the event is written back before the next claim takes it. -/
def Orderly (trace : Trace) (id : Int) : Prop :=
  ∀ past t rest, trace = past ++ t :: rest → t.move.gives id = true → Settled past id

theorem custodyOf_append (trace : Trace) (t : Transition Rounds Move) (id : Int) :
    custodyOf (trace ++ [t]) id = t.move.passes id (custodyOf trace id) := by
  simp [custodyOf]

theorem Settled.unheld (h : Settled trace id) : custodyOf trace id ≠ .held w := by
  rw [show custodyOf trace id = .free from h]
  nofun

theorem Orderly.nil : Orderly [] id := by
  intro past t rest h
  simp at h

theorem orderly_append :
    Orderly (trace ++ [t]) id ↔ Orderly trace id ∧ (t.move.gives id = true → Settled trace id) := by
  constructor
  · intro h
    refine ⟨?_, h trace t [] rfl⟩
    rintro past u rest rfl
    exact h past u (rest ++ [t]) (by simp)
  · rintro ⟨earlier, now⟩ past u rest htrace given
    rcases last_or_earlier htrace with ⟨rfl, rfl, rfl⟩ | ⟨mid, rfl, rfl⟩
    · exact now given
    · exact earlier past u mid rfl given

theorem Move.gives_cases (h : m.gives id = true) : ∃ w limit lease batch,
    m = .answer w (.claim limit lease) (.ok batch) ∧ ∃ c ∈ batch, c.id = id := by
  have h := Outbox.Table.gives_iff.1 h
  cases m with
  | answer w c r =>
      cases c with
      | claim limit lease =>
          cases r with
          | ok batch => exact ⟨w, limit, lease, batch, rfl, h⟩
          | error e => simp [Move.given] at h
      | _ => simp [Move.given] at h
  | _ => simp [Move.given] at h

theorem Move.passes_claim {limit : Nat} {lease : Span} {c : Claim} (hc : c ∈ batch)
    (custody : Custody) :
    (Move.answer w (.claim limit lease) (.ok batch)).passes c.id custody = .held w :=
  if_pos (Outbox.Table.gives_iff.2 ⟨c, hc, rfl⟩)

/-- Custody stays where it is until the round is over or another is given the event. -/
theorem Move.passes_kept {c : Custody} (ungiven : m.gives id = false)
    (going : ∀ w, c = .held w → ¬ m.Ends w) : m.passes id c = c := by
  have stay {w : Nat} {left : Custody} (hm : m.Ends w) : c.release w left = c :=
    if_neg fun held => going w held hm
  cases m with
  | answer w call r =>
      cases call with
      | claim limit lease =>
          cases r with
          | ok batch => exact if_neg (Bool.eq_false_iff.1 ungiven)
          | error e => rfl
      | reconcile o => cases r <;> exact stay rfl
      | _ => rfl
  | panic | crash => exact stay rfl
  | _ => rfl

theorem Move.Ends.passes (h : m.Ends w) (id : Int) :
    ((∃ o, m = .answer w (.reconcile o) (.ok ())) ∧ m.passes id (.held w) = .free) ∨
    ((∀ o, m ≠ .answer w (.reconcile o) (.ok ())) ∧ m.passes id (.held w) = .lost) := by
  cases m with
  | answer w' c r =>
      cases c with
      | reconcile o =>
          obtain rfl : w' = w := h
          cases r with
          | ok u => exact Or.inl ⟨⟨o, rfl⟩, if_pos rfl⟩
          | error e => exact Or.inr ⟨fun _ same => (by cases same), if_pos rfl⟩
      | _ => cases h
  | panic | crash =>
      obtain rfl : _ = w := h
      exact Or.inr ⟨fun _ same => (by cases same), if_pos rfl⟩
  | _ => cases h

theorem Move.Ends.answered (h : m.Ends w) : m.answered id = none := by
  cases m with
  | answer w' c r =>
      cases c with
      | reconcile => rfl
      | _ => cases h
  | panic | crash => rfl
  | _ => cases h

theorem Settled.step (h : Settled trace id) (ungiven : t.move.gives id = false) :
    Settled (trace ++ [t]) id := by
  rw [Settled, custodyOf_append]
  exact (Move.passes_kept ungiven fun _ held => absurd held h.unheld).trans h

/-- Whoever has the event in hand has it in custody. -/
theorem Outstanding.held {ending : Int} (orderly : Orderly trace id)
    (outstanding : Outstanding trace w batch ending) {c : Claim} (hc : c ∈ batch)
    (hid : c.id = id) : custodyOf trace id = .held w := by
  induction trace using List.reverseRecOn with
  | nil =>
      obtain ⟨before, granted, after, _, _, htrace, _⟩ := outstanding
      simp at htrace
  | append_singleton trace t ih =>
      obtain ⟨early, now⟩ := orderly_append.1 orderly
      rw [custodyOf_append]
      rcases outstanding.earlier with ⟨earlier, going⟩ | ⟨limit, lease, claimed, _⟩
      · have held := ih early earlier
        rw [held]
        refine Move.passes_kept (Bool.eq_false_iff.2 fun given => ?_) ?_
        · have free := now given
          rw [Settled, held] at free
          cases free
        · rintro w' same
          cases same
          exact going
      · rw [claimed, ← hid]
        exact Move.passes_claim hc _

/-! ## One step of an orderly run -/

section Step

variable (fresh : s₀.Fresh) (run : Run (Step cfg) s₀ trace s) (step : Step cfg s m s')
  (orderly : Orderly (trace ++ [⟨s, m, s'⟩]) id)

include fresh run step orderly

/-- Only who has the event in custody pushes it. -/
theorem pushesOf_kept (others : ∀ w, custodyOf trace id = .held w → m.relay? ≠ some w) :
    pushesOf (trace ++ [⟨s, m, s'⟩]) id = pushesOf trace id := by
  rw [pushesOf_append]
  cases h : m.answered id with
  | none => exact List.append_nil _
  | some a =>
      obtain ⟨w, batch, rfl, hstage, c, hc, hid⟩ := step.answered (staged_of_run fresh run) h
      obtain ⟨ending, outstanding⟩ := outstanding_of_run fresh run hstage rfl
      exact absurd rfl (others w (outstanding.held (orderly_append.1 orderly).1 hc hid))

/-- Only who has the event in custody writes it back. -/
theorem row_kept (hid : r.id = id) (rewrites : (s.view m).Rewrites s.clock r r')
    (ungiven : m.gives id = false)
    (unwritten : ∀ w o, custodyOf trace id = .held w → m ≠ .answer w (.reconcile o) (.ok ())) :
    r' = r := by
  rcases step.row_cases (staged_of_run fresh run) rewrites with ⟨given, _⟩ |
    ⟨w, batch, o, hm, hand, _, ⟨c, hc, live⟩, _⟩ | ⟨same, _⟩
  · rw [hid, ungiven] at given
    cases given
  · obtain ⟨ending, outstanding⟩ := outstanding_of_run fresh run rfl hand
    have held := outstanding.held (orderly_append.1 orderly).1 hc (live.1.symm.trans hid)
    exact absurd hm (unwritten w o held)
  · exact same

omit fresh run step in
theorem ungiven_of_custody (busy : ¬ Settled trace id) : m.gives id = false :=
  Bool.eq_false_iff.2 fun given => busy ((orderly_append.1 orderly).2 given)

end Step

end Courier.Relay.Rounds
