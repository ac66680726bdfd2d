import Courier.Proofs.Relay.Rounds
import Mathlib.Algebra.BigOperators.Group.Finset.Piecewise
import Mathlib.Algebra.GroupWithZero.Nat

/-! # What relays report

A relay reports how many events were dispatched, put back and given up. It takes the numbers from
what it wrote back and reports them once the write-back was answered, before it asks for anything
else. So from one committed write-back to the next it owes the reports on the first; a relay that
rests owes none, and altogether relays that rest have reported as many events as they wrote back.
-/

namespace Courier.Relay

open Courier.Outbox Courier.Storage Courier.Stream

/-! ## Fates -/

inductive Fate
  | dispatched
  | retried
  | dead
  deriving DecidableEq, Repr

namespace Fate

def status : Fate → Status
  | dispatched => .dispatched
  | retried => .pending
  | dead => .dead

theorem status_ne_processing (f : Fate) : f.status.text ≠ Status.processing.text := by
  cases f <;> decide

end Fate

def fateOf : Decision → Fate
  | .retry .. => .retried
  | .dead .. => .dead

/-- The claims that an outcome ends with a fate. -/
def tokensTo (f : Fate) : Outcome → List (Int × Int)
  | .dispatched batch => if f = .dispatched then batch.map Claim.token else []
  | .failed decisions _ => (decisions.filter fun d => fateOf d = f).map Decision.token

abbrev Account := List (Fate × Nat)

def amount (f : Fate) (account : Account) : Nat :=
  (account.map fun (g, n) => if g = f then n else 0).sum

@[simp] theorem amount_nil (f : Fate) : amount f [] = 0 := rfl

@[simp] theorem amount_append (f : Fate) (a b : Account) :
    amount f (a ++ b) = amount f a + amount f b := by
  simp [amount]

theorem amount_flatMap {α : Type} (f : Fate) (g : α → Account) (xs : List α) :
    amount f (xs.flatMap g) = (xs.map fun x => amount f (g x)).sum := by
  induction xs with
  | nil => rfl
  | cons x xs ih => simp [ih]

/-! ## What a round owes -/

def accountOf : Report → Account
  | .count .relayDispatched n => [(.dispatched, n)]
  | .count .relayRetried n => [(.retried, n)]
  | .count .relayDead n => [(.dead, n)]
  | _ => []

/-- What has to be reported once an outcome was written back. -/
def duesOf : Outcome → Account
  | .dispatched batch => [(.dispatched, batch.length)]
  | .failed decisions _ =>
    [(.retried, decisions.countP Decision.isRetry),
     (.dead, decisions.length - decisions.countP Decision.isRetry)]

def toldBy : Call → Account
  | .report r => accountOf r
  | _ => []

def dueAfter : (c : Call) → c.Reply → Account
  | .reconcile o, .ok _ => duesOf o
  | _, _ => []

/-- A talk owes an account: it reports the account in this order, and again what becomes due on the
way. Until that is done it does nothing but report. -/
def Owes : Talk (Except WorkerError Summary) → Account → Prop
  | .done _, owed => owed = []
  | .ask c k, owed => (owed = [] ∨ ∃ r, c = .report r) ∧
      ∀ r, ∃ left, owed ++ dueAfter c r = toldBy c ++ left ∧ Owes (k r) left

theorem amount_duesOf (f : Fate) (o : Outcome) : amount f (duesOf o) = (tokensTo f o).length := by
  cases o with
  | dispatched batch => cases f <;> simp [amount, duesOf, tokensTo]
  | failed decisions lastError =>
      have retried : (decisions.filter fun d => fateOf d = .retried).length =
          decisions.countP Decision.isRetry := by
        rw [List.countP_eq_length_filter]
        congr 1
        refine List.filter_congr fun d _ => ?_
        cases d <;> rfl
      have dead : (decisions.filter fun d => fateOf d = .dead).length =
          decisions.length - decisions.countP Decision.isRetry := by
        have split := List.length_eq_countP_add_countP Decision.isRetry (l := decisions)
        have other : decisions.countP (fun d => ¬ d.isRetry = true) =
            (decisions.filter fun d => fateOf d = .dead).length := by
          rw [List.countP_eq_length_filter]
          congr 1
          refine List.filter_congr fun d _ => ?_
          cases d <;> rfl
        omega
      have dispatched : (decisions.filter fun d => fateOf d = .dispatched) = [] := by
        refine List.filter_eq_nil_iff.2 fun d _ => ?_
        cases d <;> simp [fateOf]
      cases f <;> simp [amount, duesOf, tokensTo, retried, dead, dispatched]

theorem owes_report {r : Report} {rest : Unit → Talk (Except WorkerError Summary)} (owed : Account)
    (h : Owes (rest ()) owed) : Owes ((report r).bind rest) (accountOf r ++ owed) :=
  ⟨Or.inr ⟨r, rfl⟩, fun _ => ⟨owed, List.append_nil _, h⟩⟩

theorem owes_lines {reports : List Report} {rest : PUnit → Talk (Except WorkerError Summary)}
    {owed : Account} (lines : ∀ r ∈ reports, accountOf r = []) (h : Owes (rest ⟨⟩) owed) :
    Owes ((reports.forM report).bind rest) owed := by
  induction reports with
  | nil => exact h
  | cons r reports ih =>
      have later := ih fun q hq => lines q (List.mem_cons_of_mem r hq)
      have first : Owes ((report r).bind fun _ => (reports.forM report).bind rest)
          (accountOf r ++ owed) := owes_report owed later
      rw [lines r List.mem_cons_self] at first
      exact first

/-- A talk that owes nothing asks for something else than a report. -/
theorem owes_ask {c : Call} {k : c.Reply → Talk (Except WorkerError Summary)}
    (silent : toldBy c = []) (h : ∀ r, Owes (k r) (dueAfter c r)) : Owes (.ask c k) [] :=
  ⟨Or.inl rfl, fun r => ⟨dueAfter c r, by rw [silent], h r⟩⟩

theorem owes_done {α : Type} {a : α} {k : α → Talk (Except WorkerError Summary)} {owed : Account}
    (h : Owes (k a) owed) : Owes ((Dialogue.done a).bind k) owed := h

theorem accountOf_burials (ds : List Decision) : ∀ r ∈ burials ds, accountOf r = [] := by
  intro r hr
  obtain ⟨d, _, hd⟩ := List.mem_filterMap.1 hr
  cases d with
  | retry => cases hd
  | dead => cases hd; rfl

theorem settleAccepted_owes (batch : List Claim) : Owes (settleAccepted batch) [] := by
  refine owes_ask rfl fun r => ?_
  cases r with
  | error e => rfl
  | ok u => exact owes_report _ (owes_report [] rfl)

theorem settleRefused_owes (batch : List Claim) (ds : List Decision) (e : BrokerError) :
    Owes (settleRefused batch ds e) [] := by
  refine owes_lines (accountOf_burials ds) (owes_report [] (owes_ask rfl fun r => ?_))
  cases r with
  | error e => rfl
  | ok u => exact owes_report _ (owes_report [] rfl)

theorem round_owes (cfg : Config) : Owes (round cfg) [] := by
  refine owes_ask rfl fun r => ?_
  cases r with
  | error e => rfl
  | ok batch =>
      cases batch with
      | nil => rfl
      | cons c cs =>
          refine owes_report [] (owes_ask rfl fun r => ?_)
          cases r with
          | ok u => exact settleAccepted_owes (c :: cs)
          | error e =>
              refine owes_ask rfl fun t => owes_done ?_
              cases decisions? cfg.policy (c :: cs) t with
              | some ds => exact settleRefused_owes (c :: cs) ds e
              | none => exact owes_ask rfl fun r => Empty.elim r

/-! ## What relays owe -/

namespace Rounds

variable {cfg : Nat → Config} {s s' s₀ : Rounds} {m : Move} {w : Nat} {trace : Trace} {f : Fate}

def Move.told : Move → Account
  | .answer _ c _ => toldBy c
  | _ => []

def Move.due : Move → Account
  | .answer _ c r => dueAfter c r
  | _ => []

def reported (f : Fate) (trace : Trace) : Nat := (trace.map fun t => amount f t.move.told).sum

def ownMoves (w : Nat) (trace : Trace) : Trace := trace.filter fun t => t.move.relay? = some w

/-- What a relay reported, and what it had to report. -/
def toldIn (w : Nat) (trace : Trace) : Account := (ownMoves w trace).flatMap fun t => t.move.told

def dueIn (w : Nat) (trace : Trace) : Account := (ownMoves w trace).flatMap fun t => t.move.due

theorem toldIn_append (trace : Trace) (t : Transition Rounds Move) :
    toldIn w (trace ++ [t]) =
      toldIn w trace ++ if t.move.relay? = some w then t.move.told else [] := by
  by_cases own : t.move.relay? = some w <;> simp [toldIn, ownMoves, own]

theorem dueIn_append (trace : Trace) (t : Transition Rounds Move) :
    dueIn w (trace ++ [t]) =
      dueIn w trace ++ if t.move.relay? = some w then t.move.due else [] := by
  by_cases own : t.move.relay? = some w <;> simp [dueIn, ownMoves, own]

/-- What a relay had to report and has not reported, its talk owes. -/
def Accounted (trace : Trace) (s : Rounds) (w : Nat) : Prop :=
  match s.talks w with
  | none => dueIn w trace = toldIn w trace
  | some talk => ∃ owed, Owes talk owed ∧ dueIn w trace = toldIn w trace ++ owed

theorem accounted_step (h : Accounted trace s w) (step : Step cfg s m s')
    (unbroken : ∀ w, m ≠ .crash w) : Accounted (trace ++ [⟨s, m, s'⟩]) s' w := by
  unfold Accounted at h ⊢
  rw [toldIn_append, dueIn_append]
  by_cases own : m.relay? = some w
  · rw [if_pos own, if_pos own]
    cases step with
    | enqueue | advance => cases own
    | crash => exact absurd rfl (unbroken _)
    | begin free =>
        cases own
        rw [free] at h
        simp only [Function.update_self]
        exact ⟨[], round_owes _, by simpa [Move.told, Move.due] using h⟩
    | answer asking effect =>
        -- What was owed and what becomes due is what is told now and what is owed from now on.
        cases own
        rw [asking] at h
        obtain ⟨owed, ⟨_, owes⟩, settled⟩ := h
        obtain ⟨left, passed, later⟩ := owes _
        simp only [Function.update_self]
        refine ⟨left, later, ?_⟩
        rw [settled, List.append_assoc, List.append_assoc]
        exact congrArg _ passed
    | finish done =>
        cases own
        rw [done] at h
        obtain ⟨owed, rfl, settled⟩ := h
        simpa [Move.told, Move.due] using settled
    | panic asking panics =>
        cases own
        rw [asking] at h
        obtain ⟨owed, ⟨free, _⟩, settled⟩ := h
        -- no relay panics while it reports
        have nothing : owed = [] := by
          rcases free with nothing | ⟨r, rfl⟩
          · exact nothing
          · cases panics
        simpa [Move.told, Move.due, nothing] using settled
  · have same : s'.talks w = s.talks w := by
      rcases step.relay_cases w with ⟨_, talk, _⟩ | ⟨rfl, _⟩ | ⟨_, _, _, rfl, _⟩ | ⟨_, ended, _⟩
      · exact talk
      · exact absurd rfl own
      · exact absurd rfl own
      · cases (leads_others own).symm.trans (ended .start)
    rw [same, if_neg own, if_neg own, List.append_nil, List.append_nil]
    exact h

theorem accounted_of_run (fresh : s₀.Fresh) (run : Run (Step cfg) s₀ trace s)
    (unbroken : ∀ t ∈ trace, ∀ w, t.move ≠ .crash w) (w : Nat) : Accounted trace s w := by
  -- A crashed relay would leave for good what its talk owed.
  induction run with
  | refl =>
      unfold Accounted
      rw [fresh.talks]
      rfl
  | tail _ last ih =>
      have earlier := ih fun t ht => unbroken t (List.mem_append_left _ ht)
      exact accounted_step earlier last (unbroken _ (List.mem_append_right _ List.mem_cons_self))

/-! ## All relays -/

/-- A sum over the moves of some relays is the sum of what each of them contributes. -/
theorem sum_by_relay {g : Move → Nat} (none : ∀ m, m.relay? = none → g m = 0) {bound : Nat}
    (relays : ∀ t ∈ trace, ∀ w, t.move.relay? = some w → w < bound) :
    (trace.map fun t => g t.move).sum =
      ∑ w ∈ Finset.range bound, ((ownMoves w trace).map fun t => g t.move).sum := by
  induction trace with
  | nil => simp [ownMoves]
  | cons t trace ih =>
      have rest := ih fun u hu => relays u (List.mem_cons_of_mem t hu)
      have first : g t.move = ∑ w ∈ Finset.range bound,
          if t.move.relay? = some w then g t.move else 0 := by
        cases own : t.move.relay? with
        | none => simp [none _ own]
        | some w =>
            have within := relays t List.mem_cons_self w own
            simp [within]
      have split (w : Nat) : ((ownMoves w (t :: trace)).map fun t => g t.move).sum =
          (if t.move.relay? = some w then g t.move else 0) +
            ((ownMoves w trace).map fun t => g t.move).sum := by
        by_cases own : t.move.relay? = some w <;> simp [ownMoves, own]
      rw [List.map_cons, List.sum_cons, rest, first]
      simp only [split, Finset.sum_add_distrib]

theorem exists_bound (trace : Trace) :
    ∃ bound, ∀ t ∈ trace, ∀ w, t.move.relay? = some w → w < bound := by
  induction trace with
  | nil => exact ⟨0, by simp⟩
  | cons t trace ih =>
      obtain ⟨bound, within⟩ := ih
      refine ⟨max bound ((t.move.relay?.getD 0) + 1), ?_⟩
      intro u hu w own
      rcases List.mem_cons.1 hu with rfl | hu
      · rw [own]
        simp
      · exact lt_max_of_lt_left (within u hu w own)

/-- Relays that rest have reported all that they had to. -/
theorem reported_eq_due (fresh : s₀.Fresh) (run : Run (Step cfg) s₀ trace s)
    (unbroken : ∀ t ∈ trace, ∀ w, t.move ≠ .crash w) (rest : ∀ w, s.talks w = none) (f : Fate) :
    reported f trace = (trace.map fun t => amount f t.move.due).sum := by
  obtain ⟨bound, relays⟩ := exists_bound trace
  have settled (w : Nat) : ((ownMoves w trace).map fun t => amount f t.move.told).sum =
      ((ownMoves w trace).map fun t => amount f t.move.due).sum := by
    have equal := accounted_of_run fresh run unbroken w
    rw [Accounted, rest] at equal
    simp only [← amount_flatMap]
    exact congrArg (amount f) equal.symm
  have told : ∀ m : Move, m.relay? = none → amount f m.told = 0 := by
    intro m others
    cases m with
    | answer => cases others
    | _ => rfl
  have due : ∀ m : Move, m.relay? = none → amount f m.due = 0 := by
    intro m others
    cases m with
    | answer => cases others
    | _ => rfl
  rw [reported, sum_by_relay told relays, sum_by_relay due relays]
  exact Finset.sum_congr rfl fun w _ => settled w

end Rounds

end Courier.Relay
