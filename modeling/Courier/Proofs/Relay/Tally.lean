import Courier.Proofs.Relay.Accounts
import Courier.Proofs.Relay.Prompt

/-! # What the counters of relays count

The counters of relays tell how many events were dispatched, put back and given up. A write-back
does that to an event only if the claim that the relay writes back is still the claim that the event
is processed under; otherwise it leaves the event to whoever claimed it since. The relay is not told
which of the two it was and counts both. So the counters run ahead of the outbox by the claims that
were written back too late, and agree with it when nobody is late.
-/

namespace Courier.Relay

open Courier.Outbox Courier.Storage Courier.Stream

/-! ## The claims of an outcome by their fate -/

theorem tokensTo_sublist (f : Fate) (o : Outcome) : (tokensTo f o).Sublist o.tokens := by
  cases o with
  | dispatched batch =>
      by_cases accepted : f = .dispatched
      · rw [tokensTo, if_pos accepted]
        exact List.Sublist.refl _
      · rw [tokensTo, if_neg accepted]
        exact List.nil_sublist _
  | failed decisions lastError => exact List.filter_sublist.map _

theorem status_write (d : Decision) (lastError : String) (now : Instant) (r : Row) :
    (d.write lastError now r).status = (fateOf d).status.text := by
  cases d <;> rfl

theorem Fate.status_injective {f g : Fate} (same : f.status.text = g.status.text) : f = g := by
  have status := Status.text_injective same
  cases f <;> cases g <;> first | rfl | cases status

/-- A row that an outcome writes gets the status of a fate exactly if the outcome ends the claim that
the row is live under with that fate. -/
theorem status_iff_of_writes {o : Outcome} {now : Instant} {r r' : Row} (h : o.Writes now r r')
    (live : ∃ p ∈ o.tokens, r.Live p.1 p.2) (once : o.tokens.Nodup) (f : Fate) :
    r'.status = f.status.text ↔ ∃ p ∈ tokensTo f o, r.Live p.1 p.2 := by
  cases h with
  | @dispatched batch =>
      constructor
      · intro shown
        obtain rfl : Fate.dispatched = f := Fate.status_injective shown
        exact live
      · rintro ⟨p, hp, _⟩
        by_cases accepted : f = .dispatched
        · rw [accepted]
          rfl
        · rw [tokensTo, if_neg accepted] at hp
          cases hp
  | @settled decisions lastError d _ mem alive =>
      rw [status_write]
      constructor
      · intro shown
        have fate := Fate.status_injective shown
        exact ⟨d.token, List.mem_map_of_mem (List.mem_filter.2 ⟨mem, by simpa using fate⟩), alive⟩
      · rintro ⟨p, hp, alive'⟩
        obtain ⟨d', hd', rfl⟩ := List.mem_map.1 hp
        obtain ⟨mem', fate⟩ := List.mem_filter.1 hd'
        -- the row is live under one claim only, and that is decided on once
        have token : d.token = d'.token :=
          Prod.ext (alive.1.symm.trans alive'.1) (alive.2.2.symm.trans alive'.2.2)
        rw [List.inj_on_of_nodup_map once mem mem' token]
        rw [of_decide_eq_true fate]

namespace Rounds

variable {cfg : Nat → Config} {s s' s₀ : Rounds} {m : Move} {w : Nat} {trace : Trace} {f : Fate}

/-! ## One move -/

/-- The claims that a committed write-back ends with a fate, or would end if they are not over. -/
def Move.endsAs (f : Fate) : Move → List (Int × Int)
  | .answer _ (.reconcile o) (.ok _) => tokensTo f o
  | _ => []

/-- A row that is being processed moves to the status of a fate. -/
def Moves (f : Fate) (t : Transition Rounds Move) (r : Row) : Prop :=
  r.status = Status.processing.text ∧
    ∃ r' ∈ t.after.table.rows, r'.id = r.id ∧ r'.status = f.status.text

instance (f : Fate) (t : Transition Rounds Move) (r : Row) : Decidable (Moves f t r) :=
  inferInstanceAs (Decidable (_ ∧ _))

def LiveIn (s : Rounds) (p : Int × Int) : Prop := ∃ r ∈ s.table.rows, r.Live p.1 p.2

instance (s : Rounds) (p : Int × Int) : Decidable (LiveIn s p) :=
  inferInstanceAs (Decidable (∃ r ∈ s.table.rows, _))

def moved (f : Fate) (t : Transition Rounds Move) : Nat :=
  t.before.table.rows.countP fun r => Moves f t r

/-- How many claims a transition writes back with a fate although they are over. -/
def late (f : Fate) (t : Transition Rounds Move) : Nat :=
  (t.move.endsAs f).countP fun p => ¬ LiveIn t.before p

theorem Move.mem_endsAs {p : Int × Int} : p ∈ m.endsAs f ↔
    ∃ w o, m = .answer w (.reconcile o) (.ok ()) ∧ p ∈ tokensTo f o := by
  constructor
  · intro hp
    cases m with
    | answer w c r =>
        cases c with
        | reconcile o =>
            cases r with
            | error e => cases hp
            | ok u => exact ⟨w, o, rfl, hp⟩
        | _ => cases hp
    | _ => cases hp
  · rintro ⟨w, o, rfl, hp⟩
    exact hp

theorem Move.amount_due (m : Move) (f : Fate) : amount f m.due = (m.endsAs f).length := by
  cases m with
  | answer w c r =>
      cases c with
      | reconcile o =>
          cases r with
          | error e => rfl
          | ok u => exact amount_duesOf f o
      | _ => rfl
  | _ => rfl

/-- A relay writes back the claims of the batch that it has. -/
theorem Step.tokens_written {o : Outcome} (staged : Staged cfg trace s)
    (last : Step cfg s (.answer w (.reconcile o) (.ok ())) s') :
    ∃ batch, (stageOf trace w).batch? = some batch ∧ o.tokens = batch.map Claim.token := by
  cases last with
  | answer asking effect =>
      obtain ⟨batch, hbatch, built⟩ := staged.writesBack asking
      exact ⟨batch, hbatch, built.tokens⟩

section Step

variable (fresh : s₀.Fresh) (run : Run (Step cfg) s₀ trace s)

include fresh run in
/-- No claim is written back twice at a time. -/
theorem written_nodup {o : Outcome} (last : Step cfg s (.answer w (.reconcile o) (.ok ())) s') :
    o.tokens.Nodup := by
  have staged := staged_of_run fresh run
  obtain ⟨batch, hbatch, tokens⟩ := last.tokens_written staged
  have held := (latest_of_head (staged.hand w batch hbatch)).2
  have ids := (counted_of_run fresh run).held_ids_nodup held
  rw [tokens]
  refine List.Nodup.of_map Prod.fst ?_
  simpa [List.map_map, Function.comp_def, Claim.token] using ids

include fresh run in
theorem endsAs_nodup (last : Step cfg s m s') (f : Fate) : (m.endsAs f).Nodup := by
  cases m with
  | answer w c r =>
      cases c with
      | reconcile o =>
          cases r with
          | error e => exact List.nodup_nil
          | ok u => exact (written_nodup fresh run last).sublist (tokensTo_sublist f o)
      | _ => exact List.nodup_nil
  | _ => exact List.nodup_nil

include fresh run in
/-- Rows move to the status of a fate by a write-back that ends their claim with that fate, and by
nothing else. -/
theorem moves_iff (last : Step cfg s m s') {r : Row} (hr : r ∈ s.table.rows) :
    Moves f ⟨s, m, s'⟩ r ↔ ∃ p ∈ m.endsAs f, r.Live p.1 p.2 := by
  have staged := staged_of_run fresh run
  have ordered := (counted_of_run fresh (run.tail last)).ordered
  obtain ⟨r', hr', rewrites⟩ := (last.view staged).row_after hr
  have here : (∃ a ∈ s'.table.rows, a.id = r.id ∧ a.status = f.status.text) ↔
      r'.status = f.status.text := by
    constructor
    · rintro ⟨a, ha, hid, shown⟩
      rwa [ordered.eq_of_id_eq hr' ha (rewrites.id_eq.trans hid.symm)]
    · exact fun shown => ⟨r', hr', rewrites.id_eq, shown⟩
  rw [Moves, here]
  rcases last.row_cases staged rewrites with ⟨given, processing⟩ | ⟨w, batch, o, rfl, hbatch, _,
    live, writes⟩ | ⟨rfl, fenced⟩
  · -- a row that is given out goes on being processed
    constructor
    · rintro ⟨_, shown⟩
      exact absurd (shown.symm.trans processing) f.status_ne_processing
    · rintro ⟨p, hp, _⟩
      obtain ⟨w, o, rfl, _⟩ := Move.mem_endsAs.1 hp
      cases given
  · have ends : ∃ p ∈ o.tokens, r.Live p.1 p.2 := by
      obtain ⟨c, hc, live⟩ := live
      obtain ⟨batch', hbatch', tokens⟩ := last.tokens_written staged
      obtain rfl := Option.some.inj (hbatch.symm.trans hbatch')
      rw [tokens]
      exact ⟨c.token, List.mem_map_of_mem hc, live⟩
    have processing : r.status = Status.processing.text := by
      obtain ⟨p, _, live⟩ := ends
      exact live.2.1
    rw [status_iff_of_writes writes ends (written_nodup fresh run last) f]
    exact and_iff_right processing
  · constructor
    · rintro ⟨processing, shown⟩
      exact absurd (shown.symm.trans processing) f.status_ne_processing
    · rintro ⟨p, hp, live⟩
      obtain ⟨w, o, rfl, mem⟩ := Move.mem_endsAs.1 hp
      exact absurd live (fenced w o rfl p ((tokensTo_sublist f o).mem mem))

include fresh run in
/-- What a transition is to report is what it moves and what it writes back too late. -/
theorem due_eq (last : Step cfg s m s') (f : Fate) :
    amount f m.due = moved f ⟨s, m, s'⟩ + late f ⟨s, m, s'⟩ := by
  have rows : moved f ⟨s, m, s'⟩ = s.table.rows.countP (Outbox.Table.liveIn (m.endsAs f)) := by
    refine List.countP_congr fun r hr => ?_
    rw [decide_eq_true_iff, Table.liveIn_iff]
    exact moves_iff fresh run last hr
  have claims : s.table.rows.countP (Outbox.Table.liveIn (m.endsAs f)) =
      (m.endsAs f).countP fun p => LiveIn s p := by
    rw [(counted_of_run fresh run).ordered.countP_liveIn, Outbox.Table.liveTokens,
      (endsAs_nodup fresh run last f).dedup, List.countP_eq_length_filter]
    refine congrArg List.length (List.filter_congr fun p _ => ?_)
    rw [Bool.eq_iff_iff, decide_eq_true_iff]
    simp [LiveIn]
  have parts := List.length_eq_countP_add_countP (fun p => decide (LiveIn s p)) (l := m.endsAs f)
  simp only [decide_eq_true_eq] at parts
  rw [Move.amount_due, rows, claims]
  exact parts

end Step

/-! ## Runs -/

def movedIn (f : Fate) (trace : Trace) : Nat := (trace.map (moved f)).sum

def lateIn (f : Fate) (trace : Trace) : Nat := (trace.map (late f)).sum

theorem due_of_run (fresh : s₀.Fresh) (run : Run (Step cfg) s₀ trace s) (f : Fate) :
    (trace.map fun t => amount f t.move.due).sum = movedIn f trace + lateIn f trace := by
  induction run with
  | refl => rfl
  | tail run last ih =>
      have one := due_eq fresh run last f
      simp only [movedIn, lateIn, List.map_append, List.sum_append, List.map_cons, List.map_nil,
        List.sum_singleton] at ih ⊢
      omega

/-- While nobody is late, all claims that are written back are live. -/
theorem live_of_prompt (fresh : s₀.Fresh) (run : Run (Step cfg) s₀ trace s)
    (forward : Forward trace) (prompt : Prompt trace s) :
    ∀ t ∈ trace, ∀ p ∈ t.move.endsAs f, LiveIn t.before p := by
  induction run with
  | refl => simp
  | @tail trace s m s' run last ih =>
      obtain ⟨past, later⟩ := forward.last
      have earlier := prompt.before later
      intro t ht p hp
      rcases List.mem_append.1 ht with ht | ht
      · exact ih past earlier t ht p hp
      · rw [List.mem_singleton.1 ht] at hp ⊢
        obtain ⟨w, o, rfl, mem⟩ := Move.mem_endsAs.1 hp
        obtain ⟨batch, hand, tokens⟩ := last.tokens_written (staged_of_run fresh run)
        obtain ⟨ending, outstanding⟩ := outstanding_of_run fresh run rfl hand
        have mem := (tokensTo_sublist f o).mem mem
        rw [tokens] at mem
        obtain ⟨c, hc, rfl⟩ := List.mem_map.1 mem
        obtain ⟨r, hr, live, _⟩ := (calm_of_run fresh run past earlier).held w batch ending
          outstanding c hc
        exact ⟨r, List.mem_of_find?_eq_some hr, live⟩

/-- What the counters have to do with the outbox.

* `total`: for each fate the relays count the rows that moved and the claims written back too late.
* `exact`: so they count what moved exactly if every claim that was written back was live.
* `prompt`: and it was if the clock was never set back and nobody was late. -/
structure Tallied (trace : Trace) (s : Rounds) : Prop where
  total : ∀ f, reported f trace = movedIn f trace + lateIn f trace
  exact : ∀ f, reported f trace = movedIn f trace ↔
    ∀ t ∈ trace, ∀ p ∈ t.move.endsAs f, LiveIn t.before p
  prompt : Forward trace → Prompt trace s → ∀ f, reported f trace = movedIn f trace

/-- In every run, once all relays rest, unless one crashed on the way. -/
theorem counters_tally (fresh : s₀.Fresh) (run : Run (Step cfg) s₀ trace s)
    (unbroken : ∀ t ∈ trace, ∀ w, t.move ≠ .crash w) (rest : ∀ w, s.talks w = none) :
    Tallied trace s := by
  have total (f : Fate) : reported f trace = movedIn f trace + lateIn f trace :=
    (reported_eq_due fresh run unbroken rest f).trans (due_of_run fresh run f)
  have exact_iff (f : Fate) : reported f trace = movedIn f trace ↔
      ∀ t ∈ trace, ∀ p ∈ t.move.endsAs f, LiveIn t.before p := by
    rw [total, Nat.add_eq_left, lateIn, List.sum_eq_zero_iff_forall_eq_nat]
    simp [late, List.countP_eq_zero]
  refine ⟨total, exact_iff, fun forward prompt f => ?_⟩
  exact (exact_iff f).2 (live_of_prompt fresh run forward prompt)

/-- One event is dispatched, and one relay that found nothing to do is at rest again. -/
theorem counters_tally_dispatched : ∃ trace s, Tallied trace s ∧
    [Fate.dispatched, .retried, .dead].map (reported · trace) = [1, 0, 0] ∧
    [Fate.dispatched, .retried, .dead].map (movedIn · trace) = [1, 0, 0] := by
  have run := (Run.refl : Run (Step fun _ => patient 10) resting [] _)
    |>.tail (show Step _ _ (.begin 1) _ from .begin rfl)
    |>.tail (show Step _ _ (.answer 1 (.claim ..) (.ok [])) _ from .answer rfl (.claim rfl))
    |>.tail (show Step _ _ (.finish 1 _) _ from .finish rfl)
    |>.tail (show Step _ _ (.enqueue ⟨"check", .null, .ofNanos 0⟩ (.ok 1)) _ from .enqueue rfl)
    |>.tail (show Step _ _ (.begin 0) _ from .begin rfl)
    |>.tail (show Step _ _ (.answer 0 (.claim ..) (.ok [Fleet.loneClaim 1])) _
      from .answer rfl (.claim rfl))
    |>.tail (show Step _ _ (.answer 0 (.report _) ()) _ from .answer rfl (.report _ _))
    |>.tail (show Step _ _ (.answer 0 (.publish [⟨"check", "null", 1⟩]) (.ok ())) _
      from .answer rfl (.publish _ _))
    |>.tail (show Step _ _ (.answer 0 (.reconcile (.dispatched _)) (.ok ())) _
      from .answer rfl (.reconcile rfl))
    |>.tail (show Step _ _ (.answer 0 (.report _) ()) _ from .answer rfl (.report _ _))
    |>.tail (show Step _ _ (.answer 0 (.report _) ()) _ from .answer rfl (.report _ _))
    |>.tail (show Step _ _ (.finish 0 _) _ from .finish rfl)
  have fresh : resting.Fresh := ⟨⟨rfl, fun _ => rfl⟩, fun _ => rfl⟩
  refine ⟨_, _, counters_tally fresh run (by simp) fun w => ?_, by decide, by decide⟩
  obtain _ | _ | w := w <;> rfl

/-- The lease of an event runs out while its relay is about to push it. Another relay claims and
dispatches it. Then the push of the first relay is refused at its last attempt: it counts a dead
event, though no event is dead. -/
theorem dead_event_counted : ∃ trace s,
    Run (Step fun _ => patient 1) resting trace s ∧ resting.Fresh ∧
    (∀ t ∈ trace, ∀ w, t.move ≠ .crash w) ∧ (∀ w, s.talks w = none) ∧
    [Fate.dispatched, .retried, .dead].map (reported · trace) = [1, 0, 1] ∧
    [Fate.dispatched, .retried, .dead].map (movedIn · trace) = [1, 0, 0] ∧
    s.table.rows.map (fun r => r.status) = ["dispatched"] := by
  let dispatched := Fleet.lone .dispatched 2 0 none none 31000000000
  let skipped : Report := .line .warn "Event already finished by another relay" [("id", .number 1)]
  -- the event is finished by then, so the write-back only says that it comes too late
  have ignored : Sql.reconcile (.failed [.dead 1 1] "Broker unavailable: down")
      (.ofNanos 31000000000) (Fleet.serving dispatched 31000000000 Fleet.heldTwice []).session =
      (.ok (), (Fleet.serving dispatched 31000000000 Fleet.heldTwice [skipped]).session) := rfl
  have run := (Run.refl : Run (Step fun _ => patient 1) resting [] _)
    |>.tail (show Step _ _ (.enqueue ⟨"check", .null, .ofNanos 0⟩ (.ok 1)) _ from .enqueue rfl)
    |>.tail (show Step _ _ (.begin 0) _ from .begin rfl)
    |>.tail (show Step _ _ (.answer 0 (.claim ..) (.ok [Fleet.loneClaim 1])) _
      from .answer rfl (.claim rfl))
    |>.tail (show Step _ _ (.answer 0 (.report _) ()) _ from .answer rfl (.report _ _))
    |>.tail (show Step _ _ (.advance 31000000000) _ from .advance)
    |>.tail (show Step _ _ (.begin 1) _ from .begin rfl)
    |>.tail (show Step _ _ (.answer 1 (.claim ..) (.ok [Fleet.loneClaim 2])) _
      from .answer rfl (.claim rfl))
    |>.tail (show Step _ _ (.answer 1 (.report _) ()) _ from .answer rfl (.report _ _))
    |>.tail (show Step _ _ (.answer 1 (.publish [⟨"check", "null", 1⟩]) (.ok ())) _
      from .answer rfl (.publish _ _))
    |>.tail (show Step _ _ (.answer 1 (.reconcile (.dispatched [Fleet.loneClaim 2])) (.ok ()))
        ⟨⟨(Fleet.serving dispatched 31000000000 Fleet.heldTwice []).session, 31000000000,
          Fleet.heldTwice, [[⟨"check", "null", 1⟩]]⟩, _⟩ from .answer rfl (.reconcile rfl))
    |>.tail (show Step _ _ (.answer 1 (.report _) ()) _ from .answer rfl (.report _ _))
    |>.tail (show Step _ _ (.answer 1 (.report _) ()) _ from .answer rfl (.report _ _))
    |>.tail (show Step _ _ (.finish 1 _) _ from .finish rfl)
    |>.tail (show Step _ _ (.answer 0 (.publish [⟨"check", "null", 1⟩])
        (.error (.unavailable "down"))) _ from .answer rfl (.publish _ _))
    |>.tail (show Step _ _ (.answer 0 .now (.ofNanos 31000000000)) _ from .answer rfl .now)
    |>.tail (show Step _ _ (.answer 0 (.report _) ()) _ from .answer rfl (.report _ _))
    |>.tail (show Step _ _ (.answer 0 (.report _) ()) _ from .answer rfl (.report _ _))
    |>.tail (show Step _ _ (.answer 0 (.reconcile (.failed [.dead 1 1]
        "Broker unavailable: down")) (.ok ()))
        ⟨⟨(Fleet.serving dispatched 31000000000 Fleet.heldTwice [skipped]).session, 31000000000,
          Fleet.heldTwice, [[⟨"check", "null", 1⟩]]⟩, _⟩ from .answer rfl (.reconcile ignored))
    |>.tail (show Step _ _ (.answer 0 (.report _) ()) _ from .answer rfl (.report _ _))
    |>.tail (show Step _ _ (.answer 0 (.report _) ()) _ from .answer rfl (.report _ _))
    |>.tail (show Step _ _ (.finish 0 _) _ from .finish rfl)
  refine ⟨_, _, run, ⟨⟨rfl, fun _ => rfl⟩, fun _ => rfl⟩, by simp, fun w => ?_, by decide,
    by decide, by decide⟩
  obtain _ | _ | w := w <;> rfl

end Rounds

end Courier.Relay
