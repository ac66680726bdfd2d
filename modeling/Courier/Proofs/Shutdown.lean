import Courier.Shutdown

/-! # Every worker is accounted for

Workers are asked to leave at one moment, and leave or not while the others are waited for. So the
turn of a worker may come late, and then it has had more time; its own patience begins with its turn.
What was waited for before it can only give it time, whatever became of the workers before.

A worker that would leave just when its patience ends is aborted: the wait is over first.
-/

namespace Courier.Shutdown

/-! ## One wait -/

/-- Whoever leaves has done so before some moment. -/
def Departure.Before (d : Departure) (t : Span) : Prop := ∃ left exit, d = some (left, exit) ∧ left < t

/-- A wait ends with the worker, or with its patience if the worker is there till then. -/
theorem waitFor_cases (patience now : Span) (d : Departure) :
    (∃ t exit, d = some (t, exit) ∧ t < now + patience ∧
      waitFor patience now d = (.left exit, .max now t)) ∨
    (¬ d.Before (now + patience) ∧ waitFor patience now d = (.aborted, now + patience)) := by
  cases d with
  | none =>
      refine Or.inr ⟨?_, rfl⟩
      rintro ⟨_, _, never, _⟩
      cases never
  | some departure =>
      obtain ⟨t, exit⟩ := departure
      by_cases early : t < now + patience
      · exact Or.inl ⟨t, exit, rfl, early, if_pos early⟩
      · refine Or.inr ⟨?_, if_neg early⟩
        rintro ⟨_, _, same, left⟩
        cases same
        exact early left

theorem le_waitFor (patience now : Span) (d : Departure) : now ≤ (waitFor patience now d).2 := by
  rcases waitFor_cases patience now d with ⟨t, exit, _, _, wait⟩ | ⟨_, wait⟩
  · rw [wait, Span.le_iff, Span.max_nanos]
    exact Nat.le_max_left _ _
  · rw [wait, Span.le_iff, Span.add_nanos]
    omega

/-! ## Waits in a row -/

theorem waitForAll_append (patience now : Span) (ds es : List Departure) :
    waitForAll patience now (ds ++ es) =
      ((waitForAll patience now ds).1 ++ (waitForAll patience (waitForAll patience now ds).2 es).1,
        (waitForAll patience (waitForAll patience now ds).2 es).2) := by
  induction ds generalizing now with
  | nil => rfl
  | cons d ds ih => simp only [List.cons_append, waitForAll, ih]

theorem le_waitForAll (patience now : Span) (ds : List Departure) :
    now ≤ (waitForAll patience now ds).2 := by
  induction ds generalizing now with
  | nil => exact Nat.le_refl _
  | cons d ds ih => exact Nat.le_trans (le_waitFor patience now d) (ih (waitFor patience now d).2)

/-- Waits in a row do not outlast their patience together. -/
theorem waitForAll_le (patience now : Span) (ds : List Departure) :
    (waitForAll patience now ds).2.nanos ≤ now.nanos + ds.length * patience.nanos := by
  induction ds generalizing now with
  | nil => simp [waitForAll]
  | cons d ds ih =>
      have first := waitFor_le patience now d
      have rest := ih (waitFor patience now d).2
      rw [Span.le_iff, Span.add_nanos] at first
      rw [List.length_cons, Nat.succ_mul]
      simp only [waitForAll]
      omega

/-- The fate of each is told by the wait for it, which begins when those for all before it are over. -/
theorem fate_of_split (patience now : Span) (ds : List Departure) (d : Departure)
    (es : List Departure) : (waitForAll patience now (ds ++ d :: es)).1[ds.length]? =
      some (waitFor patience (waitForAll patience now ds).2 d).1 := by
  have length := waitForAll_length patience now ds
  have first (turn : Span) : (waitForAll patience turn (d :: es)).1 =
      (waitFor patience turn d).1 :: (waitForAll patience (waitFor patience turn d).2 es).1 := rfl
  rw [waitForAll_append, ← length, List.getElem?_append_right (Nat.le_refl _), Nat.sub_self, first,
    List.getElem?_cons_zero]

theorem end_of_split (patience now : Span) (ds : List Departure) (d : Departure)
    (es : List Departure) : (waitFor patience (waitForAll patience now ds).2 d).2 ≤
      (waitForAll patience now (ds ++ d :: es)).2 := by
  rw [waitForAll_append]
  exact le_waitForAll patience _ es

/-! ## The shutdown -/

def doneWith (patience now : Span) (ws : List Worker) : Span := (shutDown patience now ws).2

/-- What becomes of a worker whose turn comes at some moment, and of the whole shutdown.

* `reported`: one line says what became of it, in its place among the lines of the others.
* `aborted`: it is aborted exactly if it has not left before its patience ends, which begins when the
  waits for all before it are over.
* `left`: if not, it left by itself as it is said to have, before the shutdown was done.
* `spared`: it is not aborted if it leaves less than the patience after it was asked to. -/
structure Accounted (patience now : Span) (before : List Worker) (w : Worker)
    (after : List Worker) (fate : Fate) : Prop where
  reported : (shutDown patience now (before ++ w :: after)).1[before.length + 1]? =
    some (fate.report w.name)
  aborted : fate = .aborted ↔ ¬ (w.leaves now).Before (doneWith patience now before + patience)
  left : ∀ exit, fate = .left exit → ∃ t, w.leaves now = some (t, exit) ∧
    t ≤ doneWith patience now (before ++ w :: after)
  spared : ∀ t exit, w.leaves now = some (t, exit) → t < now + patience → fate = .left exit

theorem report_of_split (patience now : Span) (before : List Worker) (w : Worker)
    (after : List Worker) : (shutDown patience now (before ++ w :: after)).1[before.length + 1]? =
      some ((waitFor patience (doneWith patience now before) (w.leaves now)).1.report w.name) := by
  have fate := fate_of_split patience now (before.map (·.leaves now)) (w.leaves now)
    (after.map (·.leaves now))
  rw [List.length_map] at fate
  have worker : (before ++ w :: after)[before.length]? = some w := by simp
  have line : (List.zipWith (fun w f => Fate.report w.name f) (before ++ w :: after)
      (waitForAll patience now ((before ++ w :: after).map (·.leaves now))).1)[before.length]? =
      some ((waitFor patience (doneWith patience now before) (w.leaves now)).1.report w.name) := by
    rw [List.getElem?_zipWith, worker, List.map_append, List.map_cons, fate]
    rfl
  simp only [shutDown]
  rw [List.getElem?_cons_succ, List.getElem?_append_left, line]
  exact (List.getElem?_eq_some_iff.1 line).1

/-- What a shutdown comes to.

* `prompt`: it is done after at most the patience for each worker.
* `lines`: it says one thing about each, between its first and its last line.
* `each`: every worker is accounted for, whatever the others do. -/
structure AccountsForAll (patience now : Span) (ws : List Worker) : Prop where
  prompt : now ≤ doneWith patience now ws ∧
    (doneWith patience now ws).nanos ≤ now.nanos + ws.length * patience.nanos
  lines : (shutDown patience now ws).1.length = ws.length + 2
  each : ∀ before w after, ws = before ++ w :: after →
    ∃ fate, Accounted patience now before w after fate

theorem accounted (patience now : Span) (before : List Worker) (w : Worker) (after : List Worker) :
    ∃ fate, Accounted patience now before w after fate := by
  have told := report_of_split patience now before w after
  have later : now ≤ doneWith patience now before := le_waitForAll ..
  have ending : (waitFor patience (doneWith patience now before) (w.leaves now)).2 ≤
      doneWith patience now (before ++ w :: after) := by
    simp only [doneWith, shutDown, List.map_append, List.map_cons]
    exact end_of_split ..
  rcases waitFor_cases patience (doneWith patience now before) (w.leaves now) with
    ⟨t, exit, leaves, early, wait⟩ | ⟨there, wait⟩
  · rw [wait] at told ending
    refine ⟨.left exit, ?_⟩
    constructor
    case reported => exact told
    case aborted =>
      constructor
      · intro other
        cases other
      · intro there
        exact absurd ⟨t, exit, leaves, early⟩ there
    case left =>
      rintro _ ⟨⟩
      refine ⟨t, leaves, ?_⟩
      rw [Span.le_iff, Span.max_nanos] at ending
      exact Nat.le_trans (Nat.le_max_right _ _) ending
    case spared =>
      intro t' exit' leaves' _
      cases leaves.symm.trans leaves'
      rfl
  · rw [wait] at told
    refine ⟨.aborted, ?_⟩
    constructor
    case reported => exact told
    case aborted => exact ⟨fun _ => there, fun _ => rfl⟩
    case left =>
      intro exit other
      cases other
    case spared =>
      intro t exit leaves early
      refine absurd ⟨t, exit, leaves, ?_⟩ there
      rw [Span.le_iff] at later
      rw [Span.lt_iff, Span.add_nanos] at *
      omega

/-- Of every shutdown, whatever its workers do. -/
theorem accounts_for_all (patience now : Span) (ws : List Worker) :
    AccountsForAll patience now ws where
  prompt := by
    have most := waitForAll_le patience now (ws.map (·.leaves now))
    rw [List.length_map] at most
    exact ⟨le_waitForAll .., most⟩
  lines := by
    simp only [shutDown, List.length_cons, List.length_append, List.length_zipWith, List.length_nil,
      waitForAll_length, List.length_map]
    omega
  each := by
    rintro before w after rfl
    exact accounted patience now before w after

def onTheDot : Worker := ⟨"a", fun asked => some (asked + .ofMillis 100, .stopped)⟩

/-- A worker that leaves a tenth of a second after it was asked to is aborted under a patience of a
tenth of a second. -/
theorem aborted_on_the_dot :
    onTheDot.leaves .zero = some (.zero + .ofMillis 100, .stopped) ∧
      shutDown (.ofMillis 100) .zero [onTheDot] =
        ([.line .info "Shutting down workers..." [], Fate.aborted.report "a",
          .line .info "Workers shut down successfully" []], .ofMillis 100) :=
  ⟨rfl, rfl⟩

end Courier.Shutdown
