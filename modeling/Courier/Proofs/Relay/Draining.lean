import Courier.Proofs.Relay.Standstill
import Courier.Proofs.Run
import Courier.Relay.Loop

/-! # Draining the outbox

A relay that does round after round at one moment goes through the rows that are due at that moment
once, in order, batch by batch. After a full batch it polls again at once. Since no row comes back,
it does so only as often as there are full batches, and then comes to rest.
-/

namespace Courier.Relay.Standstill

open Courier.Outbox Courier.Storage Courier.Stream

variable {cfg : Config} {now : Instant} {s s' : Standstill} {r : Except WorkerError Summary}
  {t : Outbox.Table}

/-! ## Full rounds -/

/-- The relay polls again at once after a round, and does not wait for its ticker. -/
def PollsAgain (cfg : Config) (r : Except WorkerError Summary) : Prop :=
  ∀ t : Ticker, afterRound cfg t r = do return t.immediately (← LoopCall.ask .elapsed)

theorem pollsAgain_iff :
    PollsAgain cfg r ↔ ∃ summary, r = .ok summary ∧ cfg.batchSize ≤ summary.claimed := by
  constructor
  · intro h
    have first := h (.start .zero)
    cases r with
    | error e => cases first
    | ok summary =>
        refine ⟨summary, rfl, ?_⟩
        by_contra less
        cases (if_neg less).symm.trans first
  · rintro ⟨summary, rfl, full⟩ t
    exact if_pos full

/-- The rows that are due, `size` at a time. -/
def chunk (t : Outbox.Table) (now : Instant) (size i : Nat) : List Row :=
  ((t.dueRows now).drop (i * size)).take size

theorem flatten_chunks (t : Outbox.Table) (now : Instant) (size m : Nat) :
    ((List.range m).map (chunk t now size)).flatten = (t.dueRows now).take (m * size) := by
  induction m with
  | zero => simp
  | succ m ih =>
      rw [List.range_succ, List.map_append, List.flatten_append, ih, Nat.succ_mul, List.take_add]
      simp [chunk]

theorem length_chunk (t : Outbox.Table) (now : Instant) (size i : Nat) :
    (chunk t now size i).length = min size ((t.dueRows now).length - i * size) := by
  simp [chunk]

theorem flatten_pushesOf (claims : List (List Claim)) :
    (pushesOf claims).flatten = claims.flatten.map messageOf := by
  induction claims with
  | nil => rfl
  | cons batch claims ih =>
      unfold pushesOf at ih ⊢
      cases batch with
      | nil => simpa using ih
      | cons c cs => simpa using ih

theorem pushesOf_append (claims claims' : List (List Claim)) :
    pushesOf (claims ++ claims') = pushesOf claims ++ pushesOf claims' := by
  simp [pushesOf]

/-! ## Runs of rounds -/

abbrev Trace := List (Transition Standstill (Except WorkerError Summary))

/-- Every round did what it set out to do. -/
def AllOk (rounds : Trace) : Prop := ∀ u ∈ rounds, ∃ summary, u.move = .ok summary

/-- How far some rounds have come that began with the table `t`. -/
structure Progress (cfg : Config) (now : Instant) (t : Outbox.Table) (rounds : Trace)
    (s : Standstill) : Prop where
  ordered : s.table.Ordered
  chunks : s.claims = (List.range s.claims.length).map fun i =>
    (chunk t now cfg.batchSize i).map Row.claim
  left : s.table.dueRows now = (t.dueRows now).drop (s.claims.length * cfg.batchSize)
  pushes : s.pushes = pushesOf s.claims
  counts : AllOk rounds → s.claims.length = rounds.length ∧
    ∀ i u summary, rounds[i]? = some u → u.move = .ok summary →
      summary.claimed = (chunk t now cfg.batchSize i).length

namespace Progress

variable {s₀ : Standstill} {rounds : Trace}

theorem within (h : Progress cfg now t rounds s) : ∀ r ∈ s.table.dueRows now, r ∈ t.dueRows now := by
  intro r hr
  rw [h.left] at hr
  exact List.mem_of_mem_drop hr

/-- The next rows that are due make the next chunk. -/
theorem given_eq (h : Progress cfg now t rounds s) : s.table.given cfg.batchSize now =
    (chunk t now cfg.batchSize s.claims.length).map Row.claim := by
  rw [Table.given_eq, h.left]
  rfl

theorem step (h : Progress cfg now t rounds s) (bounds : InBounds cfg now t)
    (step : Step cfg now s r s') : Progress cfg now t (rounds ++ [⟨s, r, s'⟩]) s' := by
  rcases step.goes bounds h.ordered h.within with worked | unanswered
  · have more : s'.claims.length = s.claims.length + 1 := by simp [worked.claims]
    refine ⟨worked.ordered, ?_, ?_, ?_, ?_⟩
    · rw [more, List.range_succ, List.map_append, ← h.chunks, worked.claims, h.given_eq]
      rfl
    · rw [worked.due, h.left, List.drop_drop, more, Nat.succ_mul]
    · rw [worked.pushes, worked.claims, h.pushes, pushesOf_append]
    · intro ok
      obtain ⟨same, counts⟩ := h.counts fun u hu => ok u (List.mem_append_left _ hu)
      refine ⟨by simp [more, same], ?_⟩
      intro i u summary at_i done
      by_cases hi : i < rounds.length
      · rw [List.getElem?_append_left hi] at at_i
        exact counts i u summary at_i done
      · have last : i = rounds.length := by
          have := (List.getElem?_eq_some_iff.1 at_i).1
          simp only [List.length_append, List.length_singleton] at this
          omega
        subst last
        rw [List.getElem?_concat_length] at at_i
        cases at_i
        rw [worked.counts summary done, h.given_eq, List.length_map, same]
  · obtain ⟨e, failed⟩ := unanswered.failed
    have table : s'.table = s.table := congrArg Tables.outbox unanswered.tables
    refine ⟨table ▸ h.ordered, ?_, ?_, ?_, ?_⟩
    · rw [unanswered.claims]
      exact h.chunks
    · rw [table, unanswered.claims]
      exact h.left
    · rw [unanswered.pushes, unanswered.claims]
      exact h.pushes
    · intro ok
      obtain ⟨summary, done⟩ := ok _ (List.mem_append_right _ List.mem_cons_self)
      cases failed.symm.trans done

theorem start (ordered : s₀.table.Ordered) (claims : s₀.claims = []) (pushes : s₀.pushes = []) :
    Progress cfg now s₀.table [] s₀ := by
  refine ⟨ordered, ?_, ?_, ?_, ?_⟩
  · simp [claims]
  · simp [claims]
  · simp [claims, pushes, pushesOf]
  · simp [claims]

theorem claims_flatten (h : Progress cfg now t rounds s) : s.claims.flatten =
    ((t.dueRows now).take (s.claims.length * cfg.batchSize)).map Row.claim := by
  conv_lhs => rw [h.chunks]
  rw [← flatten_chunks, List.map_flatten, List.map_map]
  rfl

/-- What was claimed is not due again: what is due now comes after it. -/
theorem undue (h : Progress cfg now t rounds s) (ordered : t.Ordered) {c : Claim}
    (hc : c ∈ s.claims.flatten) {q : Row} (hq : q ∈ s.table.rows) (hid : q.id = c.id) :
    ¬ q.Due now := by
  intro due
  have late : q ∈ (t.dueRows now).drop (s.claims.length * cfg.batchSize) := by
    rw [← h.left]
    exact Table.mem_dueRows.2 ⟨hq, due⟩
  rw [h.claims_flatten] at hc
  obtain ⟨early, hearly, rfl⟩ := List.mem_map.1 hc
  have ascending : (t.dueRows now).Pairwise fun a b => a.id < b.id := ordered.dueRows_ascending
  rw [← List.take_append_drop (s.claims.length * cfg.batchSize) (t.dueRows now)] at ascending
  have smaller := (List.pairwise_append.1 ascending).2.2 early hearly q late
  exact Int.ne_of_lt smaller hid.symm

theorem ascending (h : Progress cfg now t rounds s) (ordered : t.Ordered) :
    s.claims.flatten.Pairwise fun c d => c.id < d.id := by
  rw [h.claims_flatten]
  exact List.pairwise_map.2 (ordered.dueRows_ascending.sublist (List.take_sublist _ _))

/-- A round is full exactly if a whole batch was still due. -/
theorem full_iff (h : Progress cfg now t rounds s) (positive : 1 ≤ cfg.batchSize)
    (ok : AllOk rounds) {i : Nat} {u : Transition Standstill (Except WorkerError Summary)}
    (at_i : rounds[i]? = some u) :
    PollsAgain cfg u.move ↔ i < (t.dueRows now).length / cfg.batchSize := by
  obtain ⟨summary, done⟩ := ok u (List.mem_of_getElem? at_i)
  have counted := (h.counts ok).2 i u summary at_i done
  rw [length_chunk] at counted
  rw [pollsAgain_iff, done]
  have whole : i < (t.dueRows now).length / cfg.batchSize ↔
      (i + 1) * cfg.batchSize ≤ (t.dueRows now).length := Nat.le_div_iff_mul_le positive
  rw [whole, Nat.succ_mul]
  constructor
  · rintro ⟨_, ⟨⟩, full⟩
    omega
  · intro enough
    exact ⟨summary, rfl, by omega⟩

/-- After as many rounds as there are full ones, and one more, nothing is left. -/
theorem complete (h : Progress cfg now t rounds s) (positive : 1 ≤ cfg.batchSize)
    (ok : AllOk rounds) (enough : (t.dueRows now).length / cfg.batchSize < rounds.length) :
    s.claims.flatten = (t.dueRows now).map Row.claim ∧ s.table.dueRows now = [] := by
  have all : (t.dueRows now).length ≤ s.claims.length * cfg.batchSize := by
    rw [(h.counts ok).1]
    exact Nat.le_of_lt ((Nat.div_lt_iff_lt_mul positive).1 enough)
  rw [h.claims_flatten, h.left, List.take_of_length_le all, List.drop_of_length_le all]
  exact ⟨rfl, rfl⟩

end Progress

/-! ## What rounds make of what is due -/

/-- What rounds make of the rows that were due when they began.

* `returns`: however the rounds before it went, the next round returns, unless its claim cannot count
  the next attempt of an event.
* `chunks`, `ascending`: the rounds that claim take the due rows chunk by chunk, in order, and none
  twice.
* `each`: if all rounds do what they set out to do, each of them takes its chunk.
* `undue`: whatever became of its round, no row that was claimed is due any more.
* `pushes`: every batch is pushed once and whole.
* `full`: the relay then polls again at once after just as many rounds as there are whole batches.
* `complete`, `once`: and the round after these leaves nothing due, and every row was pushed once.
* `answered`: on a server that is up all rounds do, if what is due can be claimed. -/
structure Drains (cfg : Config) (now : Instant) (s₀ : Standstill) (rounds : Trace) (s : Standstill) :
    Prop where
  returns : ¬ Full cfg.batchSize now s → ∃ r s', Step cfg now s r s'
  chunks : s.claims = (List.range s.claims.length).map fun i =>
    (chunk s₀.table now cfg.batchSize i).map Row.claim
  ascending : s.claims.flatten.Pairwise fun c d => c.id < d.id
  each : AllOk rounds → s.claims.length = rounds.length
  undue : ∀ batch ∈ s.claims, ∀ c ∈ batch, ∀ q ∈ s.table.rows, q.id = c.id → ¬ q.Due now
  pushes : s.pushes = pushesOf s.claims
  full : AllOk rounds → ∀ i u, rounds[i]? = some u →
    (PollsAgain cfg u.move ↔ i < (s₀.table.dueRows now).length / cfg.batchSize)
  complete : AllOk rounds → (s₀.table.dueRows now).length / cfg.batchSize < rounds.length →
    s.pushes.flatten = (s₀.table.dueRows now).map (fun q => messageOf q.claim) ∧
      s.table.dueRows now = []
  once : AllOk rounds → (s₀.table.dueRows now).length / cfg.batchSize < rounds.length →
    ∀ q ∈ s₀.table.dueRows now, s.pushes.flatten.countP (fun m => m.outboxId == q.id) = 1
  answered : Sql.Up s₀.session → (∀ q ∈ s₀.table.dueRows now, q.Claimable) → AllOk rounds

variable {s₀ : Standstill} {rounds : Trace}

theorem progress_of_run (bounds : InBounds cfg now s₀.table) (ordered : s₀.table.Ordered)
    (claims : s₀.claims = []) (pushes : s₀.pushes = []) (run : Run (Step cfg now) s₀ rounds s) :
    Progress cfg now s₀.table rounds s := by
  induction run with
  | refl => exact .start ordered claims pushes
  | tail _ last ih => exact ih.step bounds last

theorem up_of_run (bounds : InBounds cfg now s₀.table) (ordered : s₀.table.Ordered)
    (claims : s₀.claims = []) (pushes : s₀.pushes = []) (up : Sql.Up s₀.session)
    (claimable : ∀ q ∈ s₀.table.dueRows now, q.Claimable)
    (run : Run (Step cfg now) s₀ rounds s) : Sql.Up s.session ∧ AllOk rounds := by
  induction run with
  | refl => exact ⟨up, nofun⟩
  | tail run last ih =>
      obtain ⟨up, ok⟩ := ih
      have progress := progress_of_run bounds ordered claims pushes run
      rcases last.goes bounds progress.ordered progress.within with worked | unanswered
      · obtain ⟨up', done⟩ := worked.up up
        refine ⟨up', ?_⟩
        intro u hu
        rcases List.mem_append.1 hu with before | now
        · exact ok u before
        · cases List.mem_singleton.1 now
          exact done
      · obtain ⟨q, hq, unclaimable⟩ := unanswered.cause up
        have due := progress.within q (Table.mem_dueRows.2 (Table.mem_of_mem_due hq))
        exact absurd (claimable q due) unclaimable

/-- Rounds at one moment go through what is due at that moment, once and in order. -/
theorem rounds_drain (bounds : InBounds cfg now s₀.table) (ordered : s₀.table.Ordered)
    (claims : s₀.claims = []) (pushes : s₀.pushes = []) (run : Run (Step cfg now) s₀ rounds s) :
    Drains cfg now s₀ rounds s := by
  have progress := progress_of_run bounds ordered claims pushes run
  have complete (ok : AllOk rounds)
      (enough : (s₀.table.dueRows now).length / cfg.batchSize < rounds.length) :
      s.pushes.flatten = (s₀.table.dueRows now).map fun q => messageOf q.claim := by
    rw [progress.pushes, flatten_pushesOf, (progress.complete bounds.positive ok enough).1,
      List.map_map]
    rfl
  refine ⟨?_, progress.chunks, progress.ascending ordered, ?_, ?_, progress.pushes, ?_, ?_, ?_, ?_⟩
  · intro room
    rcases round_goes bounds progress.ordered progress.within with ⟨r, s', done, _⟩ | ⟨full, _⟩
    · exact ⟨r, s', done⟩
    · exact absurd full room
  · intro ok
    exact (progress.counts ok).1
  · intro batch hbatch c hc q hq hid
    exact progress.undue ordered (List.mem_flatten_of_mem hbatch hc) hq hid
  · intro ok i u at_i
    exact progress.full_iff bounds.positive ok at_i
  · intro ok enough
    exact ⟨complete ok enough, (progress.complete bounds.positive ok enough).2⟩
  · intro ok enough q hq
    have ids : ((s₀.table.dueRows now).map (·.id)).Nodup :=
      ordered.ids_nodup.sublist (List.filter_sublist.map _)
    have counted : ((s₀.table.dueRows now).map (·.id)).count q.id = 1 :=
      List.count_eq_one_of_mem ids (List.mem_map_of_mem hq)
    rw [complete ok enough, List.countP_map, ← counted, List.count, List.countP_map]
    rfl
  · intro up claimable
    exact (up_of_run bounds ordered claims pushes up claimable run).2

/-- Any number of rounds can be done where every event can be counted once more. -/
theorem exists_run (bounds : InBounds cfg now s₀.table) (ordered : s₀.table.Ordered)
    (claims : s₀.claims = []) (pushes : s₀.pushes = [])
    (room : ∀ q ∈ s₀.table.dueRows now, Text.InHalfWord (q.attempts + 1)) (n : Nat) :
    ∃ rounds s, Run (Step cfg now) s₀ rounds s ∧ rounds.length = n := by
  induction n with
  | zero => exact ⟨[], s₀, .refl, rfl⟩
  | succ n ih =>
      obtain ⟨rounds, s, run, length⟩ := ih
      have progress := progress_of_run bounds ordered claims pushes run
      rcases round_goes bounds progress.ordered progress.within with
        ⟨r, s', done, _⟩ | ⟨⟨q, hq, full⟩, _⟩
      · exact ⟨_, s', run.tail done, by simp [length]⟩
      · exact absurd (room q (progress.within q (Table.mem_dueRows.2 (Table.mem_of_mem_due hq)))) full

def single : Config := ⟨.withMaxAttempts 10, 1, .ofMillis 500, .ofSeconds 30⟩

def refusing : Standstill := ⟨Operation.mixed, [.error (.unavailable "refused")], [], []⟩

/-- Two rows are due, and the push of the first is refused: two rounds are full and the third is
not. -/
theorem rounds_drain_refused :
    ∃ rounds s, Drains single (.ofNanos 5) refusing rounds s ∧ rounds.length = 3 ∧
      AllOk rounds ∧ s.pushes.flatten.map Message.outboxId = [3, 4] := by
  have bounds : InBounds single (.ofNanos 5) refusing.table := by
    refine ⟨⟨10, rfl⟩, by decide, by decide, by decide, by decide, ⟨_, rfl⟩, ?_⟩
    have reached : ∀ r ∈ refusing.table.dueRows (.ofNanos 5),
        (single.policy.nextAttempt? (r.attempts + 1) (.ofNanos 5)).isSome := by decide +kernel
    exact fun r hr => Option.isSome_iff_exists.1 (reached r hr)
  have ordered : refusing.table.Ordered := ⟨by decide, by decide⟩
  have due : (refusing.table.dueRows (.ofNanos 5)).map (·.id) = [3, 4] := rfl
  have two : (refusing.table.dueRows (.ofNanos 5)).length = 2 := rfl
  have claimable : ∀ q ∈ refusing.table.dueRows (.ofNanos 5), q.Claimable := by decide +kernel
  obtain ⟨rounds, s, run, three⟩ :=
    exists_run bounds ordered rfl rfl (fun q hq => (claimable q hq).2) 3
  have drains := rounds_drain bounds ordered rfl rfl run
  have ok : AllOk rounds := drains.answered rfl claimable
  have enough : (refusing.table.dueRows (.ofNanos 5)).length / single.batchSize < rounds.length := by
    rw [two, three]
    decide
  refine ⟨rounds, s, drains, three, ok, ?_⟩
  rw [(drains.complete ok enough).1, List.map_map, ← due]
  rfl

end Courier.Relay.Standstill
