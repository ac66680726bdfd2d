import Courier.Proofs.Relay.Fleet

/-! # Counting claims

The attempts of a row count the claims that gave it out, so the id and the attempts of a claimed
event, its token, name one claim for good. What a relay remembers are batches that it was given.
-/

namespace Courier.Relay.Fleet

open Courier.Outbox Courier.Storage

abbrev Trace := List (Transition Fleet Move)

def claimsOf (trace : Trace) (id : Int) : Nat := trace.countP fun t => t.move.gives id

def givenIn (trace : Trace) : List Claim := trace.flatMap fun t => t.move.given

@[simp] theorem claimsOf_append (xs ys : Trace) (id : Int) :
    claimsOf (xs ++ ys) id = claimsOf xs id + claimsOf ys id := List.countP_append

theorem claimsOf_cons (t : Transition Fleet Move) (xs : Trace) (id : Int) :
    claimsOf (t :: xs) id = claimsOf xs id + if t.move.gives id then 1 else 0 := List.countP_cons

@[simp] theorem claimsOf_nil (id : Int) : claimsOf [] id = 0 := rfl

theorem claimsOf_eq_zero {trace : Trace} {id : Int} :
    claimsOf trace id = 0 ↔ ∀ t ∈ trace, t.move.gives id = false := by
  simp [claimsOf, List.countP_eq_zero]

@[simp] theorem givenIn_append (xs ys : Trace) : givenIn (xs ++ ys) = givenIn xs ++ givenIn ys :=
  List.flatMap_append

variable {s s' s₀ : Fleet} {m : Move} {trace : Trace}

/-! ## What one claim gives out -/

namespace Step

theorem exists_due (h : Step s m s') {c : Claim} (hc : c ∈ m.given) :
    ∃ r ∈ s.table.rows, r.Due s.now ∧ r.Claimable ∧ c = r.claim := by
  cases m with
  | claim relay limit lease answer =>
      cases answer with
      | error e => simp [Move.given] at hc
      | ok claims =>
          rw [Move.given, h.given_eq] at hc
          obtain ⟨r, hr, rfl⟩ := List.mem_map.1 hc
          obtain ⟨mem, due⟩ := Outbox.Table.mem_of_mem_due hr
          exact ⟨r, mem, due, h.claimable r hr, rfl⟩
  | _ => simp [Move.given] at hc

theorem given_ids_nodup (h : Step s m s') (hs : s.table.Ordered) :
    (m.given.map (·.id)).Nodup := by
  cases m with
  | claim relay limit lease answer =>
      cases answer with
      | error e => exact List.nodup_nil
      | ok claims =>
          have hsub := (Outbox.Table.due_sublist s.table limit s.now).map (·.id)
          rw [Move.given, h.given_eq, Outbox.Table.given, List.map_map]
          exact hs.ids_nodup.sublist hsub
  | _ => exact List.nodup_nil

/-- The row of an id is the row of that id before, rewritten by the move. -/
theorem find?_eq (h : Step s m s') (hs : s.table.Ordered) {id : Int} {r : Row}
    (hr : s.table.find? id = some r) : s'.table.find? id = some (m.rewrite s.clock r) := by
  rcases h.table_cases with ht | ⟨e, n, rfl, ht⟩
  · rw [ht, Outbox.Table.find?_map fun _ => Move.rewrite_id, hr]
    rfl
  · have hs' := h.ordered hs
    obtain ⟨mem, hid⟩ := hs.find?_eq_some_iff.1 hr
    refine hs'.find?_eq_some_iff.2 ⟨?_, hid⟩
    rw [ht]
    exact List.mem_append_left _ mem

end Step

/-! ## Counting claims -/

/-- Rows count their claims, claims name rows, relays remember what they were given, a row that was
ever claimed can be read, and the status of every row is one of the four. -/
structure Counted (trace : Trace) (s : Fleet) : Prop where
  ordered : s.table.Ordered
  attempts : ∀ r ∈ s.table.rows, r.attempts = claimsOf trace r.id
  known : ∀ c ∈ givenIn trace, ∃ r ∈ s.table.rows, r.id = c.id ∧ c.attempts ≤ r.attempts
  tokens : ((givenIn trace).map Claim.token).Nodup
  memory : ∀ relay, ∀ batch ∈ s.memory relay, ∃ t ∈ trace, ∃ limit lease,
    t.move = .claim relay limit lease (.ok batch)
  once : ∀ t ∈ trace, (t.move.given.map (·.id)).Nodup
  sound : ∀ r ∈ s.table.rows, r.attempts ≠ 0 → r.Sound
  status : ∀ r ∈ s.table.rows, r.Known

namespace Counted

theorem start (fresh : s₀.Fresh) : Counted [] s₀ where
  ordered := by
    rw [fresh.table]
    exact .empty
  attempts := by simp [fresh.table, Outbox.Table.empty]
  known := by simp [givenIn]
  tokens := List.nodup_nil
  memory := by simp [fresh.memory]
  once := by simp
  sound := by simp [fresh.table, Outbox.Table.empty]
  status := by simp [fresh.table, Outbox.Table.empty]

theorem claimsOf_new (h : Counted trace s) : claimsOf trace (s.table.lastId + 1) = 0 := by
  rw [claimsOf_eq_zero]
  intro t ht
  refine Bool.eq_false_iff.2 fun hgives => ?_
  obtain ⟨c, hc, hid⟩ := Outbox.Table.gives_iff.1 hgives
  obtain ⟨r, hr, hrid, _⟩ := h.known c (List.mem_flatMap.2 ⟨t, ht, hc⟩)
  have := h.ordered.bounded r hr
  omega

theorem attempts_step (h : Counted trace s) (step : Step s m s') :
    ∀ r ∈ s'.table.rows, r.attempts = claimsOf (trace ++ [⟨s, m, s'⟩]) r.id := by
  intro r' hr'
  rw [claimsOf_append, claimsOf_cons, claimsOf_nil, Nat.zero_add]
  rcases step.row_before hr' with ⟨r, hr, rewrites⟩ | ⟨e, n, rfl, rfl⟩
  · rw [rewrites.attempts_eq, rewrites.id_eq, h.attempts r hr]
    split <;> simp
  · have hnew := h.claimsOf_new
    simp [Outbox.Table.newRow, hnew, Move.gives, Move.given, Outbox.Table.gives]

theorem known_step (h : Counted trace s) (step : Step s m s') :
    ∀ c ∈ givenIn (trace ++ [⟨s, m, s'⟩]),
      ∃ r ∈ s'.table.rows, r.id = c.id ∧ c.attempts ≤ r.attempts := by
  intro c hc
  rw [givenIn_append, List.mem_append] at hc
  rcases hc with hc | hc
  · obtain ⟨r, hr, hid, hle⟩ := h.known c hc
    obtain ⟨r', hr', rewrites⟩ := step.row_after hr
    refine ⟨r', hr', rewrites.id_eq.trans hid, ?_⟩
    rw [rewrites.attempts_eq]
    split <;> omega
  · have hc : c ∈ m.given := by simpa [givenIn] using hc
    obtain ⟨r, hr, _, _, rfl⟩ := step.exists_due hc
    obtain ⟨r', hr', rewrites⟩ := step.row_after hr
    have hgives : m.gives r.id = true := Outbox.Table.gives_iff.2 ⟨r.claim, hc, rfl⟩
    refine ⟨r', hr', rewrites.id_eq, ?_⟩
    rw [rewrites.attempts_eq, if_pos hgives]
    exact Int.le_refl _

/-- The tokens of a claim are new: it counts each row one further than any claim before. -/
theorem tokens_step (h : Counted trace s) (step : Step s m s') :
    ((givenIn (trace ++ [⟨s, m, s'⟩])).map Claim.token).Nodup := by
  have hlast : givenIn [⟨s, m, s'⟩] = m.given := by simp [givenIn]
  rw [givenIn_append, hlast, List.map_append]
  refine List.nodup_append.2 ⟨h.tokens, ?_, ?_⟩
  · have hids := step.given_ids_nodup h.ordered
    refine List.Nodup.of_map Prod.fst ?_
    simpa [List.map_map, Function.comp_def, Claim.token] using hids
  · intro p hp q hq heq
    obtain ⟨c, hc, rfl⟩ := List.mem_map.1 hp
    obtain ⟨d, hd, rfl⟩ := List.mem_map.1 hq
    obtain ⟨hid, hattempts⟩ := Prod.mk.inj heq
    obtain ⟨r, hr, hrid, hle⟩ := h.known c hc
    obtain ⟨r', hr', _, _, rfl⟩ := step.exists_due hd
    have hsame := h.ordered.eq_of_id_eq hr hr' (hrid.trans hid)
    subst hsame
    have hnext : c.attempts = r.attempts + 1 := hattempts
    omega

theorem memory_step (h : Counted trace s) (step : Step s m s') :
    ∀ relay, ∀ batch ∈ s'.memory relay, ∃ t ∈ trace ++ [⟨s, m, s'⟩], ∃ limit lease,
      t.move = .claim relay limit lease (.ok batch) := by
  have old : ∀ relay, ∀ batch ∈ s.memory relay, ∃ t ∈ trace ++ [⟨s, m, s'⟩], ∃ limit lease,
      t.move = .claim relay limit lease (.ok batch) := by
    intro relay batch held
    obtain ⟨t, ht, claimed⟩ := h.memory relay batch held
    exact ⟨t, List.mem_append_left _ ht, claimed⟩
  intro relay batch held
  cases step with
  | @claim relay' limit lease answer session done =>
      cases answer with
      | error e => exact old relay batch held
      | ok claims =>
          by_cases same : relay = relay'
          · subst same
            simp only [remember, Function.update_self, List.mem_cons] at held
            rcases held with rfl | held
            · exact ⟨_, List.mem_append_right _ List.mem_cons_self, limit, lease, rfl⟩
            · exact old relay batch held
          · simp only [remember, Function.update_of_ne same] at held
            exact old relay batch held
  | @crash relay' =>
      by_cases same : relay = relay'
      · subst same
        simp at held
      · simp only [Function.update_of_ne same] at held
        exact old relay batch held
  | _ => exact old relay batch held

theorem sound_step (h : Counted trace s) (step : Step s m s') :
    ∀ r ∈ s'.table.rows, r.attempts ≠ 0 → r.Sound := by
  intro r' hr' counts
  rcases step.row_before hr' with ⟨r, hr, rewrites⟩ | ⟨e, n, _, rfl⟩
  · cases rewrites with
    | claimed given =>
        obtain ⟨c, hc, hid⟩ := Outbox.Table.gives_iff.1 given
        obtain ⟨a, ha, _, claimable, rfl⟩ := step.exists_due hc
        cases h.ordered.eq_of_id_eq ha hr hid
        exact claimable.claimed_sound
    | written _ writes =>
        rw [writes.attempts_eq] at counts
        exact writes.sound_iff.2 (h.sound r hr counts)
    | kept => exact h.sound r' hr counts
  · exact absurd rfl counts

theorem step (h : Counted trace s) (step : Step s m s') :
    Counted (trace ++ [⟨s, m, s'⟩]) s' where
  ordered := step.ordered h.ordered
  attempts := h.attempts_step step
  known := h.known_step step
  tokens := h.tokens_step step
  memory := h.memory_step step
  once := by
    intro t ht
    rcases List.mem_append.1 ht with ht | ht
    · exact h.once t ht
    · rw [List.mem_singleton.1 ht]
      exact step.given_ids_nodup h.ordered
  sound := h.sound_step step
  status := by
    intro r' hr'
    rcases step.row_before hr' with ⟨r, hr, rewrites⟩ | ⟨e, n, _, rfl⟩
    · exact rewrites.known (h.status r hr)
    · exact ⟨.pending, rfl⟩

end Counted

/-- What a relay remembers was given out. -/
theorem Counted.mem_givenIn (h : Counted trace s) {relay : Nat} {batch : List Claim}
    (held : batch ∈ s.memory relay) {c : Claim} (hc : c ∈ batch) : c ∈ givenIn trace := by
  obtain ⟨t, ht, limit, lease, granted⟩ := h.memory relay batch held
  exact List.mem_flatMap.2 ⟨t, ht, by rwa [granted]⟩

/-- The row of an event that was given out can be read. -/
theorem Counted.legible (h : Counted trace s) {c : Claim} (hc : c ∈ givenIn trace) {r : Row}
    (hr : r ∈ s.table.rows) (own : r.id = c.id) : r.Legible := by
  refine ⟨h.sound r hr fun none => ?_, (h.status r hr).event?⟩
  rw [h.attempts r hr, own] at none
  obtain ⟨t, ht, given⟩ := List.mem_flatMap.1 hc
  have ungiven := claimsOf_eq_zero.1 (Int.ofNat_eq_zero.1 none) t ht
  exact absurd (Outbox.Table.gives_iff.2 ⟨c, given, rfl⟩) (Bool.eq_false_iff.1 ungiven)

/-- A row that is live under a claim was live under it since the claim. -/
theorem Counted.live_before (h : Counted trace s) (step : Step s m s') {c : Claim}
    (hc : c ∈ givenIn trace) {r : Row} (hr : r ∈ s'.table.rows) (live : r.Live c.id c.attempts) :
    r ∈ s.table.rows := by
  rcases step.row_before hr with ⟨r', hr', rewrites⟩ | ⟨e, n, _, rfl⟩
  · cases rewrites with
    | claimed =>
        -- a claim counts one further than every claim before
        obtain ⟨a, ha, hid, hle⟩ := h.known c hc
        have hnow := live.2.2
        rw [h.ordered.eq_of_id_eq ha hr' (hid.trans live.1.symm)] at hle
        rw [Row.claimed_attempts] at hnow
        omega
    | written _ writes => exact absurd live.2.1 writes.idle
    | kept => exact hr'
  · exact absurd live.2.1 (by simp [Outbox.Table.newRow, Status.text])

theorem counted (fresh : s₀.Fresh) (run : Run Step s₀ trace s) : Counted trace s := by
  induction run with
  | refl => exact Counted.start fresh
  | tail _ last ih => exact ih.step last

end Courier.Relay.Fleet
