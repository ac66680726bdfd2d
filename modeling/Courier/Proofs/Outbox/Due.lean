import Courier.Proofs.Outbox.Ordered

/-! # Rows that are due

A claim looks for rows twice: it selects the first rows that are due, and then it rewrites the rows
whose ids it selected. In a table in order these are the same rows, so what a claim gives out and
what it leaves in the table agree, also in the attempts that both count for themselves.
-/

namespace Courier.Outbox.Table

variable {t : Table} {r : Row} {limit : Nat} {now ending : Instant}

/-- The rows that may be claimed, in ascending order of ids. -/
def dueRows (t : Table) (now : Instant) : List Row := t.rows.filter fun r => decide (r.Due now)

theorem mem_dueRows : r ∈ t.dueRows now ↔ r ∈ t.rows ∧ r.Due now := by
  simp [dueRows]

theorem due_eq_take (t : Table) (limit : Nat) (now : Instant) :
    t.due limit now = (t.dueRows now).take limit := by
  have test (r : Row) : r.isDue now = decide (r.Due now) := by
    rw [Bool.eq_iff_iff, Row.isDue_iff, decide_eq_true_iff]
  simp only [due, dueRows, test]

theorem given_eq (t : Table) (limit : Nat) (now : Instant) :
    t.given limit now = ((t.dueRows now).take limit).map Row.claim := by
  rw [given, due_eq_take]

theorem Ordered.dueRows_ascending (h : t.Ordered) :
    (t.dueRows now).Pairwise fun a b => a.id < b.id := h.ascending.sublist List.filter_sublist

/-- A due row that a claim leaves out comes after every row that it takes. -/
theorem Ordered.lt_of_left_out (h : t.Ordered) (hr : r ∈ t.rows) (due : r.Due now)
    (out : r ∉ t.due limit now) {a : Row} (ha : a ∈ t.due limit now) : a.id < r.id := by
  rw [due_eq_take] at out ha
  have ascending : (t.dueRows now).Pairwise fun a b => a.id < b.id := h.dueRows_ascending
  rw [← List.take_append_drop limit (t.dueRows now)] at ascending
  have hdue : r ∈ (t.dueRows now).take limit ++ (t.dueRows now).drop limit := by
    rw [List.take_append_drop]
    exact mem_dueRows.2 ⟨hr, due⟩
  rcases List.mem_append.1 hdue with taken | late
  · exact absurd taken out
  · exact (List.pairwise_append.1 ascending).2.2 a ha r late

/-! ## What is due after a change -/

/-- Rewriting rows so that they are not due leaves due what was due among the others. -/
theorem dueRows_rewrite {p : Row → Bool} {f : Row → Row}
    (undue : ∀ r ∈ t.rows, p r = true → ¬ (f r).Due now) :
    dueRows { t with rows := t.rows.map fun r => if p r then f r else r } now =
      (t.dueRows now).filter fun r => !p r := by
  unfold dueRows
  dsimp only
  induction hrows : t.rows generalizing t with
  | nil => rfl
  | cons r rows ih =>
      rw [hrows] at undue
      have rest := ih (t := { t with rows }) (fun q hq => undue q (List.mem_cons_of_mem r hq)) rfl
      rw [List.map_cons, List.filter_cons, List.filter_cons, rest]
      by_cases hp : p r = true
      · have := undue r List.mem_cons_self hp
        by_cases due : r.Due now <;> simp [hp, this, due]
      · by_cases due : r.Due now <;> simp [hp, due]

theorem not_due_claimed (later : now < ending) : ¬ (r.claimed ending now).Due now := by
  intro due
  obtain ⟨time, held, lapsed⟩ := due.of_processing rfl
  cases held
  exact not_le.2 later lapsed

/-- A claim leaves due what it did not reach. -/
theorem Ordered.dueRows_claim (h : t.Ordered) (limit : Nat) (later : now < ending) :
    (t.claim limit ending now).1.dueRows now = (t.dueRows now).drop limit := by
  have once : ((t.dueRows now).take limit ++ (t.dueRows now).drop limit).Pairwise
      fun a b => a.id < b.id := by
    rw [List.take_append_drop]
    exact h.dueRows_ascending
  have taken : ∀ r ∈ (t.dueRows now).take limit, gives (t.given limit now) r.id = true := by
    intro r hr
    rw [given_eq]
    exact gives_iff.2 ⟨r.claim, List.mem_map_of_mem hr, rfl⟩
  have left : ∀ r ∈ (t.dueRows now).drop limit, ¬ gives (t.given limit now) r.id = true := by
    intro r hr given
    rw [given_eq] at given
    obtain ⟨c, hc, hid⟩ := gives_iff.1 given
    obtain ⟨a, ha, rfl⟩ := List.mem_map.1 hc
    have smaller := (List.pairwise_append.1 once).2.2 a ha r hr
    exact Int.ne_of_lt smaller hid
  rw [claim_eq, dueRows_rewrite fun r _ _ => not_due_claimed later]
  conv_lhs => rw [← List.take_append_drop limit (t.dueRows now)]
  rw [List.filter_append, List.filter_eq_nil_iff.2, List.nil_append, List.filter_eq_self.2]
  · intro r hr
    simpa using left r hr
  · intro r hr
    simpa using taken r hr

/-- Writing back what is not due leaves due what was due. -/
theorem dueRows_writeBack {o : Outcome} (postpones : o.Postpones now)
    (leased : ∀ r ∈ t.rows, r.Due now → ∀ p ∈ o.tokens, ¬ r.Live p.1 p.2) :
    dueRows { t with rows := t.rows.map (o.applyTo now) } now = t.dueRows now := by
  have touched : o.applyTo now = fun r => if liveIn o.tokens r then o.applyTo now r else r := by
    funext r
    rcases Outcome.applyTo_cases o now r with ⟨none, same⟩ | ⟨live, _⟩
    · rw [same, ite_self]
    · rw [if_pos (liveIn_iff.2 live)]
  rw [touched, dueRows_rewrite, List.filter_eq_self.2]
  · intro r hr
    obtain ⟨mem, due⟩ := mem_dueRows.1 hr
    by_contra held
    obtain ⟨p, hp, live⟩ := liveIn_iff.1 (by simpa using held)
    exact leased r mem due p hp live
  · intro r _ held
    rcases Outcome.applyTo_cases o now r with ⟨none, _⟩ | ⟨_, writes⟩
    · obtain ⟨p, hp, live⟩ := liveIn_iff.1 held
      exact absurd live (none p hp)
    · exact writes.not_due postpones

/-! ## What a claim does -/

/-- A claim of at most `limit` rows at a time, with leases up to `ending`, gives out the first rows
that are due and changes exactly these.

* `returned`: it gives out the id, the type, the payload and the next number of attempts of each.
* `count`, `ascending`, `first`: as many as there are within the limit, in ascending order of ids,
  and none with a higher id than one that is left out.
* `taken`: each of them is being processed from then on, with the attempts that were given out.
* `left`, `same`: all other rows are left alone, and there are no more rows and no fewer. -/
structure ClaimsFirst (t t' : Table) (limit : Nat) (now ending : Instant) (claims : List Claim) :
    Prop where
  returned : claims = ((t.dueRows now).take limit).map fun r =>
    ⟨r.id, r.eventType, r.payload.value, r.attempts + 1⟩
  count : claims.length = min limit (t.dueRows now).length
  ascending : claims.Pairwise fun c d => c.id < d.id
  first : ∀ r ∈ t.rows, r.Due now → (∀ c ∈ claims, c.id ≠ r.id) → ∀ c ∈ claims, c.id < r.id
  taken : ∀ c ∈ claims, ∃ r, t.find? c.id = some r ∧ r.Due now ∧
    t'.find? c.id = some { r with
      status := Status.processing.text
      attempts := c.attempts
      processingUntil := some ending
      updatedAt := now }
  left : ∀ r ∈ t.rows, (∀ c ∈ claims, c.id ≠ r.id) → t'.find? r.id = some r
  same : t'.rows.map (·.id) = t.rows.map (·.id) ∧ t'.lastId = t.lastId

theorem find?_claim (t : Table) (limit : Nat) (ending now : Instant) (id : Int) :
    (t.claim limit ending now).1.find? id = (t.find? id).map fun r =>
      if gives (t.given limit now) r.id then r.claimed ending now else r := by
  rw [claim_eq]
  apply find?_map
  intro r
  split <;> rfl

theorem Ordered.claimsFirst (h : t.Ordered) (limit : Nat) (now ending : Instant) :
    ClaimsFirst t (t.claim limit ending now).1 limit now ending (t.given limit now) where
  returned := given_eq t limit now
  count := by rw [given_eq, List.length_map, List.length_take]
  ascending := by
    rw [given_eq]
    exact List.pairwise_map.2 (h.dueRows_ascending.sublist (List.take_sublist limit _))
  first := by
    intro r hr due out c hc
    obtain ⟨a, ha, rfl⟩ := List.mem_map.1 hc
    refine h.lt_of_left_out hr due ?_ ha
    intro taken
    exact out r.claim (List.mem_map_of_mem taken) rfl
  taken := by
    intro c hc
    obtain ⟨r, hr, rfl⟩ := List.mem_map.1 hc
    obtain ⟨mem, due⟩ := mem_of_mem_due hr
    have found : t.find? r.id = some r := h.find?_eq_some_iff.2 ⟨mem, rfl⟩
    have given : gives (t.given limit now) r.id = true := gives_iff.2 ⟨r.claim, hc, rfl⟩
    refine ⟨r, found, due, ?_⟩
    change (t.claim limit ending now).1.find? r.id = _
    rw [find?_claim, found, Option.map_some, if_pos given]
    rfl
  left := by
    intro r hr out
    have found : t.find? r.id = some r := h.find?_eq_some_iff.2 ⟨hr, rfl⟩
    have ungiven : ¬ gives (t.given limit now) r.id = true := by
      rw [gives_iff]
      rintro ⟨c, hc, hid⟩
      exact out c hc hid
    rw [find?_claim, found, Option.map_some, if_neg ungiven]
  same := by
    rw [claim_eq, List.map_map]
    refine ⟨List.map_congr_left fun r _ => ?_, rfl⟩
    simp only [Function.comp_apply]
    split <;> rfl

/-- A claim keeps the table in order. -/
theorem Ordered.claim (h : t.Ordered) (limit : Nat) (ending now : Instant) :
    (t.claim limit ending now).1.Ordered := by
  rw [claim_eq]
  apply h.rewrite
  intro r
  split <;> rfl

namespace ClaimsFirst

variable {t' : Table} {claims : List Claim} {c : Claim}

theorem ids_nodup (h : ClaimsFirst t t' limit now ending claims) : (claims.map (·.id)).Nodup :=
  List.pairwise_map.2 (h.ascending.imp fun hlt => Int.ne_of_lt hlt)

theorem live (h : ClaimsFirst t t' limit now ending claims) (hc : c ∈ claims) :
    ∃ r ∈ t'.rows, r.Live c.id c.attempts := by
  obtain ⟨r, found, _, found'⟩ := h.taken c hc
  have hid : r.id = c.id := by simpa using List.find?_some found
  exact ⟨_, List.mem_of_find?_eq_some found', hid, rfl, rfl⟩

/-- While its lease lasts a claimed row is not due. -/
theorem not_due (h : ClaimsFirst t t' limit now ending claims) (ordered : t'.Ordered)
    (later : now < ending) (hc : c ∈ claims) (hr : r ∈ t'.rows) (hid : r.id = c.id) :
    ¬ r.Due now := by
  intro due
  obtain ⟨q, _, _, found⟩ := h.taken c hc
  obtain ⟨mem, same⟩ := ordered.find?_eq_some_iff.1 found
  have leased := ordered.eq_of_id_eq hr mem (hid.trans same.symm)
  rw [leased] at due
  obtain ⟨time, held, lapsed⟩ := due.of_processing rfl
  cases held
  exact not_le.2 later lapsed

end ClaimsFirst

end Courier.Outbox.Table
