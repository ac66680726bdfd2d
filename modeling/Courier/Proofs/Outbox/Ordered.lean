import Courier.Proofs.Outbox.Rows

/-! # Tables in order

The rows of an outbox stand in ascending order of ids, none above the last id that was given. Every
operation keeps that, so an id finds one row, a claim takes exactly the rows that are due and within
its limit, and the rows that a fenced update counts are the live tokens that it carries.
-/

namespace Courier.Outbox.Table

/-- Ids ascend and were all given by the table. -/
structure Ordered (t : Table) : Prop where
  ascending : t.rows.Pairwise fun a b => a.id < b.id
  bounded : ∀ r ∈ t.rows, r.id ≤ t.lastId

theorem Ordered.empty : Ordered .empty := ⟨List.Pairwise.nil, by simp [Table.empty]⟩

variable {t : Table} {r r' : Row} {id : Int}

/-! ## Rows by id -/

namespace Ordered

theorem ids_nodup (h : t.Ordered) : (t.rows.map (·.id)).Nodup :=
  List.pairwise_map.2 (h.ascending.imp fun hlt => Int.ne_of_lt hlt)

theorem eq_of_id_eq (h : t.Ordered) (hr : r ∈ t.rows) (hr' : r' ∈ t.rows) (hid : r.id = r'.id) :
    r = r' := List.inj_on_of_nodup_map h.ids_nodup hr hr' hid

theorem find?_eq_some_iff (h : t.Ordered) : t.find? id = some r ↔ r ∈ t.rows ∧ r.id = id :=
  find?_key_eq_some_iff h.ids_nodup

theorem rewrite (h : t.Ordered) {f : Row → Row} (ids : ∀ r, (f r).id = r.id) :
    Ordered { t with rows := t.rows.map f } := by
  constructor
  · exact List.pairwise_map.2 (h.ascending.imp fun hlt => by rwa [ids, ids])
  · intro r hr
    obtain ⟨a, ha, rfl⟩ := List.mem_map.1 hr
    rw [ids]
    exact h.bounded a ha

theorem insert (h : t.Ordered) (eventType : String) (payload : Document)
    (notBefore now : Instant) : (t.insert eventType payload notBefore now).1.Ordered := by
  constructor
  · refine List.pairwise_append.2 ⟨h.ascending, List.pairwise_singleton _ _, ?_⟩
    intro a ha b hb
    rw [List.mem_singleton.1 hb]
    have := h.bounded a ha
    dsimp only
    omega
  · intro r hr
    simp only [Table.insert, List.mem_append, List.mem_singleton] at hr ⊢
    rcases hr with hr | rfl
    · have := h.bounded r hr
      omega
    · exact Int.le_refl _

end Ordered

theorem find?_map {f : Row → Row} (ids : ∀ r, (f r).id = r.id) :
    ({ t with rows := t.rows.map f } : Table).find? id = (t.find? id).map f := by
  simp only [Table.find?, List.find?_map, Function.comp_def, ids]

def newRow (t : Table) (eventType : String) (payload : Document) (notBefore now : Instant) : Row :=
  { id := t.lastId + 1, eventType, payload, status := Status.pending.text, attempts := 0,
    nextAttemptAt := notBefore, processingUntil := none, lastError := none,
    createdAt := now, updatedAt := now }

theorem insert_rows (t : Table) (eventType : String) (payload : Document)
    (notBefore now : Instant) : (t.insert eventType payload notBefore now).1.rows =
      t.rows ++ [t.newRow eventType payload notBefore now] := rfl

/-! ## Claims -/

def given (t : Table) (limit : Nat) (now : Instant) : List Claim := (t.due limit now).map Row.claim

theorem due_sublist (t : Table) (limit : Nat) (now : Instant) : (t.due limit now).Sublist t.rows :=
  (List.take_sublist _ _).trans List.filter_sublist

theorem mem_of_mem_due {limit : Nat} {now : Instant} (h : r ∈ t.due limit now) :
    r ∈ t.rows ∧ r.Due now := by
  refine ⟨(due_sublist t limit now).mem h, ?_⟩
  exact (Row.isDue_iff now r).1 (List.mem_filter.1 (List.mem_of_mem_take h)).2

def gives (claims : List Claim) (id : Int) : Bool := claims.any fun c => c.id == id

theorem gives_iff {claims : List Claim} : gives claims id = true ↔ ∃ c ∈ claims, c.id = id := by
  simp [gives]

theorem claim_eq (t : Table) (limit : Nat) (leaseEnd now : Instant) :
    t.claim limit leaseEnd now =
      ({ t with rows := t.rows.map fun r =>
          if gives (t.given limit now) r.id then r.claimed leaseEnd now else r },
        t.given limit now) := by
  have ids (r : Row) : ((t.due limit now).map (·.id)).contains r.id =
      gives (t.given limit now) r.id := by
    rw [Bool.eq_iff_iff]
    simp [gives, given, Row.claim]
  have rewritten : (fun r : Row => if ((t.due limit now).map (·.id)).contains r.id then
      r.claimed leaseEnd now else r) =
      fun r => if gives (t.given limit now) r.id then r.claimed leaseEnd now else r := by
    funext r
    rw [ids r]
  rw [← rewritten]
  rfl

/-- In order, a claim gives out exactly the rows that it found due. -/
theorem Ordered.gives_given_iff (h : t.Ordered) {limit : Nat} {now : Instant} (hr : r ∈ t.rows) :
    gives (t.given limit now) r.id = true ↔ r ∈ t.due limit now := by
  rw [gives_iff]
  constructor
  · rintro ⟨c, hc, hid⟩
    obtain ⟨a, ha, rfl⟩ := List.mem_map.1 hc
    rwa [← h.eq_of_id_eq (mem_of_mem_due ha).1 hr hid]
  · intro hd
    exact ⟨r.claim, List.mem_map_of_mem hd, rfl⟩

/-- The tokens of a list under which some row is live, each once. -/
def liveTokens (t : Table) (tokens : List (Int × Int)) : List (Int × Int) :=
  tokens.dedup.filter fun p => t.rows.any fun r => decide (r.Live p.1 p.2)

theorem mem_liveTokens {tokens : List (Int × Int)} {p : Int × Int} :
    p ∈ t.liveTokens tokens ↔ p ∈ tokens ∧ ∃ r ∈ t.rows, r.Live p.1 p.2 := by
  simp [liveTokens]

/-- A fenced update counts the live tokens that it carries, whatever is repeated among them. -/
theorem Ordered.countP_liveIn (h : t.Ordered) (tokens : List (Int × Int)) :
    t.rows.countP (liveIn tokens) = (t.liveTokens tokens).length := by
  have hrows : ((t.rows.filter (liveIn tokens)).map fun r => (r.id, r.attempts)).Nodup := by
    have hids : ((t.rows.filter (liveIn tokens)).map (·.id)).Nodup :=
      h.ids_nodup.sublist (List.filter_sublist.map _)
    refine List.Nodup.of_map Prod.fst ?_
    simpa [List.map_map, Function.comp_def] using hids
  have hperm : ((t.rows.filter (liveIn tokens)).map fun r => (r.id, r.attempts)).Perm
      (t.liveTokens tokens) := by
    refine (List.perm_ext_iff_of_nodup hrows ((List.nodup_dedup _).filter _)).2 ?_
    intro p
    change _ ↔ p ∈ t.liveTokens tokens
    simp only [List.mem_map, List.mem_filter, liveIn_iff, mem_liveTokens]
    constructor
    · rintro ⟨r, ⟨hr, q, hq, live⟩, rfl⟩
      obtain ⟨hid, _, hattempts⟩ := id live
      rw [show (r.id, r.attempts) = q from Prod.ext hid hattempts]
      exact ⟨hq, r, hr, live⟩
    · rintro ⟨hp, r, hr, live⟩
      exact ⟨r, ⟨hr, p, hp, live⟩, Prod.ext live.1 live.2.2⟩
  rw [List.countP_eq_length_filter, ← hperm.length_eq, List.length_map]

theorem settle_eq (t : Table) (d : Decision) (lastError : String) (now : Instant) :
    (t.settle d lastError now).1 =
      { t with rows := t.rows.map (d.applyTo lastError now) } := by
  have rewritten : (fun r : Row => if decide (r.Live d.id d.attempts) then
      d.write lastError now r else r) = d.applyTo lastError now := by
    funext r
    by_cases live : r.Live d.id d.attempts <;> simp [Decision.applyTo, live]
  rw [← rewritten]
  cases d <;> rfl

/-- In order, a decision reports that it was applied exactly if its claim is live. -/
theorem Ordered.settle_snd (h : t.Ordered) (d : Decision) (lastError : String) (now : Instant) :
    (t.settle d lastError now).2 = true ↔ ∃ r ∈ t.rows, r.Live d.id d.attempts := by
  have hsnd : (t.settle d lastError now).2 = (t.rows.countP (liveIn [d.token]) == 1) := by
    have single : liveIn [d.token] = fun r => decide (r.Live d.id d.attempts) := by
      funext r
      simp [liveIn, Decision.token]
    rw [single]
    cases d <;> rfl
  have hlive : t.liveTokens [d.token] =
      if ∃ r ∈ t.rows, r.Live d.id d.attempts then [d.token] else [] := by
    split <;> simp_all [liveTokens, Decision.token]
  rw [hsnd, h.countP_liveIn, hlive]
  split <;> simp_all

theorem foldl_settle (t : Table) (decisions : List Decision) (lastError : String) (now : Instant) :
    decisions.foldl (fun t d => (t.settle d lastError now).1) t =
      { t with rows := t.rows.map fun r =>
          decisions.foldl (fun r d => d.applyTo lastError now r) r } := by
  induction decisions generalizing t with
  | nil => simp
  | cons d ds ih =>
      rw [List.foldl_cons, ih, settle_eq]
      simp [List.map_map, Function.comp_def]

end Courier.Outbox.Table
