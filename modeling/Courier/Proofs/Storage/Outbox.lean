import Courier.Proofs.Outbox.Ordered
import Courier.Proofs.Storage.Transaction
import Courier.Proofs.Time.Clock

/-! # What work on the outbox does

Each piece of work on the outbox, and each transaction that relays run, either fails and changes no
table or acts on the outbox as the operation of the table that it stands for. The other tables are
never touched.
-/

namespace Courier.Storage

open Courier.Outbox

def Tables.withOutbox (tables : Tables) (t : Outbox.Table) : Tables := { tables with outbox := t }

@[simp] theorem Tables.withOutbox_outbox (tables : Tables) (t : Outbox.Table) :
    (tables.withOutbox t).outbox = t := rfl

namespace Sql

variable {s s' : Session}

/-! ## Single statements -/

/-- A statement that replaces the outbox by a function of it, and answers with what that gives. -/
theorem update_ok {α : Type} {f : Outbox.Table → Outbox.Table × α} {x : α}
    (h : (do
      statement
      let (t, a) := f (← outbox)
      setOutbox t
      return a : Sql StorageError α) s = (.ok x, s')) :
    s'.tables = s.tables.withOutbox (f s.tables.outbox).1 ∧ x = (f s.tables.outbox).2 := by
  obtain ⟨_, a, ha, h⟩ := bind_ok h
  have hs := statement_ok ha
  obtain ⟨hx, rfl⟩ := Prod.mk.inj h
  rw [← hs]
  exact ⟨rfl, (Except.ok.inj hx).symm⟩

theorem enqueue_ok {e : NewEvent} {now : Instant} {id : Int}
    (h : enqueue e now s = (.ok id, s')) :
    s'.tables = s.tables.withOutbox
        (s.tables.outbox.insert e.eventType (.ofJson e.payload) e.notBefore now).1 ∧
      id = s.tables.outbox.lastId + 1 :=
  update_ok (f := fun t => t.insert e.eventType (.ofJson e.payload) e.notBefore now) h

def unreadable : StorageError := .database "unreadable row"

/-- Reading rows changes nothing, and fails if one of them cannot be read. -/
theorem read_cases (rows : List Row) (s : Session) :
    ((∀ r ∈ rows, r.Sound) ∧ read rows s = (.ok (), s)) ∨
    ((∃ r ∈ rows, ¬ r.Sound) ∧ read rows s = (.error (.error unreadable), s)) := by
  unfold read
  by_cases sound : ∀ r ∈ rows, r.Sound
  · rw [if_pos (by simpa using sound)]
    exact Or.inl ⟨sound, rfl⟩
  · rw [if_neg (by simpa using sound)]
    exact Or.inr ⟨by simpa using sound, rfl⟩

theorem read_of_sound {rows : List Row} (sound : ∀ r ∈ rows, r.Sound) :
    read rows s = (.ok (), s) := by
  rcases read_cases rows s with ⟨_, done⟩ | ⟨⟨r, hr, unsound⟩, _⟩
  · exact done
  · exact absurd (sound r hr) unsound

theorem read_ok {rows : List Row} {u : Unit} (h : read rows s = (.ok u, s')) :
    (∀ r ∈ rows, r.Sound) ∧ s' = s := by
  rcases read_cases rows s with ⟨sound, done⟩ | ⟨_, failed⟩
  · rw [done] at h
    cases h
    exact ⟨sound, rfl⟩
  · rw [failed] at h
    cases h

theorem read_same (rows : List Row) (s : Session) : (read rows s).2 = s := by
  rcases read_cases rows s with ⟨_, done⟩ | ⟨_, failed⟩
  · rw [done]
  · rw [failed]

theorem claim_ok {limit : Nat} {lease : Span} {now : Instant} {claims : List Claim}
    (h : claim limit lease now s = (.ok claims, s')) :
    ∃ ending, leaseEnd lease now = .ok ending ∧
      (∀ r ∈ s.tables.outbox.due limit now, r.Claimable) ∧
      s'.tables = s.tables.withOutbox (s.tables.outbox.claim limit ending now).1 ∧
      claims = s.tables.outbox.given limit now := by
  obtain ⟨ending, a, hlift, h⟩ := bind_ok h
  obtain ⟨hend, rfl⟩ := Prod.mk.inj hlift
  refine ⟨ending, hend, ?_⟩
  split at h
  · cases h
  · obtain ⟨_, b, hb, h⟩ := bind_ok h
    obtain ⟨_, c, hc, h⟩ := bind_ok h
    cases hc
    obtain ⟨_, c, hc, h⟩ := bind_ok h
    obtain ⟨sound, rfl⟩ := read_ok hc
    have hs := statement_ok hb
    rw [hs] at h sound
    split at h
    · rename_i hempty
      cases h
      have none : s.tables.outbox.due limit now = [] := List.isEmpty_iff.1 hempty
      rw [Table.claim_eq, Table.given, none, hs]
      exact ⟨fun _ hr => absurd hr List.not_mem_nil, by simp [Tables.withOutbox, Table.gives], rfl⟩
    · obtain ⟨_, d, hd, h⟩ := bind_ok h
      have hd := (statement_ok hd).trans hs
      cases counted : (s.tables.outbox.due limit now).mapM Row.claim? with
      | none =>
          rw [counted] at h
          cases h
      | some given =>
          obtain ⟨room, rfl⟩ := Row.mapM_claim?_eq_some.1 counted
          rw [counted] at h
          obtain ⟨hx, rfl⟩ := Prod.mk.inj h
          refine ⟨fun r hr => ⟨sound r hr, room r hr⟩, ?_, (Except.ok.inj hx).symm⟩
          rw [← hd]
          rfl

theorem settle_ok {d : Decision} {lastError : String} {now : Instant} {applied : Bool}
    (h : settle d lastError now s = (.ok applied, s')) :
    s'.tables = s.tables.withOutbox (s.tables.outbox.settle d lastError now).1 ∧
      applied = (s.tables.outbox.settle d lastError now).2 :=
  update_ok (f := fun t => t.settle d lastError now) h

theorem markDispatched_ok {tokens : List (Int × Int)} {now : Instant} {n : Nat}
    (h : markDispatched tokens now s = (.ok n, s')) :
    s'.tables = s.tables.withOutbox (s.tables.outbox.markDispatched tokens now).1 ∧
      n = (s.tables.outbox.markDispatched tokens now).2 := by
  unfold markDispatched at h
  split at h
  · rename_i hempty
    cases h
    have none : Table.liveIn [] = fun _ => false := rfl
    rw [List.isEmpty_iff.1 hempty]
    simp [Tables.withOutbox, Table.markDispatched, Table.updateWhere, none]
  · exact update_ok (f := fun t => t.markDispatched tokens now) h

theorem find_ok {id : Int} {e : Option Event} (h : find id s = (.ok e, s')) :
    s'.tables = s.tables := by
  obtain ⟨_, a, ha, h⟩ := bind_ok h
  have hs := statement_ok ha
  obtain ⟨_, b, hb, h⟩ := bind_ok h
  cases hb
  cases hf : a.tables.outbox.find? id with
  | none =>
      rw [hf] at h
      cases h
      exact hs
  | some row =>
      rw [hf] at h
      obtain ⟨_, b, hb, told⟩ := bind_ok h
      obtain ⟨_, rfl⟩ := read_ok hb
      cases he : row.event? with
      | none =>
          rw [he] at told
          cases told
      | some e =>
          rw [he] at told
          cases told
          exact hs

/-! ## Statements that fail -/

theorem careful_setOutbox {α : Type} (t : Outbox.Table) (a : α) :
    Careful (do setOutbox t; return a : Sql StorageError α) := by
  intro s s' e h
  cases h

theorem careful_update {α : Type} (f : Outbox.Table → Outbox.Table × α) :
    Careful (do
      statement
      let (t, a) := f (← outbox)
      setOutbox t
      return a) :=
  Careful.bind statement_tables fun _ => Careful.bind outbox_tables fun _ => careful_setOutbox _ _

theorem enqueue_careful (e : NewEvent) (now : Instant) : Careful (enqueue e now) :=
  careful_update fun t => t.insert e.eventType (.ofJson e.payload) e.notBefore now

theorem claim_careful (limit : Nat) (lease : Span) (now : Instant) :
    Careful (claim limit lease now) := by
  refine Careful.bind (fun _ => rfl) fun ending => ?_
  split
  · exact careful_throw .crash
  · refine Careful.bind statement_tables fun _ => ?_
    refine Careful.bind outbox_tables fun t => ?_
    refine Careful.bind (fun s => congrArg Session.tables (read_same _ s)) fun _ => ?_
    split
    · exact careful_pure []
    · refine Careful.bind statement_tables fun _ => ?_
      cases (t.due limit now).mapM Row.claim? with
      | none => exact careful_throw .crash
      | some claims => exact Careful.bind outbox_tables fun _ => careful_setOutbox _ _

theorem settle_careful (d : Decision) (lastError : String) (now : Instant) :
    Careful (settle d lastError now) := careful_update fun t => t.settle d lastError now

theorem markDispatched_careful (tokens : List (Int × Int)) (now : Instant) :
    Careful (markDispatched tokens now) := by
  unfold markDispatched
  split
  · exact careful_pure 0
  · exact careful_update fun t => t.markDispatched tokens now

/-! ## Writing back -/

theorem settleOrReport_ok {d : Decision} {lastError : String} {now : Instant} {u : Unit}
    (h : settleOrReport d lastError now s = (.ok u, s')) :
    s'.tables = s.tables.withOutbox (s.tables.outbox.settle d lastError now).1 := by
  obtain ⟨applied, a, ha, h⟩ := bind_ok h
  obtain ⟨ha, -⟩ := settle_ok ha
  split at h
  · cases h
    exact ha
  · obtain ⟨e, b, hb, h⟩ := bind_ok h
    have hb := find_ok hb
    dsimp only at h
    split at h <;> (cases h; exact hb.trans ha)

theorem forM_settleOrReport_ok {decisions : List Decision} {lastError : String} {now : Instant}
    {u : Unit} (h : (decisions.forM fun d => settleOrReport d lastError now) s = (.ok u, s')) :
    s'.tables = s.tables.withOutbox
      (decisions.foldl (fun t d => (t.settle d lastError now).1) s.tables.outbox) := by
  induction decisions generalizing s with
  | nil =>
      cases h
      rfl
  | cons d ds ih =>
      obtain ⟨_, a, ha, h⟩ := bind_ok h
      have ha := settleOrReport_ok ha
      rw [ih h, ha]
      rfl

theorem writeBack_ok {o : Outcome} {now : Instant} {u : Unit}
    (h : writeBack o now s = (.ok u, s')) :
    s'.tables = s.tables.withOutbox
      { s.tables.outbox with rows := s.tables.outbox.rows.map (o.applyTo now) } := by
  cases o with
  | dispatched batch =>
      obtain ⟨n, a, ha, h⟩ := bind_ok h
      obtain ⟨ha, -⟩ := markDispatched_ok ha
      have hs : s'.tables = a.tables := by
        split at h <;> (cases h; rfl)
      exact hs.trans ha
  | failed decisions lastError =>
      rw [forM_settleOrReport_ok h, Table.foldl_settle]
      rfl

/-! ## Answers -/

theorem find_up (id : Int) (up : Up s)
    (legible : ∀ r ∈ s.tables.outbox.rows, r.id = id → r.Legible) :
    ∃ e, find id s = (.ok e, s) := by
  unfold find
  rw [bind_of_ok (statement_up up), bind_of_ok (outbox_apply s)]
  cases hf : s.tables.outbox.find? id with
  | none => exact ⟨none, rfl⟩
  | some row =>
      have own : row.id = id := by simpa using List.find?_some hf
      obtain ⟨sound, e, he⟩ := legible row (List.mem_of_find?_eq_some hf) own
      dsimp only
      rw [bind_of_ok (read_of_sound (by simpa using sound)), he]
      exact ⟨some e, rfl⟩

/-- With the server up, a claim of rows that can be claimed does what the table does. -/
theorem claim_up {limit : Nat} {lease : Span} {now ending : Instant} (up : Up s)
    (small : limit ≤ largestLimit) (ends : leaseEnd lease now = .ok ending)
    (claimable : ∀ r ∈ s.tables.outbox.due limit now, r.Claimable) :
    claim limit lease now s = (.ok (s.tables.outbox.given limit now), { s with
      tables := s.tables.withOutbox (s.tables.outbox.claim limit ending now).1 }) := by
  have lifted : claim.liftExcept (leaseEnd lease now) s = (.ok ending, s) := by
    rw [ends]
    rfl
  have counted : (s.tables.outbox.due limit now).mapM Row.claim? =
      some (s.tables.outbox.given limit now) :=
    Row.mapM_claim?_eq_some.2 ⟨fun r hr => (claimable r hr).2, rfl⟩
  unfold claim
  rw [bind_of_ok lifted, if_neg (Nat.not_lt.2 small)]
  dsimp only
  rw [bind_of_ok (statement_up up), bind_of_ok (outbox_apply s),
    bind_of_ok (read_of_sound fun r hr => (claimable r hr).1)]
  split
  · rename_i hempty
    have none : s.tables.outbox.due limit now = [] := List.isEmpty_iff.1 hempty
    rw [Table.claim_eq, Table.given, none]
    simp [Tables.withOutbox, Table.gives]
  · rw [bind_of_ok (statement_up up), counted]
    rfl

/-- With the server up, a claim that would take a row that cannot be read is refused. -/
theorem claim_unreadable {limit : Nat} {lease : Span} {now ending : Instant} (up : Up s)
    (small : limit ≤ largestLimit) (ends : leaseEnd lease now = .ok ending)
    (unsound : ∃ r ∈ s.tables.outbox.due limit now, ¬ r.Sound) :
    claim limit lease now s = (.error (.error unreadable), s) := by
  have lifted : claim.liftExcept (leaseEnd lease now) s = (.ok ending, s) := by
    rw [ends]
    rfl
  unfold claim
  rw [bind_of_ok lifted, if_neg (Nat.not_lt.2 small)]
  dsimp only
  rw [bind_of_ok (statement_up up), bind_of_ok (outbox_apply s), bind_apply]
  rcases read_cases (s.tables.outbox.due limit now) s with ⟨sound, _⟩ | ⟨_, refused⟩
  · obtain ⟨r, hr, unsound⟩ := unsound
    exact absurd (sound r hr) unsound
  · rw [refused]

theorem markDispatched_up (tokens : List (Int × Int)) (now : Instant) (up : Up s) :
    ∃ n t, markDispatched tokens now s = (.ok n, t) ∧ Up t := by
  unfold markDispatched
  split
  · exact ⟨0, s, rfl, up⟩
  · rw [bind_of_ok (statement_up up)]
    exact ⟨_, _, rfl, up⟩

/-- Work answers, unless the server fails the statement that it starts with. -/
def Answers {α : Type} (work : Sql StorageError α) (s : Session) (a : α) : Prop :=
  (work s).1 = .ok a ∨ (s.outages.head? = some true ∧ ∃ e, (work s).1 = .error (.error e))

theorem update_answers {α : Type} (f : Outbox.Table → Outbox.Table × α) (s : Session) :
    Answers (do
      statement
      let (t, a) := f (← outbox)
      setOutbox t
      return a) s (f s.tables.outbox).2 := by
  unfold Answers
  rcases statement_answers s with ⟨_, ht⟩ | ⟨down, e, t, ht⟩
  · rw [bind_of_ok ht, ← statement_ok ht]
    exact Or.inl rfl
  · rw [bind_apply, ht]
    exact Or.inr ⟨down, e, rfl⟩

theorem settle_answers (d : Decision) (lastError : String) (now : Instant) (s : Session) :
    Answers (settle d lastError now) s (s.tables.outbox.settle d lastError now).2 :=
  update_answers (fun t => t.settle d lastError now) s

theorem markDispatched_answers (tokens : List (Int × Int)) (now : Instant) (s : Session) :
    Answers (markDispatched tokens now) s (s.tables.outbox.markDispatched tokens now).2 := by
  unfold markDispatched
  split
  · rename_i hempty
    have none : Table.liveIn [] = fun _ => false := rfl
    rw [List.isEmpty_iff.1 hempty]
    refine Or.inl ?_
    simp [Table.markDispatched, Table.updateWhere, none]
  · exact update_answers (fun t => t.markDispatched tokens now) s

theorem forM_settleOrReport_up (decisions : List Decision) (lastError : String) (now : Instant)
    (up : Up s)
    (legible : ∀ d ∈ decisions, ∀ r ∈ s.tables.outbox.rows, r.id = d.id → r.Legible) :
    ∃ t, (decisions.forM fun d => settleOrReport d lastError now) s = (.ok (), t) ∧ Up t := by
  induction decisions generalizing s with
  | nil => exact ⟨s, rfl, up⟩
  | cons d ds ih =>
      let t := s.tables.outbox.settle d lastError now
      let settled : Session := { s with tables := s.tables.withOutbox t.1 }
      have hsettle : settle d lastError now s = (.ok t.2, settled) := by
        unfold settle
        rw [bind_of_ok (statement_up up)]
        rfl
      have still : ∀ e ∈ d :: ds, ∀ r ∈ settled.tables.outbox.rows, r.id = e.id → r.Legible := by
        intro e he r hr own
        rw [Tables.withOutbox_outbox, Table.settle_eq] at hr
        obtain ⟨a, ha, rfl⟩ := List.mem_map.1 hr
        rw [Decision.applyTo_id] at own
        exact Decision.applyTo_legible.2 (legible e he a ha own)
      obtain ⟨u, hu, uup, utables⟩ : ∃ u, settleOrReport d lastError now s = (.ok (), u) ∧ Up u ∧
          u.tables = settled.tables := by
        unfold settleOrReport
        rw [bind_of_ok hsettle]
        split
        · exact ⟨settled, rfl, up, rfl⟩
        · obtain ⟨e, he⟩ := find_up d.id (s := settled) up (still d List.mem_cons_self)
          rw [bind_of_ok he]
          split <;> exact ⟨_, rfl, up, rfl⟩
      have rest : ∀ e ∈ ds, ∀ r ∈ u.tables.outbox.rows, r.id = e.id → r.Legible := by
        rw [utables]
        exact fun e he => still e (List.mem_cons_of_mem d he)
      obtain ⟨v, hv, vup⟩ := ih uup rest
      exact ⟨v, (bind_of_ok hu).trans hv, vup⟩

theorem writeBack_dispatched_up (batch : List Claim) (now : Instant) (up : Up s) :
    ∃ t, writeBack (.dispatched batch) now s = (.ok (), t) ∧ Up t := by
  obtain ⟨n, t, ht, tup⟩ := markDispatched_up (batch.map fun c => (c.id, c.attempts)) now up
  unfold writeBack
  dsimp only
  rw [bind_of_ok ht]
  split <;> exact ⟨_, rfl, tup⟩

/-- With the server up, a write-back runs to its end if every row that may be looked up for it can
be read. -/
theorem writeBack_up (o : Outcome) (now : Instant) (up : Up s)
    (legible : ∀ d ∈ o.decisions, ∀ r ∈ s.tables.outbox.rows, r.id = d.id → r.Legible) :
    ∃ t, writeBack o now s = (.ok (), t) ∧ Up t := by
  cases o with
  | failed decisions lastError => exact forM_settleOrReport_up decisions lastError now up legible
  | dispatched batch => exact writeBack_dispatched_up batch now up

theorem reconcile_up (o : Outcome) (now : Instant) (up : Up s)
    (legible : ∀ d ∈ o.decisions, ∀ r ∈ s.tables.outbox.rows, r.id = d.id → r.Legible) :
    (reconcile o now s).1 = .ok () := by
  obtain ⟨t, ht, tup⟩ := writeBack_up o now up legible
  unfold reconcile
  rw [transaction_up up ht tup]

/-- Decisions that all apply run to their end whatever other rows hold: nothing is looked up. -/
theorem forM_settleOrReport_live {decisions : List Decision} (lastError : String) (now : Instant)
    (up : Up s) (ordered : s.tables.outbox.Ordered) (once : (decisions.map Decision.id).Nodup)
    (live : ∀ d ∈ decisions, ∃ r ∈ s.tables.outbox.rows, r.Live d.id d.attempts) :
    ∃ t, (decisions.forM fun d => settleOrReport d lastError now) s = (.ok (), t) ∧ Up t := by
  induction decisions generalizing s with
  | nil => exact ⟨s, rfl, up⟩
  | cons d ds ih =>
      let settled : Session := { s with
        tables := s.tables.withOutbox (s.tables.outbox.settle d lastError now).1 }
      have applied : (s.tables.outbox.settle d lastError now).2 = true :=
        (ordered.settle_snd d lastError now).2 (live d List.mem_cons_self)
      have first : settleOrReport d lastError now s = (.ok (), settled) := by
        have hsettle : settle d lastError now s = (.ok true, settled) := by
          unfold settle
          rw [bind_of_ok (statement_up up), ← applied]
          rfl
        unfold settleOrReport
        rw [bind_of_ok hsettle]
        rfl
      have rows : settled.tables.outbox.rows =
          s.tables.outbox.rows.map (d.applyTo lastError now) := by
        rw [Tables.withOutbox_outbox, Table.settle_eq]
      have others : ∀ e ∈ ds, ∃ r ∈ settled.tables.outbox.rows, r.Live e.id e.attempts := by
        intro e he
        obtain ⟨r, hr, held⟩ := live e (List.mem_cons_of_mem d he)
        have apart : d.id ≠ e.id := by
          intro same
          rw [List.map_cons, List.nodup_cons] at once
          exact once.1 (same ▸ List.mem_map_of_mem he)
        refine ⟨r, ?_, held⟩
        rw [rows]
        refine List.mem_map.2 ⟨r, hr, if_neg ?_⟩
        intro own
        exact apart (own.1.symm.trans held.1)
      have kept : settled.tables.outbox.Ordered := by
        rw [Tables.withOutbox_outbox, Table.settle_eq]
        exact ordered.rewrite fun r => by
          unfold Decision.applyTo
          split <;> simp
      obtain ⟨t, rest, tup⟩ := ih (s := settled) up kept (List.nodup_cons.1 once).2 others
      exact ⟨t, (bind_of_ok first).trans rest, tup⟩

/-- With the server up, writing back a batch of claims that are all live runs to its end. -/
theorem writeBack_live {o : Outcome} {batch : List Claim} (now : Instant) (up : Up s)
    (ordered : s.tables.outbox.Ordered) (built : o.WritesBack batch)
    (once : (batch.map (·.id)).Nodup)
    (live : ∀ c ∈ batch, ∃ r ∈ s.tables.outbox.rows, r.Live c.id c.attempts) :
    ∃ t, writeBack o now s = (.ok (), t) ∧ Up t := by
  cases built with
  | dispatched => exact writeBack_dispatched_up batch now up
  | failed decisions lastError same =>
      have ids : decisions.map Decision.id = batch.map (·.id) := by
        have first := congrArg (List.map Prod.fst) same
        simpa [List.map_map, Function.comp_def, Decision.token, Claim.token] using first
      refine forM_settleOrReport_live lastError now up ordered (ids ▸ once) ?_
      intro d hd
      have held : d.token ∈ batch.map Claim.token := same ▸ List.mem_map_of_mem hd
      obtain ⟨c, hc, token⟩ := List.mem_map.1 held
      obtain ⟨r, hr, rlive⟩ := live c hc
      obtain ⟨hid, hattempts⟩ := Prod.mk.inj token
      exact ⟨r, hr, by rwa [← hid, ← hattempts]⟩

/-- With the server up, an event is stored, whatever its payload. -/
theorem enqueue_up (e : NewEvent) (now : Instant) (up : Up s) :
    transaction id (enqueue e now) s = (.ok (s.tables.outbox.lastId + 1), { s with
      tables := s.tables.withOutbox
        (s.tables.outbox.insert e.eventType (.ofJson e.payload) e.notBefore now).1 }) := by
  refine transaction_up up ?_ up
  unfold enqueue
  rw [bind_of_ok (statement_up up)]
  rfl

theorem claimBatch_up {limit : Nat} {lease : Span} {now ending : Instant} (up : Up s)
    (small : limit ≤ largestLimit) (ends : leaseEnd lease now = .ok ending)
    (claimable : ∀ r ∈ s.tables.outbox.due limit now, r.Claimable) :
    claimBatch limit lease now s = (.ok (s.tables.outbox.given limit now), { s with
      tables := s.tables.withOutbox (s.tables.outbox.claim limit ending now).1 }) :=
  transaction_up up (claim_up up small ends claimable) up

/-! ## Work that goes on -/

theorem survives_outbox : Survives outbox := by
  intro s s' e h
  cases h

theorem survives_read (rows : List Row) : Survives (read rows) := by
  unfold read
  split
  · exact survives_pure ()
  · exact survives_fail _

theorem survives_report (r : Report) : Survives (report r : Sql StorageError Unit) := by
  intro s s' e h
  cases h

theorem survives_update {α : Type} (f : Outbox.Table → Outbox.Table × α) :
    Survives (do
      statement
      let (t, a) := f (← outbox)
      setOutbox t
      return a) := by
  refine survives_statement.bind fun _ s s' e h => ?_
  cases h

theorem mem_take_two {α : Type} {a : α} (xs : List α) :
    a ∈ xs.take 2 ↔ xs.head? = some a ∨ xs.tail.head? = some a := by
  rcases xs with _ | ⟨x, _ | ⟨y, rest⟩⟩ <;> simp [eq_comm]

/-- Where neither limit nor lease is at fault, a claim is beyond recovery only if both its statements
are answered, all its rows can be read, and one of them has no attempt left to be counted. -/
theorem claim_crash_iff_uncounted {limit : Nat} {lease : Span} {now ending : Instant}
    (small : limit ≤ largestLimit) (ends : leaseEnd lease now = .ok ending) :
    (claim limit lease now s).1 = .error .crash ↔ true ∉ s.outages.take 2 ∧
      (∀ r ∈ s.tables.outbox.due limit now, r.Sound) ∧
      ∃ r ∈ s.tables.outbox.due limit now, ¬ Text.InHalfWord (r.attempts + 1) := by
  have lifted : claim.liftExcept (leaseEnd lease now) s = (.ok ending, s) := by
    rw [ends]
    rfl
  unfold claim
  rw [bind_of_ok lifted, if_neg (Nat.not_lt.2 small), mem_take_two]
  dsimp only
  rcases statement_answers s with ⟨first, asked⟩ | ⟨lost, e, t, failed⟩
  · let t : Session := { s with outages := s.outages.tail }
    rw [bind_of_ok asked, bind_of_ok (outbox_apply _)]
    rcases read_cases (s.tables.outbox.due limit now) t with
      ⟨sound, done⟩ | ⟨⟨r, hr, unsound⟩, refused⟩
    · rw [bind_of_ok done]
      split
      · rename_i hempty
        have none : s.tables.outbox.due limit now = [] := List.isEmpty_iff.1 hempty
        exact iff_of_false nofun (by simp [none])
      · rcases statement_answers t with ⟨second, asked⟩ | ⟨lost, e, u, failed⟩
        · rw [bind_of_ok asked]
          cases counted : (s.tables.outbox.due limit now).mapM Row.claim? with
          | none =>
              have room : ¬ ∀ r ∈ s.tables.outbox.due limit now,
                  Text.InHalfWord (r.attempts + 1) := fun all => by
                cases counted.symm.trans (Row.mapM_claim?_eq_some.2 ⟨all, rfl⟩)
              exact iff_of_true rfl ⟨not_or.2 ⟨first, second⟩, sound, by simpa using room⟩
          | some claims =>
              obtain ⟨room, _⟩ := Row.mapM_claim?_eq_some.1 counted
              refine iff_of_false nofun ?_
              rintro ⟨_, _, r, hr, full⟩
              exact full (room r hr)
        · rw [bind_apply, failed]
          exact iff_of_false nofun fun h => h.1 (Or.inr lost)
    · rw [bind_apply, refused]
      exact iff_of_false nofun fun h => unsound (h.2.1 r hr)
  · rw [bind_apply, failed]
    exact iff_of_false nofun fun h => h.1 (Or.inl lost)

theorem claimBatch_crash {limit : Nat} {lease : Span} {now ending : Instant}
    (small : limit ≤ largestLimit) (ends : leaseEnd lease now = .ok ending)
    (h : claimBatch limit lease now s = (.error .crash, s')) :
    ∃ r ∈ s.tables.outbox.due limit now, ¬ Text.InHalfWord (r.attempts + 1) := by
  obtain ⟨t, same, crashed⟩ := transaction_crash h
  obtain ⟨_, _, full⟩ := (claim_crash_iff_uncounted small ends).1 crashed
  rwa [same] at full

theorem find_survives (id : Int) : Survives (find id) := by
  refine survives_statement.bind fun _ => Survives.bind survives_outbox fun t => ?_
  cases t.find? id with
  | none => exact survives_pure none
  | some row =>
      refine Survives.bind (survives_read _) fun _ => ?_
      split
      · exact survives_pure _
      · exact survives_fail _

theorem settleOrReport_survives (d : Decision) (lastError : String) (now : Instant) :
    Survives (settleOrReport d lastError now) := by
  refine (survives_update fun t => t.settle d lastError now).bind fun applied => ?_
  split
  · exact survives_pure ()
  · refine (find_survives d.id).bind fun e => ?_
    dsimp only
    split <;> exact survives_report _

theorem writeBack_survives (o : Outcome) (now : Instant) : Survives (writeBack o now) := by
  cases o with
  | dispatched batch =>
      have marked : Survives (markDispatched (batch.map fun c => (c.id, c.attempts)) now) := by
        unfold markDispatched
        split
        · exact survives_pure 0
        · exact survives_update fun t => t.markDispatched _ now
      refine marked.bind fun n => ?_
      split
      · exact survives_report _
      · exact survives_pure ()
  | failed decisions lastError =>
      change Survives (decisions.forM _)
      induction decisions with
      | nil => exact survives_pure ()
      | cons d ds ih => exact (settleOrReport_survives d lastError now).bind fun _ => ih

/-! ## Transactions of relays -/

/-- An event is stored under the next id, or no table changes. -/
theorem enqueue_transaction {e : NewEvent} {now : Instant} {r : Except (Stop StorageError) Int}
    (h : transaction id (enqueue e now) s = (r, s')) :
    (r = .ok (s.tables.outbox.lastId + 1) ∧ s'.tables = s.tables.withOutbox
        (s.tables.outbox.insert e.eventType (.ofJson e.payload) e.notBefore now).1) ∨
    (∃ e, r = .error e ∧ s'.tables = s.tables) := by
  rcases transaction_cases h with ⟨n, t, t', rfl, ht, hw, hs⟩ | failed
  · obtain ⟨hp, hid⟩ := enqueue_ok hw
    rw [ht] at hid hp
    exact Or.inl ⟨by rw [hid], hs.trans hp⟩
  · exact Or.inr failed

/-- A batch is claimed as the table claims it, or no table changes. -/
theorem claimBatch_cases {limit : Nat} {lease : Span} {now : Instant}
    {r : Except (Stop StorageError) (List Claim)} (h : claimBatch limit lease now s = (r, s')) :
    (∃ ending, leaseEnd lease now = .ok ending ∧
      (∀ r ∈ s.tables.outbox.due limit now, r.Claimable) ∧
      r = .ok (s.tables.outbox.given limit now) ∧
      s'.tables = s.tables.withOutbox (s.tables.outbox.claim limit ending now).1) ∨
    (∃ e, r = .error e ∧ s'.tables = s.tables) := by
  rcases transaction_cases h with ⟨claims, t, t', rfl, ht, hw, hs⟩ | failed
  · obtain ⟨ending, hend, claimable, hc, rfl⟩ := claim_ok hw
    rw [ht] at hc claimable ⊢
    exact Or.inl ⟨ending, hend, claimable, rfl, hs.trans hc⟩
  · exact Or.inr failed

/-- An outcome is applied to every row, or no table changes. -/
theorem reconcile_cases {o : Outcome} {now : Instant} {r : Except (Stop StorageError) Unit}
    (h : reconcile o now s = (r, s')) :
    (r = .ok () ∧ s'.tables = s.tables.withOutbox
      { s.tables.outbox with rows := s.tables.outbox.rows.map (o.applyTo now) }) ∨
    (∃ e, r = .error e ∧ s'.tables = s.tables) := by
  rcases transaction_cases h with ⟨_, t, t', rfl, ht, hw, hs⟩ | failed
  · have hw := writeBack_ok hw
    rw [ht] at hw
    exact Or.inl ⟨rfl, hs.trans hw⟩
  · exact Or.inr failed

end Sql

/-- On the readings of a clock a lease ends its length later. -/
theorem leaseEnd_ofNanos {lease : Span} {n : Int} {ending : Instant}
    (h : leaseEnd lease (.ofNanos n) = .ok ending) : ending = .ofNanos (n + lease.nanos) := by
  unfold leaseEnd at h
  split at h
  · cases h
  · split at h
    · rename_i t ht
      cases h
      exact Instant.ofNanos_of_add? ht
    · cases h

end Courier.Storage
