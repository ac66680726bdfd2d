import Courier.Proofs.Storage.Outbox

/-! # Writing back as a whole

A failed push is written back decision by decision, and where a decision finds its claim gone the
row is looked up in between, which fails if the row says something unknown in its status. Whichever
statement the server fails, and whichever row cannot be read, the whole of the outcome is written or
nothing of it. What is written is said row by row, without the order of the statements.
-/

namespace Courier.Outbox

/-- The row after an outcome that is written as a whole: a row that is live under one of the claims
is changed once, by the first decision on its claim. -/
def Outcome.written (now : Instant) : Outcome → Row → Row
  | .dispatched batch, r => if ∃ c ∈ batch, r.Live c.id c.attempts then r.dispatched now else r
  | .failed decisions lastError, r =>
      match decisions.find? fun d => r.Live d.id d.attempts with
      | some d => d.write lastError now r
      | none => r

variable {d : Decision} {lastError : String} {now : Instant} {r : Row}

theorem Decision.foldl_applyTo (decisions : List Decision) (lastError : String) (now : Instant)
    (r : Row) : decisions.foldl (fun r d => d.applyTo lastError now r) r =
      Outcome.written now (.failed decisions lastError) r := by
  induction decisions with
  | nil => rfl
  | cons d ds ih =>
      rw [List.foldl_cons]
      by_cases live : r.Live d.id d.attempts
      · have first : (d :: ds).find? (fun d => r.Live d.id d.attempts) = some d :=
          List.find?_cons_of_pos (by simpa using live)
        rw [applyTo, if_pos live, foldl_idle ds write_idle, Outcome.written, first]
      · have later : (d :: ds).find? (fun d => r.Live d.id d.attempts) =
            ds.find? fun d => r.Live d.id d.attempts :=
          List.find?_cons_of_neg (by simpa using live)
        rw [applyTo, if_neg live, ih, Outcome.written, Outcome.written, later]

/-- What the statements of a write-back make of a row, one after the other. -/
theorem Outcome.applyTo_eq_written (o : Outcome) (now : Instant) : o.applyTo now = o.written now := by
  funext r
  cases o with
  | failed decisions lastError => exact Decision.foldl_applyTo decisions lastError now r
  | dispatched batch =>
      have live : Table.liveIn (batch.map Claim.token) r = true ↔
          ∃ c ∈ batch, r.Live c.id c.attempts := by
        simp [Table.liveIn_iff, Claim.token]
      simp only [applyTo, written, live]

end Courier.Outbox

namespace Courier.Storage.Sql

open Courier.Outbox

variable {α β ε : Type} {s s' : Session} {e : Stop StorageError}

/-! ## Outages to come -/

/-- Work that is done leaves at most the outages to come that it found. -/
def Spends (work : Sql ε α) : Prop :=
  ∀ (s s' : Session) (a : α), work s = (.ok a, s') → s'.outages ⊆ s.outages

theorem Spends.bind {x : Sql ε α} {f : α → Sql ε β} (hx : Spends x) (hf : ∀ a, Spends (f a)) :
    Spends (x >>= f) := by
  intro s s' b h
  obtain ⟨a, t, first, rest⟩ := bind_ok h
  exact List.Subset.trans (hf a t s' b rest) (hx s t a first)

theorem spends_of_same {work : Sql ε α} (same : ∀ s, (work s).2.outages = s.outages) :
    Spends work := by
  intro s s' a h
  have kept := same s
  rw [h] at kept
  exact fun lost held => kept ▸ held

theorem spends_statement : Spends statement := by
  intro s s' u h
  cases s with
  | mk tables outages reports =>
      cases outages with
      | nil =>
          cases h
          exact fun _ held => held
      | cons failed rest =>
          cases failed with
          | true => cases h
          | false =>
              cases h
              exact fun _ held => List.mem_cons_of_mem false held

theorem spends_update (f : Outbox.Table → Outbox.Table × α) :
    Spends (do
      statement
      let (t, a) := f (← outbox)
      setOutbox t
      return a) :=
  spends_statement.bind fun _ => spends_of_same fun _ => rfl

theorem spends_report (r : Report) : Spends (report r : Sql ε Unit) := spends_of_same fun _ => rfl

theorem spends_read (rows : List Row) : Spends (read rows) :=
  spends_of_same fun s => congrArg Session.outages (read_same rows s)

theorem spends_find (id : Int) : Spends (find id) := by
  refine spends_statement.bind fun _ => (spends_of_same fun _ => rfl : Spends outbox).bind fun t => ?_
  cases t.find? id with
  | none => exact spends_of_same fun _ => rfl
  | some r =>
      refine (spends_read [r]).bind fun _ => ?_
      cases r.event? with
      | none => exact spends_of_same fun _ => rfl
      | some e => exact spends_of_same fun _ => rfl

theorem spends_settleOrReport (d : Decision) (lastError : String) (now : Instant) :
    Spends (settleOrReport d lastError now) := by
  refine (spends_update fun t => t.settle d lastError now).bind fun applied => ?_
  split
  · exact spends_of_same fun _ => rfl
  · refine (spends_find d.id).bind fun e => ?_
    dsimp only
    split <;> exact spends_report _

theorem spends_writeBack (o : Outcome) (now : Instant) : Spends (writeBack o now) := by
  cases o with
  | dispatched batch =>
      have marked : Spends (markDispatched (batch.map fun c => (c.id, c.attempts)) now) := by
        unfold markDispatched
        split
        · exact spends_of_same fun _ => rfl
        · exact spends_update fun t => t.markDispatched _ now
      refine marked.bind fun n => ?_
      split
      · exact spends_report _
      · exact spends_of_same fun _ => rfl
  | failed decisions lastError =>
      change Spends (decisions.forM _)
      induction decisions with
      | nil => exact spends_of_same fun _ => rfl
      | cons d ds ih => exact (spends_settleOrReport d lastError now).bind fun _ => ih

/-! ## Why a write-back fails -/

/-- What is said of a row that cannot be shown: that its columns cannot be read, or that its status
is unknown. -/
def refusal (r : Row) : StorageError :=
  if r.Sound then .corrupted r.id (Status.unknownText r.status) else unreadable

/-- What keeps decisions from being written back: a statement that the server fails, or a row that is
looked up for one of them and cannot be read. -/
inductive Hindered (decisions : List Decision) (s : Session) : Stop StorageError → Prop
  | down (lost : true ∈ s.outages) :
      Hindered decisions s (.error (.database "statement failed"))
  | illegible {d : Decision} {r : Row} (mem : d ∈ decisions) (held : r ∈ s.tables.outbox.rows)
      (own : r.id = d.id) (unread : ¬ r.Legible) : Hindered decisions s (.error (refusal r))

theorem Hindered.of_statement {decisions : List Decision} (h : statement s = (.error e, s')) :
    Hindered decisions s e := by
  cases s with
  | mk tables outages reports =>
      cases outages with
      | nil => cases h
      | cons failed rest =>
          cases failed with
          | false => cases h
          | true =>
              cases h
              exact .down List.mem_cons_self

theorem Hindered.of_update {decisions : List Decision} {f : Outbox.Table → Outbox.Table × α}
    (h : (do
      statement
      let (t, a) := f (← outbox)
      setOutbox t
      return a : Sql StorageError α) s = (.error e, s')) : Hindered decisions s e := by
  rcases bind_error h with lost | ⟨_, a, _, done⟩
  · exact .of_statement lost
  · cases done

theorem find_error {id : Int} (h : find id s = (.error e, s')) :
    statement s = (.error e, s') ∨ ∃ r ∈ s.tables.outbox.rows, r.id = id ∧ ¬ r.Legible ∧
      e = .error (refusal r) := by
  rcases bind_error h with lost | ⟨_, a, ha, h⟩
  · exact Or.inl lost
  · have same := statement_ok ha
    rw [bind_of_ok (outbox_apply a)] at h
    cases found : a.tables.outbox.find? id with
    | none =>
        rw [found] at h
        cases h
    | some r =>
        have held : r ∈ s.tables.outbox.rows := same ▸ List.mem_of_find?_eq_some found
        have own : r.id = id := by simpa using List.find?_some found
        rw [found] at h
        dsimp only at h
        refine Or.inr ⟨r, held, own, ?_⟩
        rcases read_cases [r] a with ⟨sound, done⟩ | ⟨⟨q, hq, unsound⟩, refused⟩
        · rw [bind_of_ok done] at h
          have sound := sound r List.mem_cons_self
          cases read : r.event? with
          | some e =>
              rw [read] at h
              cases h
          | none =>
              rw [read] at h
              cases h
              refine ⟨?_, by rw [refusal, if_pos sound]⟩
              rintro ⟨_, e, some⟩
              rw [read] at some
              cases some
        · cases List.mem_singleton.1 hq
          rw [bind_apply, refused] at h
          cases h
          exact ⟨fun legible => unsound legible.1, by rw [refusal, if_neg unsound]⟩

/-- A row that cannot be read after a decision could not be read before it, for the same reason. -/
theorem illegible_before {t : Outbox.Table} {d : Decision} {lastError : String} {now : Instant}
    {r : Row} (held : r ∈ (t.settle d lastError now).1.rows) (unread : ¬ r.Legible) :
    ∃ q ∈ t.rows, q.id = r.id ∧ ¬ q.Legible ∧ refusal q = refusal r := by
  rw [Table.settle_eq] at held
  obtain ⟨q, old, rfl⟩ := List.mem_map.1 held
  have unread' : ¬ q.Legible := fun legible => unread (Decision.applyTo_legible.2 legible)
  refine ⟨q, old, Decision.applyTo_id.symm, unread', ?_⟩
  by_cases live : q.Live d.id d.attempts
  · have unsound : ¬ q.Sound := fun sound => unread' ⟨sound, live.known.event?⟩
    rw [refusal, if_neg unsound, refusal, if_neg fun sound => unsound (Decision.applyTo_sound.1 sound)]
  · rw [Decision.applyTo, if_neg live]

theorem settleOrReport_error {d : Decision} {lastError : String} {now : Instant}
    (h : settleOrReport d lastError now s = (.error e, s')) : Hindered [d] s e := by
  rcases bind_error h with lost | ⟨applied, a, ha, h⟩
  · exact .of_update (f := fun t => t.settle d lastError now) lost
  · have spent := spends_update (fun t => t.settle d lastError now) _ _ _ ha
    obtain ⟨written, _⟩ := settle_ok ha
    split at h
    · cases h
    · rcases bind_error h with failed | ⟨x, b, _, h⟩
      · rcases find_error failed with lost | ⟨r, held, own, unread, rfl⟩
        · have lost : Hindered [] a e := .of_statement lost
          cases lost with
          | down gone => exact .down (spent gone)
          | illegible mem => cases mem
        · rw [written] at held
          obtain ⟨q, old, same, unread, told⟩ := illegible_before held unread
          exact told ▸ .illegible List.mem_cons_self old (same.trans own) unread
      · dsimp only at h
        split at h <;> cases h

theorem forM_settleOrReport_error {decisions : List Decision} {lastError : String} {now : Instant}
    (h : (decisions.forM fun d => settleOrReport d lastError now) s = (.error e, s')) :
    Hindered decisions s e := by
  induction decisions generalizing s with
  | nil => cases h
  | cons d ds ih =>
      rcases bind_error h with failed | ⟨_, a, ha, failed⟩
      · cases settleOrReport_error failed with
        | down lost => exact .down lost
        | illegible mem held own unread =>
            cases List.mem_singleton.1 mem
            exact .illegible List.mem_cons_self held own unread
      · have spent := spends_settleOrReport d lastError now _ _ _ ha
        have written := settleOrReport_ok ha
        cases ih failed with
        | down lost => exact .down (spent lost)
        | illegible mem held own unread =>
            rw [written] at held
            obtain ⟨q, old, same, unread, told⟩ := illegible_before held unread
            exact told ▸ .illegible (List.mem_cons_of_mem d mem) old (same.trans own) unread

theorem writeBack_error {o : Outcome} {now : Instant} (h : writeBack o now s = (.error e, s')) :
    Hindered o.decisions s e := by
  cases o with
  | failed decisions lastError => exact forM_settleOrReport_error h
  | dispatched batch =>
      rcases bind_error h with failed | ⟨n, a, _, failed⟩
      · unfold markDispatched at failed
        split at failed
        · cases failed
        · exact .of_update (f := fun t => t.markDispatched _ now) failed
      · split at failed <;> cases failed

theorem mapError_id (x : Sql ε α) : mapError id x = x := by
  funext s
  unfold mapError
  rcases x s with ⟨(_ | _) | _, t⟩ <;> rfl

/-- A transaction fails at its first statement, in its work, or at its last statement. -/
theorem transaction_error {work : Sql StorageError α} (h : transaction id work s = (.error e, s')) :
    statement s = (.error e, s') ∨ ∃ t, statement s = (.ok (), t) ∧
      ((∃ t', work t = (.error e, t')) ∨
        ∃ a t' t'', work t = (.ok a, t') ∧ statement t' = (.error e, t'')) := by
  unfold transaction at h
  rw [mapError_id] at h
  split at h
  · rename_i e' t begun
    cases h
    exact Or.inl begun
  · rename_i u t begun
    refine Or.inr ⟨t, begun, ?_⟩
    dsimp only at h
    split at h
    · rename_i e' t' failed
      cases h
      exact Or.inl ⟨t', failed⟩
    · rename_i a t' done
      split at h
      · cases h
      · rename_i e' t'' refused
        cases h
        exact Or.inr ⟨a, t', t'', done, refused⟩

theorem Hindered.of_later {decisions : List Decision} {t : Session}
    (spent : t.outages ⊆ s.outages) (same : t.tables = s.tables) (h : Hindered decisions t e) :
    Hindered decisions s e := by
  cases h with
  | down lost => exact .down (spent lost)
  | illegible mem held own unread => exact .illegible mem (same ▸ held) own unread

theorem reconcile_error {o : Outcome} {now : Instant} (h : reconcile o now s = (.error e, s')) :
    Hindered o.decisions s e := by
  rcases transaction_error h with lost | ⟨t, begun, failed⟩
  · exact .of_statement lost
  · have spent := spends_statement _ _ _ begun
    rcases failed with ⟨t', failed⟩ | ⟨a, t', t'', done, refused⟩
    · exact (writeBack_error failed).of_later spent (statement_ok begun)
    · have lost : Hindered [] t' e := .of_statement refused
      cases lost with
      | down lost => exact .down (spent (spends_writeBack o now _ _ _ done lost))
      | illegible mem => cases mem

/-! ## Decisions on rows that cannot be read -/

/-- What is looked up on behalf of a decision that did not apply can be read. -/
theorem settleOrReport_legible {d : Decision} {lastError : String} {now : Instant} {u : Unit}
    (ordered : s.tables.outbox.Ordered) (h : settleOrReport d lastError now s = (.ok u, s'))
    {r : Row} (hr : r ∈ s.tables.outbox.rows) (own : r.id = d.id) :
    r.Legible ∨ r.Live d.id d.attempts := by
  obtain ⟨applied, a, ha, h⟩ := bind_ok h
  obtain ⟨written, told⟩ := settle_ok ha
  split at h
  · rename_i yes
    obtain ⟨row, held, live⟩ := (ordered.settle_snd d lastError now).1 (told ▸ yes)
    cases ordered.eq_of_id_eq hr held (own.trans live.1.symm)
    exact Or.inr live
  · obtain ⟨e, b, hb, _⟩ := bind_ok h
    obtain ⟨_, c, hc, hb⟩ := bind_ok hb
    have same := statement_ok hc
    have found : c.tables.outbox.find? d.id = some (d.applyTo lastError now r) := by
      have first := ordered.find?_eq_some_iff.2 ⟨hr, own⟩
      rw [same, written, Tables.withOutbox_outbox, Table.settle_eq,
        Table.find?_map fun _ => Decision.applyTo_id, first]
      rfl
    rw [bind_of_ok (outbox_apply c), found] at hb
    obtain ⟨_, x, hx, shown⟩ := bind_ok hb
    have sound := (read_ok hx).1 _ List.mem_cons_self
    refine Or.inl (Decision.applyTo_legible.1 ⟨sound, ?_⟩)
    cases known : (d.applyTo lastError now r).event? with
    | some e => exact ⟨e, rfl⟩
    | none =>
        rw [known] at shown
        cases shown

theorem forM_settleOrReport_legible {decisions : List Decision} {lastError : String} {now : Instant}
    {u : Unit} (ordered : s.tables.outbox.Ordered)
    (h : (decisions.forM fun d => settleOrReport d lastError now) s = (.ok u, s'))
    {d : Decision} (hd : d ∈ decisions) {r : Row} (hr : r ∈ s.tables.outbox.rows)
    (own : r.id = d.id) : r.Legible ∨ r.Live d.id d.attempts := by
  induction decisions generalizing s r with
  | nil => cases hd
  | cons first rest ih =>
      obtain ⟨_, a, ha, h⟩ := bind_ok h
      rcases List.mem_cons.1 hd with rfl | later
      · exact settleOrReport_legible ordered ha hr own
      · have written := settleOrReport_ok ha
        let r' := first.applyTo lastError now r
        have ordered' : a.tables.outbox.Ordered := by
          rw [written, Tables.withOutbox_outbox, Table.settle_eq]
          exact ordered.rewrite fun _ => Decision.applyTo_id
        have hr' : r' ∈ a.tables.outbox.rows := by
          rw [written, Tables.withOutbox_outbox, Table.settle_eq]
          exact List.mem_map_of_mem hr
        rcases ih ordered' h later hr' (Decision.applyTo_id.trans own) with legible | live
        · exact Or.inl (Decision.applyTo_legible.1 legible)
        · refine Or.inr ?_
          -- a row is live after a decision only if the decision did not apply
          have same : r' = r := if_neg fun applied => Decision.write_idle
            (by simpa [r', Decision.applyTo, applied] using live.2.1)
          rwa [same] at live

/-! ## All or nothing -/

/-- What is to be expected of a write-back.

* `answered`: it ends with a result or with an error that can be handled.
* `whole`: with a result, every row is as the outcome has it, and no other table is touched.
* `nothing`: with an error, no table has changed, whatever was written before the error.
* `hindered`: an error is one of a statement, the first and the last one included, or of a row that
  cannot be read.
* `legible`: a row that is decided about and cannot be read keeps the write-back from its result,
  unless the decision is on the claim that the row is live under. -/
structure WritesWhole (o : Outcome) (now : Instant) (s : Session) : Prop where
  answered : (reconcile o now s).1 ≠ .error .crash
  whole : ∀ s', reconcile o now s = (.ok (), s') → s'.tables = s.tables.withOutbox
    { s.tables.outbox with rows := s.tables.outbox.rows.map (o.written now) }
  nothing : ∀ e s', reconcile o now s = (.error e, s') → s'.tables = s.tables
  hindered : ∀ e s', reconcile o now s = (.error e, s') → Hindered o.decisions s e
  legible : (reconcile o now s).1 = .ok () →
    ∀ d ∈ o.decisions, ∀ r ∈ s.tables.outbox.rows, r.id = d.id →
      r.Legible ∨ r.Live d.id d.attempts

theorem writesWhole (o : Outcome) (now : Instant) (ordered : s.tables.outbox.Ordered) :
    WritesWhole o now s where
  answered := by
    intro crashed
    exact (writeBack_survives o now).transaction s _ _ (Prod.ext crashed rfl) rfl
  whole := by
    intro s' done
    rcases reconcile_cases done with ⟨_, written⟩ | ⟨_, failed, _⟩
    · rw [written, Outcome.applyTo_eq_written]
    · cases failed
  nothing := by
    intro e s' failed
    rcases reconcile_cases failed with ⟨done, _⟩ | ⟨_, _, same⟩
    · cases done
    · exact same
  hindered := fun e s' failed => reconcile_error failed
  legible := by
    intro done d hd r hr own
    rcases transaction_cases (Prod.ext done rfl : reconcile o now s = (.ok (), _)) with
      ⟨u, t, t', _, same, written, _⟩ | ⟨_, failed, _⟩
    · cases o with
      | dispatched batch => cases hd
      | failed decisions lastError =>
          rw [← same] at ordered hr
          exact forM_settleOrReport_legible ordered written hd hr own
    · cases failed

end Courier.Storage.Sql
