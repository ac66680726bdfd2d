import Courier.Storage.Outbox

/-! # What transactions do

Work on the database is taken apart statement by statement. A transaction that succeeds leaves the
tables that its work made; one that does not leaves the tables that it found. Nothing is assumed
about which statements the server fails.
-/

namespace Courier.Storage.Sql

open Courier.Outbox

variable {ε δ α β : Type} {s s' : Session}

/-! ## Work taken apart -/

theorem bind_apply (x : Sql ε α) (f : α → Sql ε β) (s : Session) :
    (x >>= f) s = match x s with
      | (.ok a, t) => f a t
      | (.error e, t) => (.error e, t) := by
  change (ExceptT.bindCont f (x s).1 : StateM Session _) (x s).2 = _
  cases h : x s with
  | mk r t => cases r <;> rfl

theorem bind_ok {x : Sql ε α} {f : α → Sql ε β} {b : β} (h : (x >>= f) s = (.ok b, s')) :
    ∃ a t, x s = (.ok a, t) ∧ f a t = (.ok b, s') := by
  rw [bind_apply] at h
  split at h
  · rename_i a t hx
    exact ⟨a, t, hx, h⟩
  · cases h

theorem bind_error {x : Sql ε α} {f : α → Sql ε β} {e : Stop ε}
    (h : (x >>= f) s = (.error e, s')) :
    x s = (.error e, s') ∨ ∃ a t, x s = (.ok a, t) ∧ f a t = (.error e, s') := by
  rw [bind_apply] at h
  split at h
  · rename_i a t hx
    exact Or.inr ⟨a, t, hx, h⟩
  · rename_i e' t hx
    cases h
    exact Or.inl hx

@[simp] theorem pure_apply (a : α) (s : Session) : (pure a : Sql ε α) s = (.ok a, s) := rfl

@[simp] theorem outbox_apply (s : Session) : outbox s = (.ok s.tables.outbox, s) := rfl

theorem outbox_tables (s : Session) : (outbox s).2.tables = s.tables := rfl

theorem statement_tables (s : Session) : (statement s).2.tables = s.tables := by
  cases s with
  | mk tables outages reports =>
      cases outages with
      | nil => rfl
      | cons failed rest => cases failed <;> rfl

theorem statement_ok {u : Unit} (h : statement s = (.ok u, s')) : s'.tables = s.tables := by
  have ht := statement_tables s
  rw [h] at ht
  exact ht

theorem mapError_tables (f : ε → δ) (x : Sql ε α) (s : Session) :
    (mapError f x s).2.tables = (x s).2.tables := by
  unfold mapError
  split <;> simp_all

/-! ## Work that stops -/

/-- Work that stops has changed no table. -/
def Careful (work : Sql ε α) : Prop :=
  ∀ {s s' : Session} {e : Stop ε}, work s = (.error e, s') → s'.tables = s.tables

theorem careful_throw (e : Stop ε) : Careful (throw e : Sql ε α) := by
  intro s s' e h
  cases h
  rfl

theorem careful_pure (a : α) : Careful (pure a : Sql ε α) := by
  intro s s' e h
  cases h

/-- Work that begins with what changes no table is careful if all that may follow is. -/
theorem Careful.bind {x : Sql ε α} {f : α → Sql ε β} (hx : ∀ s, (x s).2.tables = s.tables)
    (hf : ∀ a, Careful (f a)) : Careful (x >>= f) := by
  intro s s' e h
  have hs := hx s
  rcases bind_error h with hx | ⟨a, t, hx, hf'⟩
  · rw [hx] at hs
    exact hs
  · rw [hx] at hs
    exact (hf a hf').trans hs

/-! ## A server that is up -/

/-- The server fails no statement to come. -/
def Up (s : Session) : Prop := s.outages = []

theorem bind_of_ok {x : Sql ε α} {f : α → Sql ε β} {a : α} (h : x s = (.ok a, s')) :
    (x >>= f) s = f a s' := by
  rw [bind_apply, h]

theorem statement_up (h : Up s) : statement s = (.ok (), s) := by
  cases s with
  | mk tables outages reports =>
      cases h
      rfl

/-- A statement is answered, or it is the next one that the server fails. -/
theorem statement_answers (s : Session) :
    (s.outages.head? ≠ some true ∧
      statement s = (.ok (), { s with outages := s.outages.tail })) ∨
    (s.outages.head? = some true ∧ ∃ e t, statement s = (.error (.error e), t)) := by
  cases s with
  | mk tables outages reports =>
      cases outages with
      | nil => exact Or.inl ⟨nofun, rfl⟩
      | cons failed rest =>
          cases failed with
          | false => exact Or.inl ⟨nofun, rfl⟩
          | true => exact Or.inr ⟨rfl, _, _, rfl⟩

/-! ## Work that goes on -/

/-- Whatever the server fails, work ends with a result or with an error that can be handled. -/
def Survives (work : Sql ε α) : Prop :=
  ∀ (s s' : Session) (e : Stop ε), work s = (.error e, s') → e ≠ .crash

theorem survives_pure (a : α) : Survives (pure a : Sql ε α) := by
  intro s s' e h
  cases h

theorem survives_fail (e : ε) : Survives (fail e : Sql ε α) := by
  intro s s' e h
  cases h
  nofun

theorem survives_statement : Survives statement := by
  intro s s' e h
  rcases statement_answers s with ⟨_, answered⟩ | ⟨_, e', t, failed⟩
  · rw [answered] at h
    cases h
  · rw [failed] at h
    cases h
    nofun

theorem Survives.bind {x : Sql ε α} {f : α → Sql ε β} (hx : Survives x)
    (hf : ∀ a, Survives (f a)) : Survives (x >>= f) := by
  intro s s' e h
  rcases bind_error h with hx' | ⟨a, t, _, hf'⟩
  · exact hx _ _ _ hx'
  · exact hf a _ _ _ hf'

theorem Survives.mapError {f : ε → δ} {x : Sql ε α} (hx : Survives x) :
    Survives (mapError f x) := by
  intro s s' e h
  unfold Sql.mapError at h
  split at h
  · cases h
  · cases h
    nofun
  · rename_i crashed
    exact absurd rfl (hx _ _ _ crashed)

/-! ## Transactions -/

/-- Only its work can take a transaction beyond recovery. -/
theorem transaction_crash {lift : StorageError → ε} {work : Sql ε α}
    (h : transaction lift work s = (.error .crash, s')) :
    ∃ t, t.tables = s.tables ∧ (work t).1 = .error .crash := by
  have ends : Survives (mapError lift statement) := survives_statement.mapError
  unfold transaction at h
  split at h
  · rename_i begun
    cases h
    exact absurd rfl (ends _ _ _ begun)
  · rename_i u t begun
    dsimp only at h
    split at h
    · rename_i failed
      cases h
      have same := (mapError_tables lift statement s).trans (statement_tables s)
      rw [begun] at same
      exact ⟨t, same, congrArg Prod.fst failed⟩
    · split at h
      · cases h
      · rename_i refused
        cases h
        exact absurd rfl (ends _ _ _ refused)

theorem Survives.transaction {lift : StorageError → ε} {work : Sql ε α} (h : Survives work) :
    Survives (transaction lift work) := by
  rintro s s' e stops rfl
  obtain ⟨t, _, crashed⟩ := transaction_crash stops
  exact h t _ _ (Prod.ext crashed rfl) rfl

theorem rollback_tables (before : Tables) (s : Session) :
    (rollback before s).2.tables = before := by
  unfold rollback
  split
  split <;> rfl

/-- A transaction either succeeds with the tables of its work, or has changed no table. -/
theorem transaction_cases {lift : StorageError → ε} {work : Sql ε α} {r : Except (Stop ε) α}
    (h : transaction lift work s = (r, s')) :
    (∃ a t t', r = .ok a ∧ t.tables = s.tables ∧ work t = (.ok a, t') ∧ s'.tables = t'.tables) ∨
      (∃ e, r = .error e ∧ s'.tables = s.tables) := by
  have hbegin := (mapError_tables lift statement s).trans (statement_tables s)
  unfold transaction at h
  split at h
  · rename_i e t ht
    cases h
    rw [ht] at hbegin
    exact Or.inr ⟨e, rfl, hbegin⟩
  · rename_i u t ht
    rw [ht] at hbegin
    dsimp only at h
    split at h
    · rename_i e t' hw
      cases h
      exact Or.inr ⟨e, rfl, (rollback_tables _ _).trans hbegin⟩
    · rename_i a t' hw
      have hend := (mapError_tables lift statement t').trans (statement_tables t')
      split at h
      · rename_i u' t'' hc
        cases h
        rw [hc] at hend
        exact Or.inl ⟨a, t, t', rfl, hbegin, hw, hend⟩
      · rename_i e t'' hc
        cases h
        exact Or.inr ⟨e, rfl, hbegin⟩

/-- With the server up, work that succeeds and leaves it up succeeds as a transaction. -/
theorem transaction_up {lift : StorageError → ε} {work : Sql ε α} {a : α} (up : Up s)
    (done : work s = (.ok a, s')) (up' : Up s') : transaction lift work s = (.ok a, s') := by
  unfold transaction mapError
  rw [statement_up up]
  dsimp only
  rw [done]
  dsimp only
  rw [statement_up up']

end Courier.Storage.Sql
