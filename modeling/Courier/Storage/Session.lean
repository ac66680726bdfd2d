import Courier.Storage.Error
import Courier.Storage.Tables
import Courier.Telemetry

/-!
# Sessions and transactions

Work on the database is a sequence of statements, each of which the server may fail for reasons of
its own. A transaction either commits all that it did or leaves the tables as it found them, also
when its last statement, the commit, is the one that fails.
-/

namespace Courier.Storage

/-- What work on the database reads and changes: the tables, which of the statements to come the
server fails (it carries out those beyond the list), and what was reported so far. -/
structure Session where
  tables : Tables
  outages : List Bool
  reports : List Report

abbrev Sql (ε α : Type) := ExceptT (Stop ε) (StateM Session) α

namespace Sql

variable {ε δ α : Type}

def fail (e : ε) : Sql ε α := throw (.error e)

def report (r : Report) : Sql ε Unit := modify fun s => { s with reports := s.reports ++ [r] }

def statement : Sql StorageError Unit := do
  let s ← get
  match s.outages with
  | [] => pure ()
  | failed :: rest =>
    set { s with outages := rest }
    if failed then fail (.database "statement failed")

def mapError (f : ε → δ) (x : Sql ε α) : Sql δ α := fun s =>
  match x s with
  | (.ok a, s) => (.ok a, s)
  | (.error (.error e), s) => (.error (.error (f e)), s)
  | (.error .crash, s) => (.error .crash, s)

def attempt (x : Sql ε α) : Sql δ (Except ε α) := fun s =>
  match x s with
  | (.ok a, s) => (.ok (.ok a), s)
  | (.error (.error e), s) => (.ok (.error e), s)
  | (.error .crash, s) => (.error .crash, s)

/-- The tables put back to what they were. A rollback that fails is reported, and undone by the
server all the same. -/
def rollback (before : Tables) : StateM Session Unit := fun s =>
  let (r, s) := (statement : Sql StorageError Unit) s
  let s := { s with tables := before }
  match r with
  | .ok _ => ((), s)
  | .error _ => ((), { s with reports := s.reports ++ [.line .warn "Transaction rollback failed" []] })

def transaction (lift : StorageError → ε) (work : Sql ε α) : Sql ε α := fun s =>
  match (mapError lift statement) s with
  | (.error e, s) => (.error e, s)
  | (.ok _, s) =>
    let before := s.tables
    match work s with
    | (.error e, s) => (.error e, (rollback before s).2)
    | (.ok a, s) =>
      match (mapError lift statement) s with
      | (.ok _, s) => (.ok a, s)
      | (.error e, s) => (.error e, { s with tables := before })

/-- Whether work opens a transaction of its own or belongs to one that is open. -/
inductive Scope
  | root
  | joined
  deriving DecidableEq, Repr

/-- Work in a scope: work that belongs to an open transaction leaves the ending to it. -/
def within (lift : StorageError → ε) (scope : Scope) (work : Sql ε α) : Sql ε α :=
  match scope with
  | .root => transaction lift work
  | .joined => work

end Sql

end Courier.Storage
