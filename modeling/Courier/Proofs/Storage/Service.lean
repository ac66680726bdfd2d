import Courier.Proofs.Dialogue
import Courier.Proofs.Storage.Announced

/-! # Checks one after another

Requests are carried out one after another, each in a transaction of its own or several in one that
they join. Work within a transaction passes errors on, and may fail by itself after every check in
it has succeeded. Nothing is assumed about requests, about what finders answer or about which
statements the server fails, those that begin and commit a transaction included.
-/

namespace Courier.Storage

open Courier.Check

/-- A request for a check, with what the finder answers and the time at which it is carried out. -/
structure Request where
  command : Command
  finder : Point → Nat → Except StorageError (List Incident)
  now : Instant

def Request.perform (scope : Sql.Scope) (r : Request) : Sql RecordingError Recorded :=
  Sql.check scope r.command r.finder r.now

def joining : Interface := ⟨Request, fun _ => Recorded⟩

/-- Work within a transaction: checks that join it, and in the end a result of its own. -/
abbrev Closure := Dialogue joining (Except (Stop RecordingError) Unit)

def Closure.work (c : Closure) : Sql RecordingError Unit := do
  let result ← c.run fun r : Request => r.perform .joined
  ExceptT.mk (pure result)

namespace Service

/-- A check in a transaction of its own or a transaction that checks join, with its answer. -/
inductive Move
  | check (r : Request) (answer : Except (Stop RecordingError) Recorded)
  | within (c : Closure) (answer : Except (Stop RecordingError) Unit)

def Move.failed : Move → Bool
  | .check _ answer => !answer.isOk
  | .within _ answer => !answer.isOk

inductive Step : Session → Move → Session → Prop
  | check {s s' : Session} {r : Request} {answer : Except (Stop RecordingError) Recorded}
      (done : r.perform .root s = (answer, s')) : Step s (.check r answer) s'
  | within {s s' : Session} {c : Closure} {answer : Except (Stop RecordingError) Unit}
      (done : Sql.transaction .storage c.work s = (answer, s')) : Step s (.within c answer) s'

variable {s₀ s s' : Session} {m : Move} {trace : List (Transition Session Move)}

/-! ## One transaction -/

/-- Checks that join a transaction keep the tables in step, as long as none of them fails. -/
theorem inStep_of_joined {α : Type} (c : Dialogue joining α) {a : α} (h : InStep s.tables)
    (done : c.run (fun r : Request => r.perform .joined) s = (.ok a, s')) : InStep s'.tables := by
  induction c generalizing s with
  | done b =>
      cases done
      exact h
  | ask r k ih =>
      have asked : (r.perform .joined >>= fun recorded =>
          (k recorded).run fun r : Request => r.perform .joined) s = (.ok a, s') :=
        (congrFun (Dialogue.run_ask _ r k) s).symm.trans done
      obtain ⟨recorded, t, hcheck, hrest⟩ := Sql.bind_ok asked
      obtain ⟨accepted, _, records⟩ := Sql.check_ok hcheck
      exact ih recorded (h.records (Command.point_accepted accepted) records) hrest

theorem inStep_of_work {c : Closure} {u : Unit} (h : InStep s.tables)
    (done : c.work s = (.ok u, s')) : InStep s'.tables := by
  obtain ⟨result, t, hrun, hresult⟩ := Sql.bind_ok done
  obtain ⟨_, rfl⟩ := Prod.mk.inj hresult
  exact inStep_of_joined c h hrun

namespace Step

theorem failed (step : Step s m s') (hm : m.failed = true) : s'.tables = s.tables := by
  cases step with
  | @check _ _ answer done =>
      cases answer with
      | ok recorded => cases hm
      | error e => exact Sql.check_error done
  | within done =>
      rcases Sql.transaction_cases done with ⟨_, _, _, rfl, _⟩ | ⟨_, _, same⟩
      · cases hm
      · exact same

theorem inStep (step : Step s m s') (h : InStep s.tables) : InStep s'.tables := by
  cases step with
  | @check _ _ answer done =>
      cases answer with
      | ok recorded =>
          obtain ⟨accepted, _, records⟩ := Sql.check_ok done
          exact h.records (Command.point_accepted accepted) records
      | error e =>
          rw [Sql.check_error done]
          exact h
  | within done =>
      rcases Sql.transaction_cases done with ⟨_, t, t', _, ht, hwork, hs⟩ | ⟨_, _, same⟩
      · rw [hs]
        rw [← ht] at h
        exact inStep_of_work h hwork
      · rw [same]
        exact h

end Step

/-! ## Every run -/

theorem inStep_of_run (run : Run Step s₀ trace s) (start : s₀.tables = .empty) :
    InStep s.tables :=
  Run.keeps (P := fun s => InStep s.tables) (fun h step => step.inStep h) (start ▸ .empty) run

/-- What a check that was answered left behind: its row, with links to just the incidents of the
answer. -/
def Kept (r : Request) (recorded : Recorded) (t : Tables) : Prop :=
  ∃ row ∈ t.checks.rows, row.id = recorded.checkId ∧ row.userId = r.command.userId ∧
    ∀ n, n ∈ t.checks.incidentsOf row.id ↔ n ∈ recorded.incidents.map (·.id)

theorem Kept.of_check {r : Request} {recorded : Recorded} (h : InStep s.tables)
    (done : r.perform .root s = (.ok recorded, s')) : Kept r recorded s'.tables := by
  obtain ⟨_, hid, records⟩ := Sql.check_ok done
  obtain ⟨kept, _, hchecks⟩ := records.checks
  refine ⟨⟨_, r.command.userId, kept, r.now⟩, ?_, hid.symm, rfl, fun n => ?_⟩
  · rw [hchecks]
    exact List.mem_append_right _ (List.mem_singleton_self _)
  · rw [hchecks, Checks.incidentsOf_new h.owned, mem_distinct]

/-- Checks and their announcements are written together or not at all. -/
structure Transactional (trace : List (Transition Session Move)) (s : Session) : Prop where
  committed : Announced s.tables ∧ ∀ t ∈ trace, Announced t.before.tables
  failed : ∀ t ∈ trace, t.move.failed = true → t.after.tables = t.before.tables
  answered : ∀ t ∈ trace, ∀ r recorded, t.move = .check r (.ok recorded) →
    Kept r recorded t.after.tables

/-- Whatever is asked for and whatever the server fails, checks and their announcements are written
together or not at all. -/
theorem announced_together (start : s₀.tables = .empty) (run : Run Step s₀ trace s) :
    Transactional trace s where
  committed := by
    refine ⟨(inStep_of_run run start).announced, fun t ht => ?_⟩
    obtain ⟨before, after, rfl, left, _⟩ := run.of_mem ht
    exact (inStep_of_run left start).announced
  failed := by
    intro t ht hm
    obtain ⟨_, _, _, _, step⟩ := run.of_mem ht
    exact step.failed hm
  answered := by
    intro t ht r recorded hm
    obtain ⟨before, after, rfl, left, step⟩ := run.of_mem ht
    rw [hm] at step
    cases step with
    | check done => exact Kept.of_check (inStep_of_run left start) done

def near (userId : String) (ids : List Int) : Request where
  command := ⟨userId, ⟨52.5, 13.25⟩, 0⟩
  finder _ _ := .ok (ids.map fun id => ⟨id, "", 0.0⟩)
  now := .ofNanos 0

def both (result : Except (Stop RecordingError) Unit) : Closure :=
  .ask (near "b" []) fun _ => .ask (near "b" [8]) fun _ => .done result

/-- Nothing stored yet, on a server that fails the twentieth statement. -/
def fresh : Session := ⟨.empty, List.replicate 19 false ++ [true], []⟩

theorem run_check (run : Run Step s₀ trace s) (r : Request) :
    Run Step s₀ (trace ++ [⟨s, .check r (r.perform .root s).1, (r.perform .root s).2⟩])
      (r.perform .root s).2 :=
  run.tail (.check (Prod.eta _).symm)

theorem run_within (run : Run Step s₀ trace s) (c : Closure) :
    Run Step s₀ (trace ++ [⟨s, .within c (Sql.transaction .storage c.work s).1,
      (Sql.transaction .storage c.work s).2⟩]) (Sql.transaction .storage c.work s).2 :=
  run.tail (.within (Prod.eta _).symm)

/-- An incident that the finder repeats, work that crashes after its checks, the same work again,
and a commit that the server fails. -/
theorem announced_together_mixed :
    ∃ trace s, Transactional trace s ∧
      trace.map (fun t => t.move.failed) = [false, true, false, true] ∧
      s.tables.checks.rows.map (·.id) = [1, 2, 3] ∧
      s.tables.checks.links = [⟨1, 3⟩, ⟨1, 7⟩, ⟨3, 8⟩] ∧
      s.tables.announcements.map (·.id) = [1, 2] := by
  have run : Run Step fresh [] fresh := .refl
  have run := run_check run (near "a" [7, 3, 7])
  have run := run_within run (both (.error .crash))
  have run := run_within run (both (.ok ()))
  have run := run_check run (near "c" [])
  exact ⟨_, _, announced_together rfl run, by decide +kernel⟩

end Service

end Courier.Storage
