import Courier.Proofs.Run
import Courier.Proofs.Storage.Outbox

/-! # The life of a row

Operations on the outbox come in any order, from anyone and with any arguments: ids that no row has,
claims that nobody made, times that go back. Whatever they ask for, a row that has left `pending`
and `processing` is left alone for good, and every other row goes on along the one cycle of
statuses. What an operation can make of a row is stated once, as `Operation.Rewrites`.
-/

namespace Courier.Outbox

/-- The row is neither waiting nor being processed, whatever its status says. -/
def Row.Finished (r : Row) : Prop :=
  r.status ≠ Status.pending.text ∧ r.status ≠ Status.processing.text

end Courier.Outbox

namespace Courier.Storage

open Courier.Outbox

/-- An operation on the outbox and its answer. Settling puts an event back or gives it up. -/
inductive Operation
  | insert (e : NewEvent) (now : Instant) (answer : Except (Stop StorageError) Int)
  | claim (limit : Nat) (lease : Span) (now : Instant)
      (answer : Except (Stop StorageError) (List Claim))
  | markDispatched (tokens : List (Int × Int)) (now : Instant)
      (answer : Except (Stop StorageError) Nat)
  | settle (d : Decision) (lastError : String) (now : Instant)
      (answer : Except (Stop StorageError) Bool)

namespace Operation

/-- The operations of the repository, on a server that may fail any statement. -/
inductive Step : Session → Operation → Session → Prop
  | insert {s s' : Session} {e : NewEvent} {now : Instant}
      {answer : Except (Stop StorageError) Int} (done : Sql.enqueue e now s = (answer, s')) :
      Step s (.insert e now answer) s'
  | claim {s s' : Session} {limit : Nat} {lease : Span} {now : Instant}
      {answer : Except (Stop StorageError) (List Claim)}
      (done : Sql.claim limit lease now s = (answer, s')) :
      Step s (.claim limit lease now answer) s'
  | markDispatched {s s' : Session} {tokens : List (Int × Int)} {now : Instant}
      {answer : Except (Stop StorageError) Nat}
      (done : Sql.markDispatched tokens now s = (answer, s')) :
      Step s (.markDispatched tokens now answer) s'
  | settle {s s' : Session} {d : Decision} {lastError : String} {now : Instant}
      {answer : Except (Stop StorageError) Bool}
      (done : Sql.settle d lastError now s = (answer, s')) :
      Step s (.settle d lastError now answer) s'

def returns (id : Int) : Operation → Bool
  | .claim _ _ _ (.ok claims) => Table.gives claims id
  | _ => false

inductive Rewrites : Operation → Row → Row → Prop
  | claimed {limit : Nat} {lease : Span} {now ending : Instant} {claims : List Claim} {r : Row}
      (returned : Table.gives claims r.id = true) (due : r.Due now) :
      Rewrites (.claim limit lease now (.ok claims)) r (r.claimed ending now)
  | dispatched {tokens : List (Int × Int)} {now : Instant} {n : Nat} {r : Row}
      (live : ∃ p ∈ tokens, r.Live p.1 p.2) :
      Rewrites (.markDispatched tokens now (.ok n)) r (r.dispatched now)
  | settled {d : Decision} {lastError : String} {now : Instant} {applied : Bool} {r : Row}
      (live : r.Live d.id d.attempts) :
      Rewrites (.settle d lastError now (.ok applied)) r (d.write lastError now r)
  | kept {o : Operation} {r : Row} (unreturned : o.returns r.id = false) : Rewrites o r r

variable {o : Operation} {s s' : Session} {r r' : Row} {t t' : Table} {now : Instant}

/-! ## One operation -/

/-- An operation rewrites the rows of a table one by one. -/
def Maps (o : Operation) (t t' : Table) : Prop :=
  ∃ f : Row → Row, t' = { t with rows := t.rows.map f } ∧ (∀ r, (f r).id = r.id) ∧
    ∀ r ∈ t.rows, o.Rewrites r (f r)

theorem maps_same (none : ∀ id, o.returns id = false) : o.Maps t t :=
  ⟨fun r => r, by simp, fun _ => rfl, fun r _ => .kept (none r.id)⟩

theorem maps_claim (ht : t.Ordered) (limit : Nat) (lease : Span) (ending : Instant) :
    Maps (.claim limit lease now (.ok (t.given limit now))) t (t.claim limit ending now).1 := by
  rw [Table.claim_eq]
  refine ⟨_, rfl, fun r => by split <;> rfl, fun r hr => ?_⟩
  by_cases returned : Table.gives (t.given limit now) r.id = true
  · have hdue := (ht.gives_given_iff hr).1 returned
    rw [if_pos returned]
    exact .claimed returned (Table.mem_of_mem_due hdue).2
  · rw [if_neg returned]
    exact .kept (Bool.eq_false_iff.2 returned)

theorem maps_markDispatched (tokens : List (Int × Int)) {n : Nat} :
    Maps (.markDispatched tokens now (.ok n)) t (t.markDispatched tokens now).1 := by
  refine ⟨_, rfl, fun r => by split <;> rfl, fun r hr => ?_⟩
  by_cases live : Table.liveIn tokens r = true
  · rw [if_pos live]
    exact .dispatched (Table.liveIn_iff.1 live)
  · rw [if_neg live]
    exact .kept rfl

theorem maps_settle (d : Decision) (lastError : String) {applied : Bool} :
    Maps (.settle d lastError now (.ok applied)) t (t.settle d lastError now).1 := by
  rw [Table.settle_eq]
  refine ⟨_, rfl, fun r => Outcome.applyTo_id (o := .failed [d] lastError), fun r hr => ?_⟩
  by_cases live : r.Live d.id d.attempts
  · rw [Decision.applyTo, if_pos live]
    exact .settled live
  · rw [Decision.applyTo, if_neg live]
    exact .kept rfl

namespace Step

/-- Every operation rewrites the rows one by one, or is one more event. -/
theorem table_cases (h : Step s o s') (hs : s.tables.outbox.Ordered) :
    o.Maps s.tables.outbox s'.tables.outbox ∨
    ∃ e now payload, o = .insert e now (.ok (s.tables.outbox.lastId + 1)) ∧
      s'.tables.outbox = (s.tables.outbox.insert e.eventType payload e.notBefore now).1 := by
  have same {o : Operation} (ht : s'.tables = s.tables) (none : ∀ id, o.returns id = false) :
      o.Maps s.tables.outbox s'.tables.outbox := ht ▸ maps_same none
  cases h with
  | @insert _ e now answer done =>
      cases answer with
      | error x => exact Or.inl (same (Sql.enqueue_careful e now done) fun _ => rfl)
      | ok id =>
          obtain ⟨ht, rfl⟩ := Sql.enqueue_ok done
          exact Or.inr ⟨e, now, .ofJson e.payload, rfl, congrArg Tables.outbox ht⟩
  | @claim _ limit lease now answer done =>
      cases answer with
      | error x => exact Or.inl (same (Sql.claim_careful limit lease now done) fun _ => rfl)
      | ok claims =>
          obtain ⟨ending, _, _, ht, rfl⟩ := Sql.claim_ok done
          rw [ht]
          exact Or.inl (maps_claim hs limit lease ending)
  | @markDispatched _ tokens now answer done =>
      cases answer with
      | error x => exact Or.inl (same (Sql.markDispatched_careful tokens now done) fun _ => rfl)
      | ok n =>
          obtain ⟨ht, _⟩ := Sql.markDispatched_ok done
          rw [ht]
          exact Or.inl (maps_markDispatched tokens)
  | @settle _ d lastError now answer done =>
      cases answer with
      | error x => exact Or.inl (same (Sql.settle_careful d lastError now done) fun _ => rfl)
      | ok applied =>
          obtain ⟨ht, _⟩ := Sql.settle_ok done
          rw [ht]
          exact Or.inl (maps_settle d lastError)

theorem ordered (h : Step s o s') (hs : s.tables.outbox.Ordered) : s'.tables.outbox.Ordered := by
  rcases h.table_cases hs with ⟨f, ht, ids, _⟩ | ⟨e, now, payload, _, ht⟩
  · rw [ht]
    exact hs.rewrite ids
  · rw [ht]
    exact hs.insert _ _ _ _

theorem row_after (h : Step s o s') (hs : s.tables.outbox.Ordered)
    (hr : r ∈ s.tables.outbox.rows) :
    ∃ r', s'.tables.outbox.find? r.id = some r' ∧ o.Rewrites r r' := by
  have hs' := h.ordered hs
  rcases h.table_cases hs with ⟨f, ht, ids, rewrites⟩ | ⟨e, now, payload, rfl, ht⟩
  · refine ⟨f r, hs'.find?_eq_some_iff.2 ⟨?_, ids r⟩, rewrites r hr⟩
    rw [ht]
    exact List.mem_map_of_mem hr
  · refine ⟨r, hs'.find?_eq_some_iff.2 ⟨?_, rfl⟩, .kept rfl⟩
    rw [ht]
    exact List.mem_append_left _ hr

theorem row_before (h : Step s o s') (hs : s.tables.outbox.Ordered)
    (hr' : r' ∈ s'.tables.outbox.rows) :
    (∃ r ∈ s.tables.outbox.rows, r.id = r'.id) ∨
    ∃ e now payload, o = .insert e now (.ok r'.id) ∧
      r' = s.tables.outbox.newRow e.eventType payload e.notBefore now := by
  rcases h.table_cases hs with ⟨f, ht, ids, _⟩ | ⟨e, now, payload, rfl, ht⟩
  · rw [ht] at hr'
    obtain ⟨r, hr, rfl⟩ := List.mem_map.1 hr'
    exact Or.inl ⟨r, hr, (ids r).symm⟩
  · rw [ht, Table.insert_rows] at hr'
    rcases List.mem_append.1 hr' with hr | hr
    · exact Or.inl ⟨r', hr, rfl⟩
    · obtain rfl := List.mem_singleton.1 hr
      exact Or.inr ⟨e, now, payload, rfl, rfl⟩

end Step

/-! ## One row -/

/-- How an operation lets a row go on.

* `finished`: a row that is neither pending nor processing keeps every column.
* `moved`: a status that changes goes on along the cycle.
* `reclaimed`: a row that is processing before and after is left alone, or is claimed again once its
  lease has ended.
* `attempts`: a claim that returns the row counts one attempt, and nothing else counts any. -/
structure LetsGoOn (o : Operation) (r r' : Row) : Prop where
  finished : r.Finished → r' = r
  moved : r'.status ≠ r.status →
    (r.status = Status.pending.text ∧ r'.status = Status.processing.text) ∨
    (r.status = Status.processing.text ∧
      ∃ next ∈ [Status.dispatched, .pending, .dead], r'.status = next.text)
  reclaimed : r.status = Status.processing.text → r'.status = Status.processing.text → r' ≠ r →
    ∃ limit lease now claims, o = .claim limit lease now (.ok claims) ∧
      Table.gives claims r.id = true ∧ ∃ ending, r.processingUntil = some ending ∧ ending ≤ now
  constant : r'.id = r.id ∧ r'.eventType = r.eventType ∧ r'.payload = r.payload ∧
    r'.createdAt = r.createdAt
  attempts : r'.attempts = r.attempts + if o.returns r.id then 1 else 0

end Operation

/-! ## Runs -/

namespace Operation

abbrev Trace := List (Transition Session Operation)

/-- What a row keeps over a number of claims that return it. -/
structure Ages (n : Nat) (r r' : Row) : Prop where
  finished : r.Finished → r' = r
  constant : r'.id = r.id ∧ r'.eventType = r.eventType ∧ r'.payload = r.payload ∧
    r'.createdAt = r.createdAt
  attempts : r'.attempts = r.attempts + n

variable {s s' s₀ : Session} {o : Operation} {r r' r'' : Row} {trace : Trace}

theorem ordered_of_run (run : Run Step s₀ trace s) (hs : s₀.tables.outbox.Ordered) :
    s.tables.outbox.Ordered :=
  run.keeps (P := fun s => s.tables.outbox.Ordered) (fun h step => Step.ordered step h) hs

theorem Ages.step {n : Nat} (h : Ages n r r') (step : o.LetsGoOn r' r'') :
    Ages (n + if o.returns r.id then 1 else 0) r r'' where
  finished := by
    intro finished
    have hsame := h.finished finished
    rw [hsame] at step
    exact step.finished finished
  constant := by
    obtain ⟨hid, htype, hpayload, hcreated⟩ := h.constant
    obtain ⟨hid', htype', hpayload', hcreated'⟩ := step.constant
    exact ⟨hid'.trans hid, htype'.trans htype, hpayload'.trans hpayload, hcreated'.trans hcreated⟩
  attempts := by
    have hbefore := h.attempts
    have hstep := step.attempts
    rw [h.constant.1] at hstep
    by_cases returned : o.returns r.id = true
    · rw [if_pos returned] at hstep ⊢
      omega
    · rw [if_neg returned] at hstep ⊢
      omega

def plainRow (id : Int) (status : String) (attempts : Int) (ending : Option Int) : Row where
  id := id
  eventType := "check"
  payload := .ofJson (.array [])
  status := status
  attempts := attempts
  nextAttemptAt := .ofNanos 0
  processingUntil := ending.map .ofNanos
  lastError := none
  createdAt := .ofNanos 0
  updatedAt := .ofNanos 0

/-- A finished event of an earlier day, one of unknown status, one whose lease ends, and one that
waits. -/
def mixed : Session where
  tables := ⟨⟨[], 0, []⟩,
    ⟨[plainRow 1 "succeeded" 2 none, plainRow 2 "archived" 0 none,
      plainRow 3 "processing" 1 (some 5), plainRow 4 "pending" 0 none], 4⟩⟩
  outages := []
  reports := []

end Operation

end Courier.Storage
