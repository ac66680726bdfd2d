import Courier.Proofs.Run
import Courier.Proofs.Storage.Outbox
import Courier.Relay.Round
import Mathlib.Logic.Function.Basic

/-! # Relays that share an outbox

Any number of relays claim from one outbox, push what they claimed and write back, while events are
stored and the clock is set. Claims and write-backs are the transactions of the database itself,
which may fail any statement. Between moves every relay remembers the batches that it claimed; it
may write back any of them, late, more than once or never, and forgets all of them when it crashes.

All that a move does to a row that is there is stated once, as `Move.Rewrites`.
-/

namespace Courier.Relay

open Courier.Outbox Courier.Storage Courier.Stream

/-! ## What relays write back -/

theorem decide?_token {p : RetryPolicy} {c : Claim} {now : Instant} {d : Decision}
    (h : p.decide? c.id c.attempts now = some d) : d.token = c.token := by
  unfold RetryPolicy.decide? at h
  split at h
  · obtain ⟨next, _, rfl⟩ := Option.map_eq_some_iff.1 h
    rfl
  · cases h
    rfl

/-- After a push that was refused, a relay decides on every event of its batch. -/
theorem decisions_writesBack {p : RetryPolicy} {batch : List Claim} {now : Instant}
    {ds : List Decision} {e : String} (h : decisions? p batch now = some ds) :
    Outcome.WritesBack batch (.failed ds e) := by
  refine .failed ds e ?_
  induction batch generalizing ds with
  | nil =>
      cases h
      rfl
  | cons c batch ih =>
      simp only [decisions?, List.mapM_cons, Option.bind_eq_bind, Option.bind_eq_some_iff] at h
      obtain ⟨d, hd, rest, hrest, h⟩ := h
      cases h
      rw [List.map_cons, List.map_cons, decide?_token hd, ih hrest]

/-! ## The system -/

/-- The database, the clock in nanoseconds, the batches that each relay remembers, and the batches
of messages that the stream accepted. -/
structure Fleet where
  session : Session
  clock : Int
  memory : Nat → List (List Claim)
  stream : List (List Message)

namespace Fleet

abbrev Answer (α : Type) := Except (Stop StorageError) α

inductive Move
  | enqueue (e : NewEvent) (answer : Answer Int)
  | claim (relay limit : Nat) (lease : Span) (answer : Answer (List Claim))
  | publish (relay : Nat) (batch : List Claim) (accepted : Bool)
  | reconcile (relay : Nat) (batch : List Claim) (outcome : Outcome) (answer : Answer Unit)
  | crash (relay : Nat)
  | advance (clock : Int)

def table (s : Fleet) : Outbox.Table := s.session.tables.outbox

def now (s : Fleet) : Instant := .ofNanos s.clock

def remember (s : Fleet) (relay : Nat) : Answer (List Claim) → Nat → List (List Claim)
  | .ok batch => Function.update s.memory relay (batch :: s.memory relay)
  | .error _ => s.memory

def pushed (s : Fleet) (batch : List Claim) (accepted : Bool) : List (List Message) :=
  if accepted then s.stream ++ [batch.map messageOf] else s.stream

/-- What may happen. Relays write back only batches that they remember. The clock may be set to any
time. -/
inductive Step : Fleet → Move → Fleet → Prop
  | enqueue {s : Fleet} {e : NewEvent} {answer : Answer Int} {session : Session}
      (done : Sql.transaction id (Sql.enqueue e s.now) s.session = (answer, session)) :
      Step s (.enqueue e answer) { s with session }
  | claim {s : Fleet} {relay limit : Nat} {lease : Span} {answer : Answer (List Claim)}
      {session : Session} (done : Sql.claimBatch limit lease s.now s.session = (answer, session)) :
      Step s (.claim relay limit lease answer) { s with session, memory := s.remember relay answer }
  | publish {s : Fleet} {relay : Nat} {batch : List Claim} (held : batch ∈ s.memory relay)
      (accepted : Bool) :
      Step s (.publish relay batch accepted) { s with stream := s.pushed batch accepted }
  | reconcile {s : Fleet} {relay : Nat} {batch : List Claim} {outcome : Outcome}
      {answer : Answer Unit} {session : Session} (held : batch ∈ s.memory relay)
      (built : outcome.WritesBack batch)
      (done : Sql.reconcile outcome s.now s.session = (answer, session)) :
      Step s (.reconcile relay batch outcome answer) { s with session }
  | crash {s : Fleet} {relay : Nat} :
      Step s (.crash relay) { s with memory := Function.update s.memory relay [] }
  | advance {s : Fleet} {clock : Int} : Step s (.advance clock) { s with clock }

/-- The relays have claimed nothing yet, and the outbox is empty. -/
structure Fresh (s : Fleet) : Prop where
  table : s.table = .empty
  memory : ∀ relay, s.memory relay = []

namespace Move

def given : Move → List Claim
  | .claim _ _ _ (.ok claims) => claims
  | _ => []

def written : Move → List (Int × Int)
  | .reconcile _ _ outcome (.ok _) => outcome.tokens
  | _ => []

def gives (m : Move) (id : Int) : Bool := Outbox.Table.gives m.given id

theorem gives_claim {relay limit : Nat} {lease : Span} {claims : List Claim} {id : Int} :
    (Move.claim relay limit lease (.ok claims)).gives id = Outbox.Table.gives claims id := rfl

/-- What a move makes of a row that is there. -/
def rewrite (clock : Int) : Move → Row → Row
  | .claim _ _ lease (.ok claims), r =>
      if Outbox.Table.gives claims r.id then
        r.claimed (.ofNanos (clock + lease.nanos)) (.ofNanos clock)
      else r
  | .reconcile _ _ outcome (.ok _), r => outcome.applyTo (.ofNanos clock) r
  | _, r => r

/-- What a move can make of a row: a claim gives it out under a lease, a write-back ends the claim
that the row is live under, and all else leaves every column alone. -/
inductive Rewrites (clock : Int) : Move → Row → Row → Prop
  | claimed {relay limit : Nat} {lease : Span} {claims : List Claim} {r : Row}
      (given : Outbox.Table.gives claims r.id = true) :
      Rewrites clock (.claim relay limit lease (.ok claims)) r
        (r.claimed (.ofNanos (clock + lease.nanos)) (.ofNanos clock))
  | written {relay : Nat} {batch : List Claim} {outcome : Outcome} {u : Unit} {r r' : Row}
      (live : ∃ p ∈ outcome.tokens, r.Live p.1 p.2)
      (writes : outcome.Writes (.ofNanos clock) r r') :
      Rewrites clock (.reconcile relay batch outcome (.ok u)) r r'
  | kept {m : Move} {r : Row} (ungiven : m.gives r.id = false)
      (fenced : ∀ p ∈ m.written, ¬ r.Live p.1 p.2) : Rewrites clock m r r

variable {m : Move} {clock : Int} {r r' : Row}

theorem rewrites (m : Move) (clock : Int) (r : Row) : m.Rewrites clock r (m.rewrite clock r) := by
  cases m with
  | enqueue e answer => exact .kept rfl (by simp [Move.written])
  | claim relay limit lease answer =>
      cases answer with
      | error e => exact .kept rfl (by simp [Move.written])
      | ok claims =>
          by_cases given : Outbox.Table.gives claims r.id = true
          · rw [rewrite, if_pos given]
            exact .claimed given
          · rw [rewrite, if_neg given]
            exact .kept (Bool.eq_false_iff.2 given) (by simp [Move.written])
  | publish relay batch accepted => exact .kept rfl (by simp [Move.written])
  | reconcile relay batch outcome answer =>
      cases answer with
      | error e => exact .kept rfl (by simp [Move.written])
      | ok u =>
          rcases outcome.applyTo_cases (.ofNanos clock) r with ⟨fenced, same⟩ | ⟨live, writes⟩
          · rw [rewrite, same]
            exact .kept rfl fenced
          · exact .written live writes
  | crash relay => exact .kept rfl (by simp [Move.written])
  | advance clock => exact .kept rfl (by simp [Move.written])

theorem Rewrites.id_eq (h : m.Rewrites clock r r') : r'.id = r.id := by
  cases h with
  | claimed => rfl
  | written _ writes => exact writes.id_eq
  | kept => rfl

/-- Each claim of a row counts one attempt, and nothing else counts any. -/
theorem Rewrites.attempts_eq (h : m.Rewrites clock r r') :
    r'.attempts = r.attempts + if m.gives r.id then 1 else 0 := by
  cases h with
  | claimed given =>
      rw [gives_claim, if_pos given]
      rfl
  | written _ writes => simp [writes.attempts_eq, Move.gives, Move.given, Outbox.Table.gives]
  | kept ungiven => simp [ungiven]

theorem Rewrites.known (h : m.Rewrites clock r r') (hr : r.Known) : r'.Known := by
  cases h with
  | claimed => exact ⟨.processing, rfl⟩
  | written _ writes => exact writes.known
  | kept => exact hr

@[simp] theorem rewrite_id : (m.rewrite clock r).id = r.id := (m.rewrites clock r).id_eq

end Move

namespace Step

variable {s s' : Fleet} {m : Move} {r r' : Row}

/-! ## Steps and rows -/

/-- A move rewrites the rows one by one, or is one more event. -/
theorem table_cases (h : Step s m s') :
    s'.table = { s.table with rows := s.table.rows.map (m.rewrite s.clock) } ∨
    ∃ e n, m = .enqueue e (.ok n) ∧
      s'.table = (s.table.insert e.eventType (.ofJson e.payload) e.notBefore s.now).1 := by
  have same {m : Move} (hm : m.rewrite s.clock = fun r => r) {t : Fleet}
      (ht : t.session.tables = s.session.tables) :
      t.table = { s.table with rows := s.table.rows.map (m.rewrite s.clock) } := by
    simp [table, ht, hm]
  cases h with
  | enqueue done =>
      rcases Sql.enqueue_transaction done with ⟨rfl, ht⟩ | ⟨e, rfl, ht⟩
      · exact Or.inr ⟨_, _, rfl, congrArg Tables.outbox ht⟩
      · exact Or.inl (same rfl ht)
  | claim done =>
      rcases Sql.claimBatch_cases done with ⟨ending, hend, _, rfl, ht⟩ | ⟨e, rfl, ht⟩
      · rw [leaseEnd_ofNanos hend, Outbox.Table.claim_eq] at ht
        exact Or.inl (congrArg Tables.outbox ht)
      · exact Or.inl (same rfl ht)
  | publish => exact Or.inl (same rfl rfl)
  | reconcile held built done =>
      rcases Sql.reconcile_cases done with ⟨rfl, ht⟩ | ⟨e, rfl, ht⟩
      · exact Or.inl (congrArg Tables.outbox ht)
      · exact Or.inl (same rfl ht)
  | crash => exact Or.inl (same rfl rfl)
  | advance => exact Or.inl (same rfl rfl)

/-- An event that was stored is a new row under the id that was answered. -/
theorem enqueued {e : NewEvent} {n : Int} (h : Step s (.enqueue e (.ok n)) s') :
    n = s.table.lastId + 1 ∧
      s.table.newRow e.eventType (.ofJson e.payload) e.notBefore s.now ∈ s'.table.rows := by
  cases h with
  | enqueue done =>
      rcases Sql.enqueue_transaction done with ⟨hn, ht⟩ | ⟨_, hn, _⟩
      · refine ⟨Except.ok.inj hn, ?_⟩
        have ht := congrArg Tables.outbox ht
        rw [Tables.withOutbox_outbox] at ht
        rw [table, ht, Outbox.Table.insert_rows]
        exact List.mem_append_right _ (List.mem_singleton_self _)
      · cases hn

theorem given_eq {relay limit : Nat} {lease : Span} {claims : List Claim}
    (h : Step s (.claim relay limit lease (.ok claims)) s') :
    claims = s.table.given limit s.now := by
  cases h with
  | claim done =>
      rcases Sql.claimBatch_cases done with ⟨_, _, _, hr, _⟩ | ⟨e, hr, _⟩
      · exact Except.ok.inj hr
      · cases hr

theorem claimable {relay limit : Nat} {lease : Span} {claims : List Claim}
    (h : Step s (.claim relay limit lease (.ok claims)) s') :
    ∀ r ∈ s.table.due limit s.now, r.Claimable := by
  cases h with
  | claim done =>
      rcases Sql.claimBatch_cases done with ⟨_, _, claimable, _⟩ | ⟨e, hr, _⟩
      · exact claimable
      · cases hr

theorem ordered (h : Step s m s') (hs : s.table.Ordered) : s'.table.Ordered := by
  rcases h.table_cases with ht | ⟨e, n, _, ht⟩
  · rw [ht]
    exact hs.rewrite fun r => Move.rewrite_id
  · rw [ht]
    exact hs.insert _ _ _ _

theorem row_after (h : Step s m s') (hr : r ∈ s.table.rows) :
    ∃ r' ∈ s'.table.rows, m.Rewrites s.clock r r' := by
  rcases h.table_cases with ht | ⟨e, n, rfl, ht⟩
  · rw [ht]
    exact ⟨_, List.mem_map_of_mem hr, m.rewrites s.clock r⟩
  · rw [ht]
    exact ⟨r, List.mem_append_left _ hr, Move.rewrites (.enqueue e (.ok n)) s.clock r⟩

theorem row_before (h : Step s m s') (hr' : r' ∈ s'.table.rows) :
    (∃ r ∈ s.table.rows, m.Rewrites s.clock r r') ∨
    ∃ e n, m = .enqueue e (.ok n) ∧
      r' = s.table.newRow e.eventType (.ofJson e.payload) e.notBefore s.now := by
  rcases h.table_cases with ht | ⟨e, n, rfl, ht⟩
  · rw [ht] at hr'
    obtain ⟨r, hr, rfl⟩ := List.mem_map.1 hr'
    exact Or.inl ⟨r, hr, m.rewrites s.clock r⟩
  · rw [ht, Outbox.Table.insert_rows] at hr'
    rcases List.mem_append.1 hr' with hr | hr
    · exact Or.inl ⟨r', hr, Move.rewrites (.enqueue e (.ok n)) s.clock r'⟩
    · exact Or.inr ⟨e, n, rfl, List.mem_singleton.1 hr⟩

end Step

/-! ## Runs -/

section Runs

variable {s s' : Fleet} {trace : List (Transition Fleet Move)}

theorem ordered_of_run (run : Run Step s trace s') (hs : s.table.Ordered) : s'.table.Ordered :=
  run.keeps (P := fun s => s.table.Ordered) (fun h step => Step.ordered step h) hs

end Runs

/-! ## One event -/

def lone (status : Status) (attempts : Int) (next : Int) (leaseEnd : Option Int)
    (lastError : Option String) (updated : Int) : Outbox.Table where
  rows := [{
    id := 1, eventType := "check", payload := .ofJson .null
    status := status.text, attempts, nextAttemptAt := .ofNanos next
    processingUntil := leaseEnd.map .ofNanos, lastError
    createdAt := .ofNanos 0, updatedAt := .ofNanos updated }]
  lastId := 1

def loneClaim (attempts : Int) : Claim := ⟨1, "check", .null, attempts⟩

def heldOnce : Nat → List (List Claim) := Function.update (fun _ => []) 0 [[loneClaim 1]]

def heldTwice : Nat → List (List Claim) := Function.update heldOnce 1 [[loneClaim 2]]

def serving (table : Outbox.Table) (clock : Int) (memory : Nat → List (List Claim))
    (reports : List Report) : Fleet where
  session := ⟨⟨⟨[], 0, []⟩, table⟩, [], reports⟩
  clock := clock
  memory := memory
  stream := []

end Fleet

end Courier.Relay
