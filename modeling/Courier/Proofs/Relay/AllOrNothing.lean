import Courier.Proofs.Outbox.Due
import Courier.Proofs.Relay.Fleet
import Courier.Proofs.Relay.Protocol
import Courier.Proofs.Storage.Lifecycle
import Courier.Proofs.Storage.WritingBack

/-! # Rounds that fail

A round is two transactions with a push between them. Whichever statement of either the server fails,
whatever the stream says, and wherever a time leaves the calendar, the outbox is left in one of three
states: as it was, with the batch claimed and nothing else, or with every outcome of the batch
written. Nothing is inferred about the rows from the order in which they are written.
-/

namespace Courier.Storage.Sql

variable {α ε δ : Type} {x : Sql ε α} {s s' : Session}

theorem attempt_ok {a : α} (h : x s = (.ok a, s')) :
    (attempt x : Sql δ (Except ε α)) s = (.ok (.ok a), s') := by
  rw [attempt, h]

theorem attempt_error {e : ε} (h : x s = (.error (.error e), s')) :
    (attempt x : Sql δ (Except ε α)) s = (.ok (.error e), s') := by
  rw [attempt, h]

theorem attempt_crash (h : x s = (.error .crash, s')) :
    (attempt x : Sql δ (Except ε α)) s = (.error .crash, s') := by
  rw [attempt, h]

end Courier.Storage.Sql

namespace Courier.Relay

open Courier.Outbox Courier.Storage Courier.Stream

/-- What a round meets besides the database: the clock when it claims, decides and writes back, and
what the stream says to its push. -/
structure Occasion where
  claimedAt : Instant
  verdict : Except BrokerError Unit
  decidedAt : Instant
  writtenAt : Instant

namespace Occasion

/-- How the questions of a round are answered. Only a crash ends it before its end. -/
def answer (o : Occasion) : (c : Call) → Sql Empty c.Reply
  | .claim limit lease => Sql.attempt (Sql.claimBatch limit lease o.claimedAt)
  | .publish _ => pure o.verdict
  | .reconcile outcome => Sql.attempt (Sql.reconcile outcome o.writtenAt)
  | .now => pure o.decidedAt
  | .report _ => pure ()
  | .abort => throw .crash

def play {α : Type} (o : Occasion) (talk : Talk α) : Sql Empty α := talk.run o.answer

/-- What a round writes back of its batch; nothing when some next time is out of reach. -/
def outcome? (o : Occasion) (cfg : Config) (batch : List Claim) : Option Outcome :=
  match o.verdict with
  | .ok _ => some (.dispatched batch)
  | .error e => (decisions? cfg.policy batch o.decidedAt).map (Outcome.failed · e.message)

variable {o : Occasion} {cfg : Config} {s s' : Session} {batch : List Claim} {outcome : Outcome}
  {e : StorageError}

/-! ## The course of a round -/

theorem play_report {α : Type} (x : Report) (k : Unit → Talk α) :
    play o ((report x).bind k) = play o (k ()) := by
  funext s
  exact Sql.bind_of_ok rfl

theorem play_reports {α : Type} (reports : List Report) (k : PUnit → Talk α) :
    play o ((reports.forM report).bind k) = play o (k ⟨⟩) := by
  induction reports with
  | nil => rfl
  | cons x reports ih => exact (play_report x _).trans ih

theorem play_ask {c : Call} {reply : c.Reply} {α : Type} {k : c.Reply → Talk α}
    (h : o.answer c s = (.ok reply, s')) : play o (.ask c k) s = play o (k reply) s' :=
  Sql.bind_of_ok h

theorem play_stopped {c : Call} {stop : Stop Empty} {α : Type} {k : c.Reply → Talk α}
    (h : o.answer c s = (.error stop, s')) : play o (.ask c k) s = (.error stop, s') := by
  change (o.answer c >>= fun r => play o (k r)) s = _
  rw [Sql.bind_apply, h]

abbrev claims (o : Occasion) (cfg : Config) : Sql StorageError (List Claim) :=
  Sql.claimBatch cfg.batchSize cfg.lease o.claimedAt

/-- How a round may go, by what the database and the stream say. -/
inductive Goes (o : Occasion) (cfg : Config) (s : Session) :
    Except (Stop Empty) (Except WorkerError Summary) → Session → Prop
  | refused {e : StorageError} {s' : Session} (failed : o.claims cfg s = (.error (.error e), s')) :
      Goes o cfg s (.ok (.error (.storage e))) s'
  | crashed {s' : Session} (failed : o.claims cfg s = (.error .crash, s')) :
      Goes o cfg s (.error .crash) s'
  | idle {s' : Session} (nothing : o.claims cfg s = (.ok [], s')) :
      Goes o cfg s (.ok (.ok .nothing)) s'
  | undecided {batch : List Claim} {s' : Session} (claimed : o.claims cfg s = (.ok batch, s'))
      (some : batch ≠ []) (lost : o.outcome? cfg batch = none) : Goes o cfg s (.error .crash) s'
  | unwritten {batch : List Claim} {outcome : Outcome} {e : StorageError} {s₁ s' : Session}
      (claimed : o.claims cfg s = (.ok batch, s₁)) (some : batch ≠ [])
      (made : o.outcome? cfg batch = .some outcome)
      (failed : Sql.reconcile outcome o.writtenAt s₁ = (.error (.error e), s')) :
      Goes o cfg s (.ok (.error (.storage e))) s'
  | written {batch : List Claim} {outcome : Outcome} {summary : Summary} {s₁ s' : Session}
      (claimed : o.claims cfg s = (.ok batch, s₁)) (some : batch ≠ [])
      (made : o.outcome? cfg batch = .some outcome)
      (done : Sql.reconcile outcome o.writtenAt s₁ = (.ok (), s')) :
      Goes o cfg s (.ok (.ok summary)) s'

/-- A talk of a round that is played to an end, the way rounds may go. -/
def Way (o : Occasion) (cfg : Config) (s s₁ : Session)
    (talk : Talk (Except WorkerError Summary)) : Prop :=
  ∃ r s', play o talk s₁ = (r, s') ∧ Goes o cfg s r s'

/-- A write-back is answered one way or the other. -/
theorem answer_reconcile (o : Occasion) (outcome : Outcome) (s : Session) :
    (∃ s', Sql.reconcile outcome o.writtenAt s = (.ok (), s') ∧
      o.answer (.reconcile outcome) s = (.ok (.ok ()), s')) ∨
    ∃ e s', Sql.reconcile outcome o.writtenAt s = (.error (.error e), s') ∧
      o.answer (.reconcile outcome) s = (.ok (.error e), s') := by
  have survives : Sql.Survives (Sql.reconcile outcome o.writtenAt) :=
    (Sql.writeBack_survives outcome o.writtenAt).transaction
  cases done : Sql.reconcile outcome o.writtenAt s with
  | mk said s' =>
      rcases said with (e | _) | ⟨⟩
      · exact Or.inr ⟨e, s', rfl, Sql.attempt_error done⟩
      · exact absurd rfl (survives _ _ _ done)
      · exact Or.inl ⟨s', rfl, Sql.attempt_ok done⟩

variable {s₁ : Session}

theorem settleAccepted_way (claimed : o.claims cfg s = (.ok batch, s₁)) (some : batch ≠ [])
    (made : o.outcome? cfg batch = .some (.dispatched batch)) :
    Way o cfg s s₁ (settleAccepted batch) := by
  rcases answer_reconcile o (.dispatched batch) s₁ with ⟨s', done, asked⟩ | ⟨e, s', failed, asked⟩
  · exact ⟨.ok (.ok ⟨batch.length, batch.length, 0, 0⟩), s', (play_ask asked).trans rfl,
      .written claimed some made done⟩
  · exact ⟨.ok (.error (.storage e)), s', (play_ask asked).trans rfl,
      .unwritten claimed some made failed⟩

theorem settleRefused_way {ds : List Decision} {cause : BrokerError}
    (claimed : o.claims cfg s = (.ok batch, s₁)) (some : batch ≠ [])
    (made : o.outcome? cfg batch = .some (.failed ds cause.message)) :
    Way o cfg s s₁ (settleRefused batch ds cause) := by
  let retried := ds.countP Decision.isRetry
  have reported {r : Except (Stop Empty) (Except WorkerError Summary)} {s' : Session}
      {k : Except StorageError Unit → Talk (Except WorkerError Summary)} {x : Report}
      (h : play o (.ask (.reconcile (.failed ds cause.message)) k) s₁ = (r, s')) :
      play o (((burials ds).forM report).bind fun _ => (report x).bind fun _ =>
        .ask (.reconcile (.failed ds cause.message)) k) s₁ = (r, s') := by
    rw [play_reports, play_report]
    exact h
  rcases answer_reconcile o (.failed ds cause.message) s₁ with
    ⟨s', done, asked⟩ | ⟨e, s', failed, asked⟩
  · exact ⟨.ok (.ok ⟨batch.length, 0, retried, ds.length - retried⟩), s',
      reported ((play_ask asked).trans rfl), .written claimed some made done⟩
  · exact ⟨.ok (.error (.storage e)), s', reported ((play_ask asked).trans rfl),
      .unwritten claimed some made failed⟩

/-- What follows a claim that gave some events out. -/
theorem claimed_way {c : Claim} {cs : List Claim}
    (claimed : o.claims cfg s = (.ok (c :: cs), s₁))
    (asked : o.answer (.claim cfg.batchSize cfg.lease) s = (.ok (.ok (c :: cs)), s₁)) :
    Way o cfg s s (round cfg) := by
  have some : c :: cs ≠ [] := List.cons_ne_nil c cs
  have pushed : o.answer (.publish ((c :: cs).map messageOf)) s₁ = (.ok o.verdict, s₁) := rfl
  cases verdict : o.verdict with
  | ok u =>
      obtain ⟨r, s', done, goes⟩ := settleAccepted_way claimed some (by rw [outcome?, verdict])
      rw [verdict] at pushed
      refine ⟨r, s', (play_ask asked).trans ?_, goes⟩
      refine (congrFun (play_report _ _) s₁).trans ((play_ask pushed).trans done)
  | error cause =>
      rw [verdict] at pushed
      have told : o.answer .now s₁ = (.ok o.decidedAt, s₁) := rfl
      cases made : decisions? cfg.policy (c :: cs) o.decidedAt with
      | some ds =>
          have outcome : o.outcome? cfg (c :: cs) = .some (.failed ds cause.message) := by
            rw [outcome?, verdict]
            simp only [made, Option.map_some]
          obtain ⟨r, s', done, goes⟩ := settleRefused_way claimed some outcome
          refine ⟨r, s', (play_ask asked).trans ?_, goes⟩
          refine (congrFun (play_report _ _) s₁).trans ((play_ask pushed).trans ?_)
          refine (play_ask told).trans ?_
          simp only [Dialogue.bind, made]
          exact done
      | none =>
          refine ⟨.error .crash, s₁, (play_ask asked).trans ?_, .undecided claimed some ?_⟩
          · refine (congrFun (play_report _ _) s₁).trans ((play_ask pushed).trans ?_)
            refine (play_ask told).trans ?_
            simp only [Dialogue.bind, made]
            exact play_stopped rfl
          · rw [outcome?, verdict]
            simp only [made, Option.map_none]

theorem round_way (o : Occasion) (cfg : Config) (s : Session) : Way o cfg s s (round cfg) := by
  have asked : o.answer (.claim cfg.batchSize cfg.lease) s = Sql.attempt (o.claims cfg) s := rfl
  cases claimed : o.claims cfg s with
  | mk said s₁ =>
      rcases said with (e | _) | _ | ⟨c, cs⟩
      · exact ⟨_, s₁, (play_ask (asked.trans (Sql.attempt_error claimed))).trans rfl, .refused claimed⟩
      · exact ⟨_, s₁, play_stopped (asked.trans (Sql.attempt_crash claimed)), .crashed claimed⟩
      · exact ⟨_, s₁, (play_ask (asked.trans (Sql.attempt_ok claimed))).trans rfl, .idle claimed⟩
      · exact claimed_way claimed (asked.trans (Sql.attempt_ok claimed))

/-! ## The three states -/

/-- A row after a round that wrote its outcomes, by what the round found it to be. -/
inductive Written (o : Occasion) (cfg : Config) (ending : Instant) (t : Outbox.Table) :
    Row → Row → Prop
  | other {r : Row} (left : r ∉ t.due cfg.batchSize o.claimedAt) : Written o cfg ending t r r
  | dispatched {r : Row} (taken : r ∈ t.due cfg.batchSize o.claimedAt)
      (accepted : o.verdict = .ok ()) :
      Written o cfg ending t r ((r.claimed ending o.claimedAt).dispatched o.writtenAt)
  | retried {r : Row} {e : BrokerError} {next : Instant}
      (taken : r ∈ t.due cfg.batchSize o.claimedAt) (refused : o.verdict = .error e)
      (again : r.attempts + 1 < cfg.policy.maxAttempts)
      (time : cfg.policy.nextAttempt? (r.attempts + 1) o.decidedAt = some next) :
      Written o cfg ending t r ((r.claimed ending o.claimedAt).retried next e.message o.writtenAt)
  | dead {r : Row} {e : BrokerError} (taken : r ∈ t.due cfg.batchSize o.claimedAt)
      (refused : o.verdict = .error e) (spent : cfg.policy.maxAttempts ≤ r.attempts + 1) :
      Written o cfg ending t r ((r.claimed ending o.claimedAt).buried e.message o.writtenAt)

inductive Phase
  | untouched
  | claimed
  | written
  deriving DecidableEq

/-- What a round that ends in a phase leaves of an outbox. A batch has at least one event. -/
inductive Leaves (o : Occasion) (cfg : Config) (t : Outbox.Table) : Phase → Outbox.Table → Prop
  | untouched : Leaves o cfg t .untouched t
  | claimed {ending : Instant} (found : t.due cfg.batchSize o.claimedAt ≠ [])
      (ends : leaseEnd cfg.lease o.claimedAt = .ok ending) :
      Leaves o cfg t .claimed (t.claim cfg.batchSize ending o.claimedAt).1
  | written {ending : Instant} {rows : List Row} (found : t.due cfg.batchSize o.claimedAt ≠ [])
      (ends : leaseEnd cfg.lease o.claimedAt = .ok ending)
      (each : List.Forall₂ (Written o cfg ending t) t.rows rows) :
      Leaves o cfg t .written { t with rows }

def Phase.Shows (r r' : Row) : Phase → Prop
  | untouched => r'.attempts = r.attempts
  | claimed => r'.attempts = r.attempts + 1 ∧ r'.status = Status.processing.text
  | written => r'.attempts = r.attempts + 1 ∧ r'.status ≠ Status.processing.text

variable {t t' : Outbox.Table} {r r' : Row} {p p' : Phase} {ending : Instant}

theorem Phase.Shows.unique (h : p.Shows r r') (h' : p'.Shows r r') : p = p' := by
  cases p <;> cases p' <;> simp only [Shows] at h h' <;>
    first
    | rfl
    | omega
    | exact absurd h.2 h'.2
    | exact absurd h'.2 h.2

theorem Written.shows (h : Written o cfg ending t r r')
    (taken : r ∈ t.due cfg.batchSize o.claimedAt) : Phase.written.Shows r r' := by
  cases h with
  | other left => exact absurd taken left
  | dispatched => exact ⟨rfl, by simp [Row.dispatched, Status.text]⟩
  | retried => exact ⟨rfl, by simp [Row.retried, Status.text]⟩
  | dead => exact ⟨rfl, by simp [Row.buried, Status.text]⟩

namespace Leaves

/-- Every row of the batch looks as it does in the phase. -/
theorem shows (h : Leaves o cfg t p t') :
    List.Forall₂ (fun r r' => r ∈ t.due cfg.batchSize o.claimedAt → p.Shows r r')
      t.rows t'.rows := by
  cases h with
  | untouched => exact List.forall₂_same.2 fun r _ _ => rfl
  | @claimed ending =>
      rw [Table.claim_eq, List.forall₂_map_right_iff]
      refine List.forall₂_same.2 fun r _ taken => ?_
      have given : Table.gives (t.given cfg.batchSize o.claimedAt) r.id = true :=
        Table.gives_iff.2 ⟨r.claim, List.mem_map_of_mem taken, rfl⟩
      rw [if_pos given]
      exact ⟨rfl, rfl⟩
  | written some ends each => exact each.imp fun _ _ written => written.shows

theorem untouched_or_some (h : Leaves o cfg t p t') :
    p = .untouched ∨ t.due cfg.batchSize o.claimedAt ≠ [] := by
  cases h with
  | untouched => exact Or.inl rfl
  | claimed some => exact Or.inr some
  | written some => exact Or.inr some

theorem unique (h : Leaves o cfg t p t') (h' : Leaves o cfg t p' t') : p = p' := by
  by_cases empty : t.due cfg.batchSize o.claimedAt = []
  · have first : p = .untouched := h.untouched_or_some.resolve_right fun some => some empty
    have second : p' = .untouched := h'.untouched_or_some.resolve_right fun some => some empty
    rw [first, second]
  · -- one row of the batch tells the phases apart
    obtain ⟨r, taken⟩ := List.exists_mem_of_ne_nil _ empty
    obtain ⟨i, hi, rfl⟩ := List.getElem_of_mem (Table.mem_of_mem_due taken).1
    have shown := h.shows
    have hi' : i < t'.rows.length := shown.length_eq ▸ hi
    exact (shown.get hi hi' taken).unique (h'.shows.get hi hi' taken)

end Leaves

/-! ## Every outcome of the batch -/

/-- What is decided about a row of the batch is written to it. -/
theorem settled_row (ordered : t.Ordered) {ds : List Decision} {cause : BrokerError}
    (refused : o.verdict = .error cause)
    (made : decisions? cfg.policy (t.given cfg.batchSize o.claimedAt) o.decidedAt = some ds)
    (taken : r ∈ t.due cfg.batchSize o.claimedAt) :
    Written o cfg ending t r
      (Outcome.written o.writtenAt (.failed ds cause.message) (r.claimed ending o.claimedAt)) := by
  have given : r.claim ∈ t.given cfg.batchSize o.claimedAt := List.mem_map_of_mem taken
  have tokens : ds.map Decision.token = (t.given cfg.batchSize o.claimedAt).map Claim.token :=
    (decisions_writesBack (e := cause.message) made).tokens
  obtain ⟨own, mem, token⟩ : ∃ d ∈ ds, d.token = r.claim.token := by
    have held : r.claim.token ∈ ds.map Decision.token := tokens ▸ List.mem_map_of_mem given
    exact List.mem_map.1 held
  obtain ⟨ownId, ownAttempts⟩ := Prod.mk.inj token
  unfold Outcome.written
  dsimp only
  cases found : ds.find? fun d => (r.claimed ending o.claimedAt).Live d.id d.attempts with
  | none =>
      have dead := List.find?_eq_none.1 found own mem
      exact absurd (by simpa [Row.Live, ownId, ownAttempts] using ⟨rfl, rfl, rfl⟩) dead
  | some d =>
      obtain ⟨c, hc, decided⟩ := decided_of_mem made (List.mem_of_find?_eq_some found)
      have live : (r.claimed ending o.claimedAt).Live d.id d.attempts := by
        simpa using List.find?_some found
      obtain ⟨a, ha, rfl⟩ := List.mem_map.1 hc
      obtain ⟨did, _⟩ := Prod.mk.inj (decide?_token decided)
      -- The decision is on the claim of this very row, since ids find one row.
      obtain rfl : a = r := ordered.eq_of_id_eq (Table.mem_of_mem_due ha).1
        (Table.mem_of_mem_due taken).1 (did.symm.trans live.1.symm)
      cases d with
      | retry id attempts next =>
          obtain ⟨again, time, _⟩ := nextAttempt_of_decide?_retry decided
          exact .retried taken refused again time
      | dead id attempts =>
          obtain ⟨spent, _⟩ := attempts_of_decide?_dead decided
          exact .dead taken refused spent

theorem outcome?_writesBack (made : o.outcome? cfg batch = some outcome) :
    outcome.WritesBack batch := by
  unfold outcome? at made
  cases verdict : o.verdict with
  | ok u =>
      rw [verdict] at made
      cases made
      exact .dispatched
  | error cause =>
      rw [verdict] at made
      obtain ⟨ds, decided, rfl⟩ := Option.map_eq_some_iff.1 made
      exact decisions_writesBack decided

theorem written_row (ordered : t.Ordered)
    (made : o.outcome? cfg (t.given cfg.batchSize o.claimedAt) = some outcome)
    (hr : r ∈ t.rows) :
    Written o cfg ending t r (outcome.written o.writtenAt
      (if Table.gives (t.given cfg.batchSize o.claimedAt) r.id then r.claimed ending o.claimedAt
        else r)) := by
  by_cases taken : r ∈ t.due cfg.batchSize o.claimedAt
  · rw [if_pos ((ordered.gives_given_iff hr).2 taken)]
    unfold outcome? at made
    cases verdict : o.verdict with
    | ok u =>
        rw [verdict] at made
        cases made
        have live : ∃ c ∈ t.given cfg.batchSize o.claimedAt,
            (r.claimed ending o.claimedAt).Live c.id c.attempts :=
          ⟨r.claim, List.mem_map_of_mem taken, rfl, rfl, rfl⟩
        rw [Outcome.written, if_pos live]
        exact .dispatched taken verdict
    | error cause =>
        rw [verdict] at made
        obtain ⟨ds, decided, rfl⟩ := Option.map_eq_some_iff.1 made
        exact settled_row ordered verdict decided taken
  · have out : ¬ Table.gives (t.given cfg.batchSize o.claimedAt) r.id = true :=
      fun given => taken ((ordered.gives_given_iff hr).1 given)
    rw [if_neg out, ← Outcome.applyTo_eq_written]
    rcases Outcome.applyTo_cases outcome o.writtenAt r with ⟨_, same⟩ | ⟨⟨p, hp, live⟩, _⟩
    · rw [same]
      exact .other taken
    · rw [(outcome?_writesBack made).tokens] at hp
      obtain ⟨c, hc, rfl⟩ := List.mem_map.1 hp
      exact absurd (Table.gives_iff.2 ⟨c, hc, live.1.symm⟩) out

/-! ## All or nothing -/

/-- The phase that a round ends in, by the answer to its claim and its own result: it has no batch,
or a batch and no result, or a batch and a result. -/
def Phase.of : Except (Stop StorageError) (List Claim) →
    Except (Stop Empty) (Except WorkerError Summary) → Phase
  | .ok (_ :: _), .ok (.ok _) => .written
  | .ok (_ :: _), _ => .claimed
  | _, _ => .untouched

def ClaimFails (o : Occasion) (cfg : Config) (s : Session) (e : StorageError) : Prop :=
  (o.claims cfg s).1 = .error (.error e)

/-- The claim of a round gives out a batch, and its write-back is answered with an error. -/
def WriteBackFails (o : Occasion) (cfg : Config) (s : Session) (e : StorageError) : Prop :=
  ∃ batch outcome, (o.claims cfg s).1 = .ok batch ∧ batch ≠ [] ∧
    o.outcome? cfg batch = some outcome ∧
    (Sql.reconcile outcome o.writtenAt (o.claims cfg s).2).1 = .error (.error e)

/-- What is to be expected of a round that is alone with its outbox.

* `once`: it leaves the outbox in one of the three states, and in no other of them.
* `phase`: which one it is.
* `failed`: it ends with an error exactly if its claim or its write-back does, and with that error.
* `crashed`: apart from that, only a time outside the calendar, or an attempt that its claim cannot
  count, keeps it from a result.
* `checks`: it touches no other table. -/
structure EndsWhole (o : Occasion) (cfg : Config) (s : Session)
    (r : Except (Stop Empty) (Except WorkerError Summary)) (s' : Session) : Prop where
  once : ∃! p, Leaves o cfg s.tables.outbox p s'.tables.outbox
  phase : Leaves o cfg s.tables.outbox (.of (o.claims cfg s).1 r) s'.tables.outbox
  failed : ∀ e, r = .ok (.error e) ↔
    ∃ cause, e = .storage cause ∧ (ClaimFails o cfg s cause ∨ WriteBackFails o cfg s cause)
  crashed : r = .error .crash ↔ (o.claims cfg s).1 = .error .crash ∨
    ∃ batch, (o.claims cfg s).1 = .ok batch ∧ batch ≠ [] ∧ o.outcome? cfg batch = none
  checks : s'.tables.checks = s.tables.checks

theorem claims_error {stop : Stop StorageError} (failed : o.claims cfg s = (.error stop, s')) :
    s'.tables = s.tables := by
  rcases Sql.claimBatch_cases failed with ⟨_, _, _, done, _⟩ | ⟨_, _, same⟩
  · cases done
  · exact same

theorem claims_ok (claimed : o.claims cfg s = (.ok batch, s₁)) :
    batch = s.tables.outbox.given cfg.batchSize o.claimedAt ∧
      ∃ ending, leaseEnd cfg.lease o.claimedAt = .ok ending ∧ s₁.tables =
        s.tables.withOutbox (s.tables.outbox.claim cfg.batchSize ending o.claimedAt).1 := by
  rcases Sql.claimBatch_cases claimed with ⟨ending, ends, _, given, written⟩ | ⟨_, failed, _⟩
  · exact ⟨Except.ok.inj given, ending, ends, written⟩
  · cases failed

theorem due_of_given {c : Claim} {cs : List Claim}
    (given : c :: cs = t.given cfg.batchSize o.claimedAt) :
    t.due cfg.batchSize o.claimedAt ≠ [] := by
  intro empty
  rw [Table.given, empty] at given
  cases given

/-- A round that claimed a batch and wrote nothing. -/
theorem claimed_phase {c : Claim} {cs : List Claim}
    (claimed : o.claims cfg s = (.ok (c :: cs), s₁)) (same : s'.tables = s₁.tables) :
    Leaves o cfg s.tables.outbox .claimed s'.tables.outbox ∧
      s'.tables.checks = s.tables.checks := by
  obtain ⟨given, ending, ends, written⟩ := claims_ok claimed
  rw [same, written]
  exact ⟨.claimed (due_of_given given) ends, rfl⟩

/-- A round that wrote what became of its batch. -/
theorem written_phase (ordered : s.tables.outbox.Ordered) {c : Claim} {cs : List Claim}
    (claimed : o.claims cfg s = (.ok (c :: cs), s₁))
    (made : o.outcome? cfg (c :: cs) = some outcome)
    (done : Sql.reconcile outcome o.writtenAt s₁ = (.ok (), s')) :
    Leaves o cfg s.tables.outbox .written s'.tables.outbox ∧
      s'.tables.checks = s.tables.checks := by
  obtain ⟨given, ending, ends, written⟩ := claims_ok claimed
  have rewritten := (Sql.writesWhole outcome o.writtenAt (s := s₁) (by
    rw [written]
    exact ordered.claim cfg.batchSize ending o.claimedAt)).whole s' done
  rw [rewritten, written]
  refine ⟨.written (due_of_given given) ends ?_, rfl⟩
  rw [Tables.withOutbox_outbox, Table.claim_eq, List.map_map, List.forall₂_map_right_iff]
  rw [given] at made
  exact List.forall₂_same.2 fun r hr => written_row ordered made hr

theorem Goes.phase (ordered : s.tables.outbox.Ordered)
    {r : Except (Stop Empty) (Except WorkerError Summary)} (h : Goes o cfg s r s') :
    Leaves o cfg s.tables.outbox (.of (o.claims cfg s).1 r) s'.tables.outbox ∧
      s'.tables.checks = s.tables.checks := by
  cases h with
  | refused failed =>
      rw [failed, claims_error failed]
      exact ⟨.untouched, rfl⟩
  | crashed failed =>
      rw [failed, claims_error failed]
      exact ⟨.untouched, rfl⟩
  | idle nothing =>
      obtain ⟨given, ending, _, written⟩ := claims_ok nothing
      have same : (s.tables.outbox.claim cfg.batchSize ending o.claimedAt).1 = s.tables.outbox := by
        simp [Table.claim_eq, ← given, Table.gives]
      rw [nothing, written, same]
      exact ⟨.untouched, rfl⟩
  | @undecided batch _ claimed some lost =>
      obtain ⟨c, cs, rfl⟩ := List.exists_cons_of_ne_nil some
      rw [claimed]
      exact claimed_phase claimed rfl
  | @unwritten batch _ _ _ _ claimed some made failed =>
      -- the write-back rolls back to what the claim had committed
      obtain ⟨c, cs, rfl⟩ := List.exists_cons_of_ne_nil some
      rw [claimed]
      refine claimed_phase claimed ?_
      rcases Sql.reconcile_cases failed with ⟨done, _⟩ | ⟨_, _, same⟩
      · cases done
      · exact same
  | @written batch _ _ _ _ claimed some made done =>
      obtain ⟨c, cs, rfl⟩ := List.exists_cons_of_ne_nil some
      rw [claimed]
      exact written_phase ordered claimed made done

theorem Goes.failed {r : Except (Stop Empty) (Except WorkerError Summary)}
    (h : Goes o cfg s r s') (e : WorkerError) : r = .ok (.error e) ↔
      ∃ cause, e = .storage cause ∧ (ClaimFails o cfg s cause ∨ WriteBackFails o cfg s cause) := by
  unfold ClaimFails WriteBackFails
  cases h with
  | refused failed => simp [failed, eq_comm]
  | crashed failed => simp [failed]
  | idle nothing => simp [nothing]
  | undecided claimed some lost => simp [claimed, some, lost]
  | unwritten claimed some made failed => simp [claimed, some, made, failed, eq_comm]
  | written claimed some made done => simp [claimed, some, made, done]

theorem Goes.stopped {r : Except (Stop Empty) (Except WorkerError Summary)}
    (h : Goes o cfg s r s') : r = .error .crash ↔ (o.claims cfg s).1 = .error .crash ∨
      ∃ batch, (o.claims cfg s).1 = .ok batch ∧ batch ≠ [] ∧ o.outcome? cfg batch = none := by
  cases h with
  | refused failed => simp [failed]
  | crashed failed => simp [failed]
  | idle nothing => simp [nothing]
  | undecided claimed some lost => simp [claimed, some, lost]
  | unwritten claimed some made failed => simp [claimed, made]
  | written claimed some made done => simp [claimed, made]

/-- Rounds are all or nothing, and so is every write-back, also of a batch that other relays have
taken over in the meantime.

* `writesBack`: of any outcome, at any moment.
* `round`: on any occasion. -/
structure AllOrNothing (o : Occasion) (cfg : Config) (s : Session) : Prop where
  writesBack : ∀ outcome now, Sql.WritesWhole outcome now s
  round : EndsWhole o cfg s (play o (Relay.round cfg) s).1 (play o (Relay.round cfg) s).2

/-- Whatever the rows of an outbox say, and whatever the server fails. -/
theorem all_or_nothing (o : Occasion) (cfg : Config) (ordered : s.tables.outbox.Ordered) :
    AllOrNothing o cfg s where
  writesBack := fun outcome now => Sql.writesWhole outcome now ordered
  round := by
    obtain ⟨r, s', done, goes⟩ := round_way o cfg s
    rw [done]
    obtain ⟨left, checks⟩ := goes.phase ordered
    exact ⟨⟨_, left, fun _ other => other.unique left⟩, left, goes.failed, goes.stopped, checks⟩

/-- A batch of two events, of which one is to be given up. The push is refused, and the server fails
the very last statement of the round, when both decisions have been written: the batch is claimed,
and nothing else. -/
theorem all_or_nothing_commit :
    let occasion : Occasion :=
      ⟨.ofNanos 12, .error (.unavailable "down"), .ofNanos 13, .ofNanos 14⟩
    let cfg : Config := ⟨.withMaxAttempts 2, 9, .ofMillis 500, ⟨7⟩⟩
    let s : Session := { Operation.mixed with outages := List.replicate 7 false ++ [true] }
    AllOrNothing occasion cfg s ∧
      (play occasion (Relay.round cfg) s).1 =
        .ok (.error (.storage (.database "statement failed"))) ∧
      (play occasion (Relay.round cfg) s).2.tables.outbox.rows.map
          (fun r => (r.id, r.status, r.attempts)) =
        [(1, "succeeded", 2), (2, "archived", 0), (3, "processing", 2), (4, "processing", 1)] := by
  intro occasion cfg s
  have ordered : s.tables.outbox.Ordered := ⟨by decide, by decide⟩
  exact ⟨all_or_nothing occasion cfg ordered, by decide +kernel, by decide +kernel⟩

end Occasion

end Courier.Relay
