import Courier.Proofs.Outbox.Backoff
import Courier.Proofs.Relay.Fleet
import Courier.Proofs.Relay.Protocol
import Courier.Proofs.Storage.Claiming

/-! # A round while the clock stands still

A relay that is alone with its outbox does a round at one moment. Nothing is assumed about which push
is refused, nor about which statements the server fails. However that goes, the round returns, unless
an event was claimed so often that its claim cannot count once more. Either the claim fails, and the
round changes nothing, or it takes the next rows that are due, and none of them is due again at that
moment: events that are dispatched or given up never are, an event that is put back waits for two
seconds or more, and one that the round leaves behind is leased.
-/

namespace Courier.Relay

open Courier.Outbox Courier.Storage Courier.Stream

/-- A relay's collaborators while the clock stands still: the database, what the stream says to the
pushes to come (it accepts those beyond the list), and the batches claimed and pushed so far. -/
structure Standstill where
  session : Session
  verdicts : List (Except BrokerError Unit)
  claims : List (List Claim)
  pushes : List (List Message)

namespace Standstill

def table (s : Standstill) : Outbox.Table := s.session.tables.outbox

abbrev Work (α : Type) := StateT Standstill Option α

def query {α : Type} (w : Sql StorageError α) : Work (Except StorageError α) := fun s =>
  match w s.session with
  | (.ok a, session) => some (.ok a, { s with session })
  | (.error (.error e), session) => some (.error e, { s with session })
  | (.error .crash, _) => none

def answer (now : Instant) : (c : Call) → Work c.Reply
  | .claim limit lease => fun s =>
      (query (Sql.claimBatch limit lease now) s).map fun (r, s') =>
        (r, { s' with claims := s'.claims ++ r.toOption.toList })
  | .publish messages => fun s =>
      some (s.verdicts.headD (.ok ()),
        { s with verdicts := s.verdicts.tail, pushes := s.pushes ++ [messages] })
  | .reconcile o => query (Sql.reconcile o now)
  | .now => fun s => some (now, s)
  | .report _ => fun s => some ((), s)
  | .abort => fun _ => none

def play {α : Type} (now : Instant) (talk : Talk α) : Work α := talk.run (answer now)

def Step (cfg : Config) (now : Instant) (s : Standstill) (r : Except WorkerError Summary)
    (s' : Standstill) : Prop := play now (round cfg) s = some (r, s')

variable {cfg : Config} {now : Instant} {s s' : Standstill} {r : Except WorkerError Summary}

/-! ## Questions -/

theorem play_lost {c : Call} {α : Type} {k : c.Reply → Talk α} (h : answer now c s = none) :
    play now (.ask c k) s = none := by
  change (answer now c s).bind (fun p => play now (k p.1) p.2) = _
  rw [h]
  rfl

theorem play_ask {c : Call} {reply : c.Reply} {α : Type} {k : c.Reply → Talk α}
    (h : answer now c s = some (reply, s')) : play now (.ask c k) s = play now (k reply) s' := by
  change (answer now c s).bind (fun p => play now (k p.1) p.2) = _
  rw [h]
  rfl

theorem play_report {α : Type} (x : Report) (k : Unit → Talk α) (s : Standstill) :
    play now ((report x).bind k) s = play now (k ()) s := rfl

theorem play_reports {α : Type} (reports : List Report) (k : PUnit → Talk α) (s : Standstill) :
    play now ((reports.forM report).bind k) s = play now (k ⟨⟩) s := by
  induction reports with
  | nil => rfl
  | cons x reports ih => exact ih

theorem query_cases {α : Type} (w : Sql StorageError α) (s : Standstill) :
    (∃ a session, w s.session = (.ok a, session) ∧
      query w s = some (.ok a, { s with session })) ∨
    (∃ e session, w s.session = (.error (.error e), session) ∧
      query w s = some (.error e, { s with session })) ∨
    ∃ session, w s.session = (.error .crash, session) ∧ query w s = none := by
  unfold query
  rcases w s.session with ⟨(e | _) | a, session⟩
  · exact Or.inr (Or.inl ⟨e, session, rfl, rfl⟩)
  · exact Or.inr (Or.inr ⟨session, rfl, rfl⟩)
  · exact Or.inl ⟨a, session, rfl, rfl⟩

/-- The next attempt of an event of the batch cannot be counted. -/
def Full (limit : Nat) (now : Instant) (s : Standstill) : Prop :=
  ∃ r ∈ s.table.due limit now, ¬ Text.InHalfWord (r.attempts + 1)

/-- A claim takes the first rows that are due; or it fails, which takes a server that is not up or a
row that cannot be claimed; or the relay does not survive it. -/
theorem answer_claim {limit : Nat} {lease : Span} {ending : Instant} (small : limit ≤ largestLimit)
    (ends : leaseEnd lease now = .ok ending) (s : Standstill) :
    (∃ session, session.tables =
        s.session.tables.withOutbox (s.table.claim limit ending now).1 ∧
      (Sql.Up s.session → Sql.Up session) ∧
      answer now (.claim limit lease) s = some (.ok (s.table.given limit now),
        { s with session, claims := s.claims ++ [s.table.given limit now] })) ∨
    ((Sql.Up s.session → ∃ r ∈ s.table.due limit now, ¬ r.Claimable) ∧
      ∃ e session, session.tables = s.session.tables ∧
        answer now (.claim limit lease) s = some (.error e, { s with session })) ∨
    (Full limit now s ∧ answer now (.claim limit lease) s = none) := by
  rcases query_cases (Sql.claimBatch limit lease now) s with
    ⟨batch, session, done, asked⟩ | ⟨e, session, done, asked⟩ | ⟨session, done, asked⟩
  · rcases Sql.claimBatch_cases done with ⟨ending', ends', claimable, given, written⟩ |
      ⟨e, refused, _⟩
    · cases ends.symm.trans ends'
      cases given
      refine Or.inl ⟨session, written, ?_, ?_⟩
      · intro up
        cases done.symm.trans (Sql.claimBatch_up up small ends claimable)
        exact up
      · simp only [answer, asked, Option.map_some]
        rfl
    · cases refused
  · refine Or.inr (Or.inl ⟨?_, e, session, ?_, ?_⟩)
    · intro up
      by_contra none
      have claimable : ∀ r ∈ s.table.due limit now, r.Claimable := by simpa using none
      cases done.symm.trans (Sql.claimBatch_up up small ends claimable)
    · rcases Sql.claimBatch_cases done with ⟨_, _, _, given, _⟩ | ⟨_, _, same⟩
      · cases given
      · exact same
    · simp only [answer, asked, Option.map_some]
      simp [Except.toOption]
  · refine Or.inr (Or.inr ⟨Sql.claimBatch_crash small ends done, ?_⟩)
    simp only [answer, asked, Option.map_none]

theorem answer_reconcile (o : Outcome) (s : Standstill) :
    (∃ session, Sql.reconcile o now s.session = (.ok (), session) ∧
      answer now (.reconcile o) s = some (.ok (), { s with session })) ∨
    ∃ e session, Sql.reconcile o now s.session = (.error (.error e), session) ∧
      answer now (.reconcile o) s = some (.error e, { s with session }) := by
  have survives : Sql.Survives (Sql.reconcile o now) := (Sql.writeBack_survives o now).transaction
  rcases query_cases (Sql.reconcile o now) s with ⟨⟨⟩, session, done, asked⟩ | refused |
    ⟨session, crashed, _⟩
  · exact Or.inl ⟨session, done, asked⟩
  · exact Or.inr refused
  · exact absurd rfl (survives _ _ _ crashed)

/-! ## The end of a round -/

/-- How a round that claimed some events ends, by what the database says to its write-back. -/
inductive Ends (now : Instant) (o : Outcome) (claimed : Nat) (s : Standstill) :
    Except WorkerError Summary → Standstill → Prop
  | written {summary : Summary} {session : Session} (counts : summary.claimed = claimed)
      (done : Sql.reconcile o now s.session = (.ok (), session)) :
      Ends now o claimed s (.ok summary) { s with session }
  | failed {e : StorageError} {session : Session}
      (done : Sql.reconcile o now s.session = (.error (.error e), session)) :
      Ends now o claimed s (.error (.storage e)) { s with session }

theorem settleAccepted_ends (now : Instant) (batch : List Claim) (s : Standstill) :
    ∃ r s', play now (settleAccepted batch) s = some (r, s') ∧
      Ends now (.dispatched batch) batch.length s r s' := by
  rcases answer_reconcile (.dispatched batch) s with
    ⟨session, done, asked⟩ | ⟨e, session, done, asked⟩
  · refine ⟨.ok ⟨batch.length, batch.length, 0, 0⟩, { s with session }, ?_, .written rfl done⟩
    exact (play_ask asked).trans rfl
  · refine ⟨.error (.storage e), { s with session }, ?_, .failed done⟩
    exact (play_ask asked).trans rfl

theorem settleRefused_ends (now : Instant) (batch : List Claim) (ds : List Decision)
    (e : BrokerError) (s : Standstill) : ∃ r s', play now (settleRefused batch ds e) s = some (r, s') ∧
      Ends now (.failed ds e.message) batch.length s r s' := by
  let retried := ds.countP Decision.isRetry
  rcases answer_reconcile (.failed ds e.message) s with
    ⟨session, done, asked⟩ | ⟨e', session, done, asked⟩
  · refine ⟨.ok ⟨batch.length, 0, retried, ds.length - retried⟩, { s with session }, ?_,
      .written rfl done⟩
    exact (play_reports _ _ s).trans ((play_report _ _ s).trans ((play_ask asked).trans rfl))
  · refine ⟨.error (.storage e'), { s with session }, ?_, .failed done⟩
    exact (play_reports _ _ s).trans ((play_report _ _ s).trans ((play_ask asked).trans rfl))

namespace Ends

variable {o : Outcome} {claimed : Nat}

theorem claims_eq (h : Ends now o claimed s r s') : s'.claims = s.claims := by
  cases h <;> rfl

theorem counts (h : Ends now o claimed s r s') (summary : Summary) (done : r = .ok summary) :
    summary.claimed = claimed := by
  cases h with
  | written counts _ =>
      cases done
      exact counts
  | failed _ => cases done

theorem pushes_eq (h : Ends now o claimed s r s') : s'.pushes = s.pushes := by
  cases h <;> rfl

/-- Where no row is due whose claim is written back, none becomes due. -/
theorem leaves (h : Ends now o claimed s r s') (ordered : s.table.Ordered)
    (postpones : o.Postpones now)
    (leased : ∀ r ∈ s.table.rows, r.Due now → ∀ p ∈ o.tokens, ¬ r.Live p.1 p.2) :
    s'.table.Ordered ∧ s'.table.dueRows now = s.table.dueRows now := by
  have written (said : Except (Stop StorageError) Unit) (session : Session)
      (done : Sql.reconcile o now s.session = (said, session)) :
      session.tables.outbox.Ordered ∧ session.tables.outbox.dueRows now = s.table.dueRows now := by
    rcases Sql.reconcile_cases done with ⟨_, rows⟩ | ⟨_, _, same⟩
    · rw [rows, Tables.withOutbox_outbox]
      exact ⟨ordered.rewrite fun _ => Outcome.applyTo_id,
        Table.dueRows_writeBack postpones leased⟩
    · rw [same]
      exact ⟨ordered, rfl⟩
  cases h with
  | written _ done => exact written _ _ done
  | failed done => exact written _ _ done

/-- A server that is up writes back claims that are all live. -/
theorem up (h : Ends now o claimed s r s') (up : Sql.Up s.session) (ordered : s.table.Ordered)
    {batch : List Claim} (built : o.WritesBack batch) (once : (batch.map (·.id)).Nodup)
    (live : ∀ c ∈ batch, ∃ r ∈ s.table.rows, r.Live c.id c.attempts) :
    Sql.Up s'.session ∧ ∃ summary, r = .ok summary := by
  obtain ⟨t, written, tup⟩ := Sql.writeBack_live now up ordered built once live
  have answered : Sql.reconcile o now s.session = (.ok (), t) :=
    Sql.transaction_up up written tup
  cases h with
  | written _ done =>
      cases done.symm.trans answered
      exact ⟨tup, _, rfl⟩
  | failed done => cases done.symm.trans answered

end Ends

/-! ## One round -/

theorem exists_decisions {p : RetryPolicy} {batch : List Claim}
    (reach : ∀ c ∈ batch, ∃ next, p.nextAttempt? c.attempts now = some next) :
    ∃ ds, decisions? p batch now = some ds := by
  induction batch with
  | nil => exact ⟨[], rfl⟩
  | cons c batch ih =>
      obtain ⟨ds, rest⟩ := ih fun c' hc' => reach c' (List.mem_cons_of_mem c hc')
      obtain ⟨d, decided⟩ : ∃ d, p.decide? c.id c.attempts now = some d := by
        obtain ⟨next, hnext⟩ := reach c List.mem_cons_self
        unfold RetryPolicy.decide?
        split
        · exact ⟨_, by rw [hnext, Option.map_some]⟩
        · exact ⟨_, rfl⟩
      refine ⟨d :: ds, ?_⟩
      unfold decisions? at rest ⊢
      simp [decided, rest]

/-- The waits of relays are none that end at once. -/
theorem postpones_of_decisions {maxAttempts : Int} {batch : List Claim} {ds : List Decision}
    (h : decisions? (.withMaxAttempts maxAttempts) batch now = some ds) (lastError : String) :
    (Outcome.failed ds lastError).Postpones now := by
  intro id attempts next mem
  obtain ⟨c, _, decided⟩ := decided_of_mem h mem
  obtain ⟨_, reached, _⟩ := nextAttempt_of_decide?_retry decided
  exact RetryPolicy.lt_nextAttempt? reached

/-- The settings of a relay, and the times that it writes at `now` about the events that are due in
`t`, are within their bounds. -/
structure InBounds (cfg : Config) (now : Instant) (t : Outbox.Table) : Prop where
  policy : ∃ maxAttempts, cfg.policy = .withMaxAttempts maxAttempts
  positive : 1 ≤ cfg.batchSize
  small : cfg.batchSize ≤ largestLimit
  second : .ofSeconds 1 ≤ cfg.lease
  calendar : now.InCalendar
  lease : ∃ ending, now.add? cfg.lease.nanos = some ending
  retries : ∀ r ∈ t.dueRows now, ∃ next, cfg.policy.nextAttempt? (r.attempts + 1) now = some next

/-- The pushes of some batches: each that is not empty is pushed once and whole. -/
def pushesOf (claims : List (List Claim)) : List (List Message) :=
  (claims.filter fun batch => !batch.isEmpty).map fun batch => batch.map messageOf

/-- A round whose claim is answered: it takes the next rows that are due, and leaves due the others. -/
structure Worked (cfg : Config) (now : Instant) (s : Standstill) (r : Except WorkerError Summary)
    (s' : Standstill) : Prop where
  claims : s'.claims = s.claims ++ [s.table.given cfg.batchSize now]
  pushes : s'.pushes = s.pushes ++ pushesOf [s.table.given cfg.batchSize now]
  ordered : s'.table.Ordered
  due : s'.table.dueRows now = (s.table.dueRows now).drop cfg.batchSize
  counts : ∀ summary, r = .ok summary →
    summary.claimed = (s.table.given cfg.batchSize now).length
  up : Sql.Up s.session → Sql.Up s'.session ∧ ∃ summary, r = .ok summary

/-- A round whose claim fails, which changes nothing. -/
structure Unanswered (cfg : Config) (now : Instant) (s : Standstill)
    (r : Except WorkerError Summary) (s' : Standstill) : Prop where
  claims : s'.claims = s.claims
  pushes : s'.pushes = s.pushes
  tables : s'.session.tables = s.session.tables
  failed : ∃ e, r = .error e
  cause : Sql.Up s.session → ∃ q ∈ s.table.due cfg.batchSize now, ¬ q.Claimable

variable {t : Outbox.Table}

/-- The batch is pushed, and the round ends with one write-back of it. -/
theorem play_claimed (bounds : InBounds cfg now t) {c : Claim} {cs : List Claim} {s₁ : Standstill}
    (reach : ∀ d ∈ c :: cs, ∃ next, cfg.policy.nextAttempt? d.attempts now = some next)
    (claimed : answer now (.claim cfg.batchSize cfg.lease) s = some (.ok (c :: cs), s₁)) :
    ∃ r s' o, Step cfg now s r s' ∧ o.WritesBack (c :: cs) ∧ o.Postpones now ∧
      Ends now o (c :: cs).length { s₁ with
        verdicts := s₁.verdicts.tail
        pushes := s₁.pushes ++ [(c :: cs).map messageOf] } r s' := by
  let batch := c :: cs
  let s₂ : Standstill := { s₁ with
    verdicts := s₁.verdicts.tail
    pushes := s₁.pushes ++ [batch.map messageOf] }
  have pushed : answer now (.publish (batch.map messageOf)) s₁ =
      some (s₁.verdicts.headD (.ok ()), s₂) := rfl
  cases verdict : s₁.verdicts.headD (.ok ()) with
  | ok u =>
      obtain ⟨r, s', done, ends⟩ := settleAccepted_ends now batch s₂
      refine ⟨r, s', .dispatched batch, ?_, .dispatched, trivial, ends⟩
      rw [verdict] at pushed
      exact (play_ask claimed).trans ((play_report _ _ s₁).trans ((play_ask pushed).trans done))
  | error e =>
      obtain ⟨ds, made⟩ := exists_decisions reach
      obtain ⟨r, s', done, ends⟩ := settleRefused_ends now batch ds e s₂
      obtain ⟨maxAttempts, policy⟩ := bounds.policy
      refine ⟨r, s', .failed ds e.message, ?_, decisions_writesBack made, ?_, ends⟩
      · rw [verdict] at pushed
        refine (play_ask claimed).trans ((play_report _ _ s₁).trans ((play_ask pushed).trans ?_))
        have told : answer now .now s₂ = some (now, s₂) := rfl
        refine (play_ask told).trans ?_
        simp only [Dialogue.bind, made]
        exact done
      · rw [policy] at made
        exact postpones_of_decisions made e.message

/-- What a claim leaves behind: the rows that it took are leased, and the others still due. -/
structure Leased (cfg : Config) (now ending : Instant) (s s₁ : Standstill) : Prop where
  claims : s₁.claims = s.claims ++ [s.table.given cfg.batchSize now]
  pushes : s₁.pushes = s.pushes
  first : Table.ClaimsFirst s.table s₁.table cfg.batchSize now ending
    (s.table.given cfg.batchSize now)
  ordered : s₁.table.Ordered
  due : s₁.table.dueRows now = (s.table.dueRows now).drop cfg.batchSize
  up : Sql.Up s.session → Sql.Up s₁.session

theorem leased_goes (bounds : InBounds cfg now t) {ending : Instant} {s₁ : Standstill}
    (within : ∀ r ∈ s.table.dueRows now, r ∈ t.dueRows now) (later : now < ending)
    (leased : Leased cfg now ending s s₁)
    (claimed : answer now (.claim cfg.batchSize cfg.lease) s =
      some (.ok (s.table.given cfg.batchSize now), s₁)) :
    ∃ r s', Step cfg now s r s' ∧ Worked cfg now s r s' := by
  cases given : s.table.given cfg.batchSize now with
  | nil =>
      rw [given] at claimed
      refine ⟨.ok .nothing, s₁, (play_ask claimed).trans rfl, ?_⟩
      refine ⟨leased.claims, ?_, leased.ordered, leased.due, ?_, fun up => ⟨leased.up up, _, rfl⟩⟩
      · simp [leased.pushes, given, pushesOf]
      · rintro _ ⟨⟩
        simp [given, Summary.nothing]
  | cons c cs =>
      have first := leased.first
      rw [given] at claimed first
      have reach : ∀ d ∈ c :: cs, ∃ next, cfg.policy.nextAttempt? d.attempts now = some next := by
        intro d hd
        rw [← given, Table.given_eq] at hd
        obtain ⟨row, hrow, rfl⟩ := List.mem_map.1 hd
        exact bounds.retries row (within row (List.mem_of_mem_take hrow))
      obtain ⟨r, s', o, done, built, postpones, ends⟩ := play_claimed bounds reach claimed
      have undue : ∀ r ∈ s₁.table.rows, r.Due now → ∀ p ∈ o.tokens, ¬ r.Live p.1 p.2 := by
        intro r hr due p hp live
        rw [built.tokens] at hp
        obtain ⟨d, hd, rfl⟩ := List.mem_map.1 hp
        exact first.not_due leased.ordered later hd hr live.1 due
      obtain ⟨ordered, due⟩ := ends.leaves leased.ordered postpones undue
      refine ⟨r, s', done, ?_, ?_, ordered, due.trans leased.due, ?_, ?_⟩
      · exact ends.claims_eq.trans leased.claims
      · rw [ends.pushes_eq, leased.pushes, given]
        rfl
      · rw [given]
        exact ends.counts
      · intro up
        exact ends.up (leased.up up) leased.ordered built first.ids_nodup fun _ => first.live

/-- Every round returns, having taken the next rows that are due or changed nothing, unless its claim
cannot count the next attempt of an event. -/
theorem round_goes (bounds : InBounds cfg now t) (ordered : s.table.Ordered)
    (within : ∀ r ∈ s.table.dueRows now, r ∈ t.dueRows now) :
    (∃ r s', Step cfg now s r s' ∧ (Worked cfg now s r s' ∨ Unanswered cfg now s r s')) ∨
    (Full cfg.batchSize now s ∧ ∀ r s', ¬ Step cfg now s r s') := by
  obtain ⟨ending, moved⟩ := bounds.lease
  have ends : leaseEnd cfg.lease now = .ok ending := leaseEnd_of_add? bounds.calendar moved
  have later : now < ending := by
    apply Instant.lt_of_add? _ moved
    have second := bounds.second
    rw [Span.le_iff] at second
    simp only [Span.ofSeconds] at second
    omega
  rcases answer_claim bounds.small ends s with
    ⟨session, tables, stays, claimed⟩ | ⟨cause, e, session, same, refused⟩ | ⟨full, lost⟩
  · let s₁ : Standstill := { s with
      session
      claims := s.claims ++ [s.table.given cfg.batchSize now] }
    have table : s₁.table = (s.table.claim cfg.batchSize ending now).1 := by
      change session.tables.outbox = _
      rw [tables, Tables.withOutbox_outbox]
    have leased : Leased cfg now ending s s₁ := by
      refine ⟨rfl, rfl, ?_, ?_, ?_, stays⟩
      · rw [table]
        exact ordered.claimsFirst cfg.batchSize now ending
      · rw [table]
        exact ordered.claim cfg.batchSize ending now
      · rw [table]
        exact ordered.dueRows_claim cfg.batchSize later
    obtain ⟨r, s', done, worked⟩ := leased_goes bounds within later leased claimed
    exact Or.inl ⟨r, s', done, Or.inl worked⟩
  · refine Or.inl ⟨.error (.storage e), { s with session }, (play_ask refused).trans rfl, ?_⟩
    exact Or.inr ⟨rfl, rfl, same, ⟨_, rfl⟩, cause⟩
  · refine Or.inr ⟨full, fun r s' step => ?_⟩
    cases step.symm.trans (play_lost lost)

theorem Step.goes (bounds : InBounds cfg now t) (ordered : s.table.Ordered)
    (within : ∀ r ∈ s.table.dueRows now, r ∈ t.dueRows now) (step : Step cfg now s r s') :
    Worked cfg now s r s' ∨ Unanswered cfg now s r s' := by
  rcases round_goes bounds ordered within with ⟨r', t', done, went⟩ | ⟨_, lost⟩
  · cases done.symm.trans step
    exact went
  · exact absurd step (lost r s')

end Standstill

end Courier.Relay
