import Courier.Proofs.Relay.Counting
import Mathlib.Data.List.Pairwise
import Mathlib.Data.List.Perm.Subperm

/-! # Write-backs in any order

Claims of a run carry tokens that no other claim carries. A write-back therefore touches only rows
that every other write-back leaves alone, and it leaves id and attempts as they are, so the others
go on leaving them alone. Nothing about the order of write-backs shows in the table.

The same holds inside one write-back of a push that was refused: each row follows the decision about
its own event, wherever that decision stands in the batch.
-/

namespace Courier.Outbox

variable {now : Instant} {lastError : String} {r : Row}

/-! ## Rows under several write-backs -/

namespace Outcome

variable {o o' : Outcome} {os os' : List Outcome}

def Apart (o o' : Outcome) : Prop := o.tokens.Disjoint o'.tokens

instance : Std.Symm Apart := ⟨fun _ _ h => h.symm⟩

theorem applyTo_of_notMem (h : (r.id, r.attempts) ∉ o.tokens) : o.applyTo now r = r := by
  by_contra changed
  obtain ⟨p, hp, hid, _, hattempts⟩ := applyTo_ne_iff.1 changed
  rw [hid, hattempts] at h
  exact h hp

/-- Write-backs that share no token commute: one of them leaves the row alone before and after. -/
theorem applyTo_comm (apart : o.Apart o') :
    o'.applyTo now (o.applyTo now r) = o.applyTo now (o'.applyTo now r) := by
  by_cases mem : (r.id, r.attempts) ∈ o.tokens
  · have other : (r.id, r.attempts) ∉ o'.tokens := fun mem' => apart mem mem'
    rw [applyTo_of_notMem other]
    apply applyTo_of_notMem
    simpa using other
  · rw [applyTo_of_notMem mem]
    symm
    apply applyTo_of_notMem
    simpa using mem

theorem foldl_applyTo_perm (apart : os.Pairwise Apart) (order : os.Perm os') (r : Row) :
    os.foldl (fun r o => o.applyTo now r) r = os'.foldl (fun r o => o.applyTo now r) r := by
  apply order.foldl_eq'
  intro o ho o' ho' r
  by_cases same : o = o'
  · rw [same]
  · exact applyTo_comm (apart.forall ho ho' same)

end Outcome

/-! ## Decisions of one batch -/

namespace Decision

variable {ds ds' : List Decision} {d : Decision} {id : Int}

/-- The row after the decision about its own event, if there is one. -/
def applyOwn (ds : List Decision) (lastError : String) (now : Instant) (r : Row) : Row :=
  match ds.find? fun d => d.id == r.id with
  | some d => d.applyTo lastError now r
  | none => r

theorem applyOwn_perm (once : (ds.map Decision.id).Nodup) (order : ds.Perm ds') (r : Row) :
    applyOwn ds lastError now r = applyOwn ds' lastError now r := by
  have once' : (ds'.map Decision.id).Nodup := (order.map Decision.id).nodup_iff.1 once
  have same : ds.find? (fun d => d.id == r.id) = ds'.find? (fun d => d.id == r.id) := by
    ext d
    rw [find?_key_eq_some_iff once, find?_key_eq_some_iff once', order.mem_iff]
  rw [applyOwn, applyOwn, same]

/-- One decision after another is each row's own decision: no other is about the row. -/
theorem foldl_applyTo_eq_applyOwn (once : (ds.map Decision.id).Nodup) (r : Row) :
    ds.foldl (fun r d => d.applyTo lastError now r) r = applyOwn ds lastError now r := by
  rcases foldl_cases ds lastError now r with ⟨none, same⟩ | ⟨d, mem, live, written⟩
  · rw [same, applyOwn]
    cases found : ds.find? (fun d => d.id == r.id) with
    | none => rfl
    | some d => exact (if_neg (none d (List.mem_of_find?_eq_some found))).symm
  · have found : ds.find? (fun d => d.id == r.id) = some d :=
      (find?_key_eq_some_iff once).2 ⟨mem, live.1.symm⟩
    rw [written, applyOwn, found]
    exact (if_pos live).symm

end Decision

end Courier.Outbox

namespace Courier.Storage.Sql

open Courier.Outbox

variable {s s' : Session} {now : Instant}

/-! ## Several transactions -/

/-- Write-backs one after another, each in a transaction of its own. -/
def reconcileAll (os : List Outcome) (now : Instant) : Sql StorageError Unit :=
  os.forM fun o => reconcile o now

theorem reconcileAll_ok {os : List Outcome} {u : Unit} (h : reconcileAll os now s = (.ok u, s')) :
    s'.tables = s.tables.withOutbox { s.tables.outbox with
      rows := s.tables.outbox.rows.map fun r => os.foldl (fun r o => o.applyTo now r) r } := by
  induction os generalizing s with
  | nil =>
      cases h
      simp [Tables.withOutbox]
  | cons o os ih =>
      obtain ⟨_, t, ht, h⟩ := bind_ok h
      rcases reconcile_cases ht with ⟨_, ht⟩ | ⟨e, he, _⟩
      · rw [ih h, ht]
        simp [Tables.withOutbox, List.map_map, Function.comp_def]
      · cases he

/-- With the server up, all of them are answered if the rows that they decide about can be read. -/
theorem reconcileAll_up (os : List Outcome) (now : Instant) (up : Up s)
    (legible : ∀ o ∈ os, ∀ d ∈ o.decisions, ∀ r ∈ s.tables.outbox.rows, r.id = d.id → r.Legible) :
    ∃ t, reconcileAll os now s = (.ok (), t) ∧ Up t := by
  induction os generalizing s with
  | nil => exact ⟨s, rfl, up⟩
  | cons o os ih =>
      obtain ⟨t, written, tup⟩ := writeBack_up o now up (legible o List.mem_cons_self)
      have done : reconcile o now s = (.ok (), t) := transaction_up up written tup
      have still : ∀ p ∈ os, ∀ d ∈ p.decisions, ∀ r ∈ t.tables.outbox.rows, r.id = d.id →
          r.Legible := by
        rw [writeBack_ok written, Tables.withOutbox_outbox]
        intro p hp d hd r hr own
        obtain ⟨a, ha, rfl⟩ := List.mem_map.1 hr
        rw [Outcome.applyTo_id] at own
        exact Outcome.applyTo_legible (legible p (List.mem_cons_of_mem o hp) d hd a ha own)
      obtain ⟨t', rest, tup'⟩ := ih tup still
      exact ⟨t', (bind_of_ok done).trans rest, tup'⟩

end Courier.Storage.Sql

namespace Courier.Relay.Fleet

open Courier.Outbox Courier.Storage

variable {s s₀ : Fleet} {trace : Trace}

/-! ## Claims of a run -/

def Move.batch? : Move → Option (List Claim)
  | .claim _ _ _ (.ok batch) => some batch
  | _ => none

theorem Move.given_eq_getD (m : Move) : m.given = m.batch?.getD [] := by
  cases m with
  | claim relay limit lease answer => cases answer <;> rfl
  | _ => rfl

def batchesIn (trace : Trace) : List (List Claim) := trace.filterMap fun t => t.move.batch?

theorem flatten_batchesIn (trace : Trace) : (batchesIn trace).flatten = givenIn trace := by
  induction trace with
  | nil => rfl
  | cons t trace ih =>
      have rest : givenIn (t :: trace) = t.move.given ++ givenIn trace := rfl
      rw [rest, ← ih, Move.given_eq_getD, batchesIn, List.filterMap_cons]
      cases t.move.batch? <;> simp [batchesIn]

/-- Some claims of a run, each at most once, with what is to be written back for each. -/
structure Selection (trace : Trace) (writes : List (List Claim × Outcome)) : Prop where
  claims : (writes.map Prod.fst).Subperm (batchesIn trace)
  built : ∀ w ∈ writes, w.2.WritesBack w.1

/-- Different claims of a run share no token. -/
theorem Selection.apart {writes : List (List Claim × Outcome)} (h : Selection trace writes)
    (counted : Counted trace s) : (writes.map Prod.snd).Pairwise Outcome.Apart := by
  have once : ((batchesIn trace).map (List.map Claim.token)).flatten.Nodup := by
    rw [← List.map_flatten, flatten_batchesIn]
    exact counted.tokens
  obtain ⟨batches, order, sublist⟩ := List.subperm_iff.1 h.claims
  have apart : batches.Pairwise fun a b =>
      (a.map Claim.token).Disjoint (b.map Claim.token) := by
    rw [← (order.map (List.map Claim.token)).flatten.nodup_iff] at once
    exact List.pairwise_map.1 (List.nodup_flatten.1 once).2
  have apart := List.pairwise_map.1 (apart.sublist sublist)
  refine List.pairwise_map.2 (apart.imp_of_mem fun {w w'} hw hw' disjoint => ?_)
  rwa [Outcome.Apart, (h.built w hw).tokens, (h.built w' hw').tokens]

/-- The decisions of a claim of a run are about different events. -/
theorem ids_nodup_of_decisions (counted : Counted trace s) {batch : List Claim}
    (claimed : batch ∈ batchesIn trace) {decisions : List Decision}
    (same : decisions.map Decision.token = batch.map Claim.token) :
    (decisions.map Decision.id).Nodup := by
  obtain ⟨t, ht, given⟩ := List.mem_filterMap.1 claimed
  have once := counted.once t ht
  have ids : decisions.map Decision.id = batch.map (·.id) := by
    have first := congrArg (List.map Prod.fst) same
    simpa [List.map_map, Function.comp_def, Decision.token, Claim.token] using first
  rwa [ids, ← show t.move.given = batch by simp [Move.given_eq_getD, given]]

/-- Where the order of write-backs does not show.

* `batches`: write-backs of different claims, all at one moment and all carried out, leave the same
  tables in any order.
* `decisions`: so do the decisions about one batch, and each row follows its own.
* `answered`: a server that is up carries any write-backs out, unless one of them decides about an
  event that no claim gave out and that cannot be read. -/
structure OrderFree (trace : Trace) (s : Fleet) : Prop where
  batches : ∀ (writes writes' : List (List Claim × Outcome)) (now : Instant)
    (session session' other other' : Session), Selection trace writes → writes.Perm writes' →
    session.tables.outbox = s.table → other.tables = session.tables →
    Sql.reconcileAll (writes.map Prod.snd) now session = (.ok (), session') →
    Sql.reconcileAll (writes'.map Prod.snd) now other = (.ok (), other') →
    other'.tables = session'.tables
  decisions : ∀ batch ∈ batchesIn trace, ∀ (decisions decisions' : List Decision)
    (lastError : String) (now : Instant) (session session' : Session),
    (Outcome.failed decisions lastError).WritesBack batch → decisions.Perm decisions' →
    session.tables.outbox = s.table →
    Sql.reconcile (.failed decisions' lastError) now session = (.ok (), session') →
    session'.tables = session.tables.withOutbox { s.table with
      rows := s.table.rows.map (Decision.applyOwn decisions lastError now) }
  answered : ∀ (os : List Outcome) (now : Instant) (session : Session),
    session.tables.outbox = s.table → Sql.Up session →
    (∀ o ∈ os, ∀ d ∈ o.decisions, ∀ r ∈ s.table.rows, r.id = d.id → claimsOf trace r.id = 0 →
      r.Sound) →
    (Sql.reconcileAll os now session).1 = .ok ()

/-- In every state that relays reach the order of write-backs does not show. -/
theorem order_free (fresh : s₀.Fresh) (run : Run Step s₀ trace s) : OrderFree trace s where
  batches := by
    intro writes writes' now session session' other other' selection order _ same done done'
    have apart := selection.apart (counted fresh run)
    have rows (r : Row) : (writes.map Prod.snd).foldl (fun r o => o.applyTo now r) r =
        (writes'.map Prod.snd).foldl (fun r o => o.applyTo now r) r :=
      Outcome.foldl_applyTo_perm apart (order.map Prod.snd) r
    rw [Sql.reconcileAll_ok done', Sql.reconcileAll_ok done, same]
    simp only [rows]
  decisions := by
    intro batch claimed decisions decisions' lastError now session session' built order same done
    have once : (decisions.map Decision.id).Nodup := by
      cases built with
      | failed _ _ tokens => exact ids_nodup_of_decisions (counted fresh run) claimed tokens
    have once' : (decisions'.map Decision.id).Nodup := (order.map _).nodup_iff.1 once
    rcases Sql.reconcile_cases done with ⟨_, written⟩ | ⟨e, he, _⟩
    · have rows : Outcome.applyTo now (.failed decisions' lastError) =
          Decision.applyOwn decisions lastError now := by
        funext r
        exact (Decision.foldl_applyTo_eq_applyOwn once' r).trans
          (Decision.applyOwn_perm once order r).symm
      rw [written, rows, same]
    · cases he
  answered := by
    intro os now session same up sound
    have counted := counted fresh run
    have legible : ∀ o ∈ os, ∀ d ∈ o.decisions, ∀ r ∈ session.tables.outbox.rows, r.id = d.id →
        r.Legible := by
      rw [same]
      intro o ho d hd r hr own
      refine ⟨?_, (counted.status r hr).event?⟩
      by_cases unclaimed : claimsOf trace r.id = 0
      · exact sound o ho d hd r hr own unclaimed
      · refine counted.sound r hr ?_
        rw [counted.attempts r hr]
        omega
    obtain ⟨t, done, _⟩ := Sql.reconcileAll_up os now up legible
    rw [done]

/-- A lease runs out, the event is claimed again, and neither claim is written back yet. -/
theorem order_free_overtaken :
    ∃ trace s, OrderFree trace s ∧ batchesIn trace = [[loneClaim 1], [loneClaim 2]] := by
  have run := (Run.refl : Run Step (serving .empty 0 (fun _ => []) []) [] _)
    |>.tail (show Step _ (.enqueue ⟨"check", .null, .ofNanos 0⟩ (.ok 1))
      (serving (lone .pending 0 0 none none 0) 0 (fun _ => []) []) from .enqueue rfl)
    |>.tail (show Step _ (.claim 0 1 ⟨5⟩ (.ok [loneClaim 1]))
      (serving (lone .processing 1 0 (some 5) none 0) 0 heldOnce []) from .claim rfl)
    |>.tail (show Step _ (.advance 5)
      (serving (lone .processing 1 0 (some 5) none 0) 5 heldOnce []) from .advance)
    |>.tail (show Step _ (.claim 1 1 ⟨5⟩ (.ok [loneClaim 2]))
      (serving (lone .processing 2 0 (some 10) none 5) 5 heldTwice []) from .claim rfl)
  exact ⟨_, _, order_free ⟨rfl, fun _ => rfl⟩ run, rfl⟩

end Courier.Relay.Fleet
