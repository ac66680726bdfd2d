import Courier.Outbox.Table
import Courier.Proofs.Time.Clock
import Mathlib.Data.List.Dedup

/-! # What operations do to rows

Every operation on the outbox either appends one row or rewrites the rows one by one, keeping their
ids. A write-back is then a function on single rows: it does something to a row exactly if the row
is live under one of the tokens that the write-back carries.
-/

namespace Courier.Outbox

theorem find?_key_eq_some_iff {α : Type} {key : α → Int} {xs : List α} {x : α} {k : Int}
    (once : (xs.map key).Nodup) : xs.find? (fun x => key x == k) = some x ↔ x ∈ xs ∧ key x = k := by
  constructor
  · intro found
    exact ⟨List.mem_of_find?_eq_some found, by simpa using List.find?_some found⟩
  · rintro ⟨mem, rfl⟩
    cases found : xs.find? (fun y => key y == key x) with
    | none => simpa using List.find?_eq_none.1 found x mem
    | some y =>
        have hkey : key y = key x := by simpa using List.find?_some found
        rw [List.inj_on_of_nodup_map once (List.mem_of_find?_eq_some found) mem hkey]

/-! ## Tokens -/

def Claim.token (c : Claim) : Int × Int := (c.id, c.attempts)

def Decision.token (d : Decision) : Int × Int := (d.id, d.attempts)

def Outcome.tokens : Outcome → List (Int × Int)
  | .dispatched batch => batch.map Claim.token
  | .failed decisions _ => decisions.map Decision.token

def Outcome.decisions : Outcome → List Decision
  | .dispatched _ => []
  | .failed decisions _ => decisions

/-- An outcome that writes back one batch: the whole of it, or one decision for each event. -/
inductive Outcome.WritesBack (batch : List Claim) : Outcome → Prop
  | dispatched : WritesBack batch (.dispatched batch)
  | failed (decisions : List Decision) (lastError : String)
      (same : decisions.map Decision.token = batch.map Claim.token) :
      WritesBack batch (.failed decisions lastError)

theorem Outcome.WritesBack.tokens {batch : List Claim} {o : Outcome} (h : o.WritesBack batch) :
    o.tokens = batch.map Claim.token := by
  cases h with
  | dispatched => rfl
  | failed decisions lastError same => exact same

/-- A batch is decided about event by event. -/
theorem Outcome.WritesBack.decided {batch : List Claim} {o : Outcome} (h : o.WritesBack batch)
    {d : Decision} (hd : d ∈ o.decisions) : ∃ c ∈ batch, c.id = d.id := by
  cases h with
  | dispatched => cases hd
  | failed decisions lastError same =>
      have token : d.token ∈ batch.map Claim.token := same ▸ List.mem_map_of_mem hd
      obtain ⟨c, hc, shared⟩ := List.mem_map.1 token
      exact ⟨c, hc, congrArg Prod.fst shared⟩

/-! ## Single rows -/

@[simp] theorem Row.claimed_attempts {r : Row} {leaseEnd now : Instant} :
    (r.claimed leaseEnd now).attempts = r.attempts + 1 := rfl

/-- The status of a row is one of the four. -/
def Row.Known (r : Row) : Prop := ∃ status : Status, r.status = status.text

theorem Row.Known.event? {r : Row} (h : r.Known) : ∃ e, r.event? = some e := by
  obtain ⟨status, h⟩ := h
  simp [Row.event?, h]

/-- An operator can be shown the row: it can be read, and its status is known under some name. -/
def Row.Legible (r : Row) : Prop := r.Sound ∧ ∃ e, r.event? = some e

/-- A claim can give the row out: it can be read, and one more attempt can be counted. -/
def Row.Claimable (r : Row) : Prop := r.Sound ∧ Text.InHalfWord (r.attempts + 1)

instance (r : Row) : Decidable r.Claimable := inferInstanceAs (Decidable (_ ∧ _))

theorem Row.Claimable.claimed_sound {r : Row} {leaseEnd now : Instant} (h : r.Claimable) :
    (r.claimed leaseEnd now).Sound := ⟨h.1.1, h.2⟩

/-- The attempts of rows are counted if each of them can be, and else not at all. -/
theorem Row.mapM_claim?_eq_some {rows : List Row} {claims : List Claim} :
    rows.mapM Row.claim? = some claims ↔
      (∀ r ∈ rows, Text.InHalfWord (r.attempts + 1)) ∧ claims = rows.map Row.claim := by
  induction rows generalizing claims with
  | nil => simp [eq_comm]
  | cons r rows ih =>
      by_cases room : Text.InHalfWord (r.attempts + 1)
      · have counted : r.claim? = some r.claim := if_pos room
        simp only [List.mapM_cons, counted, Option.bind_eq_bind, Option.bind_some,
          Option.bind_eq_some_iff, ih, Option.pure_def, Option.some.injEq, List.forall_mem_cons, room,
          true_and, List.map_cons]
        constructor
        · rintro ⟨rest, ⟨all, rfl⟩, rfl⟩
          exact ⟨all, rfl⟩
        · rintro ⟨all, rfl⟩
          exact ⟨_, ⟨all, rfl⟩, rfl⟩
      · have uncounted : r.claim? = none := if_neg room
        simp [List.mapM_cons, uncounted, room]

theorem Row.Live.known {r : Row} {id attempts : Int} (h : r.Live id attempts) : r.Known :=
  ⟨.processing, h.2.1⟩

theorem Row.status_unique {r : Row} {a b : Status} (ha : r.status = a.text)
    (hb : r.status = b.text) : a = b := Status.text_injective (ha.symm.trans hb)

theorem Row.Due.of_pending {r : Row} {now : Instant} (h : r.Due now)
    (hs : r.status = Status.pending.text) : r.nextAttemptAt ≤ now := by
  rcases h with ⟨_, due⟩ | ⟨hs', _⟩
  · exact due
  · cases Row.status_unique hs hs'

theorem Row.Due.of_processing {r : Row} {now : Instant} (h : r.Due now)
    (hs : r.status = Status.processing.text) : ∃ t, r.processingUntil = some t ∧ t ≤ now := by
  rcases h with ⟨hs', _⟩ | ⟨_, lapsed⟩
  · cases Row.status_unique hs hs'
  · exact lapsed

theorem Row.not_due_of_terminal {r : Row} {now : Instant} (status : Status)
    (shown : r.status = status.text) (terminal : status.isTerminal = true) : ¬ r.Due now := by
  rintro (⟨waits, _⟩ | ⟨held, _⟩)
  · cases Row.status_unique shown waits
    cases terminal
  · cases Row.status_unique shown held
    cases terminal

/-- The row after a decision on the claim that it is live under. -/
def Decision.write (d : Decision) (lastError : String) (now : Instant) (r : Row) : Row :=
  match d with
  | .retry _ _ nextAttemptAt => r.retried nextAttemptAt lastError now
  | .dead .. => r.buried lastError now

def Decision.applyTo (d : Decision) (lastError : String) (now : Instant) (r : Row) : Row :=
  if r.Live d.id d.attempts then d.write lastError now r else r

def Outcome.applyTo (now : Instant) : Outcome → Row → Row
  | .dispatched batch, r =>
      if Table.liveIn (batch.map Claim.token) r then r.dispatched now else r
  | .failed decisions lastError, r =>
      decisions.foldl (fun r d => d.applyTo lastError now r) r

/-- What an outcome makes of a row that is live under one of its tokens. -/
inductive Outcome.Writes (now : Instant) : Outcome → Row → Row → Prop
  | dispatched {batch : List Claim} {r : Row} : Writes now (.dispatched batch) r (r.dispatched now)
  | settled {decisions : List Decision} {lastError : String} {d : Decision} {r : Row}
      (mem : d ∈ decisions) (live : r.Live d.id d.attempts) :
      Writes now (.failed decisions lastError) r (d.write lastError now r)

/-- What an outcome puts back to wait, it puts back to a moment to come. -/
def Outcome.Postpones (now : Instant) : Outcome → Prop
  | .dispatched _ => True
  | .failed decisions _ => ∀ id attempts next, .retry id attempts next ∈ decisions → now < next

namespace Decision

variable {d : Decision} {lastError : String} {now : Instant} {r : Row}

@[simp] theorem write_id : (d.write lastError now r).id = r.id := by cases d <;> rfl

@[simp] theorem write_attempts : (d.write lastError now r).attempts = r.attempts := by
  cases d <;> rfl

theorem write_idle : (d.write lastError now r).status ≠ Status.processing.text := by
  cases d <;> simp [write, Row.retried, Row.buried, Status.text]

theorem write_sound : (d.write lastError now r).Sound ↔ r.Sound := by cases d <;> rfl

theorem write_known : (d.write lastError now r).Known := by
  cases d with
  | retry => exact ⟨.pending, rfl⟩
  | dead => exact ⟨.dead, rfl⟩

theorem applyTo_id : (d.applyTo lastError now r).id = r.id := by
  unfold applyTo
  split
  · exact write_id
  · rfl

theorem applyTo_sound : (d.applyTo lastError now r).Sound ↔ r.Sound := by
  unfold applyTo
  split
  · exact write_sound
  · rfl

theorem applyTo_legible : (d.applyTo lastError now r).Legible ↔ r.Legible := by
  unfold applyTo
  split
  · rename_i live
    exact and_congr write_sound (iff_of_true write_known.event? live.known.event?)
  · rfl

theorem applyTo_idle (h : r.status ≠ Status.processing.text) :
    d.applyTo lastError now r = r := if_neg fun live => h live.2.1

theorem foldl_idle (decisions : List Decision) (h : r.status ≠ Status.processing.text) :
    decisions.foldl (fun r d => d.applyTo lastError now r) r = r := by
  induction decisions with
  | nil => rfl
  | cons d ds ih => rw [List.foldl_cons, applyTo_idle h, ih]

/-- Of several decisions the first on a live claim counts: after it the row is live no more. -/
theorem foldl_cases (decisions : List Decision) (lastError : String) (now : Instant) (r : Row) :
    ((∀ d ∈ decisions, ¬ r.Live d.id d.attempts) ∧
      decisions.foldl (fun r d => d.applyTo lastError now r) r = r) ∨
    ∃ d ∈ decisions, r.Live d.id d.attempts ∧
      decisions.foldl (fun r d => d.applyTo lastError now r) r = d.write lastError now r := by
  induction decisions with
  | nil => exact Or.inl ⟨by simp, rfl⟩
  | cons d ds ih =>
      by_cases live : r.Live d.id d.attempts
      · refine Or.inr ⟨d, List.mem_cons_self, live, ?_⟩
        rw [List.foldl_cons, applyTo, if_pos live]
        exact foldl_idle ds write_idle
      · rw [List.foldl_cons, applyTo, if_neg live]
        rcases ih with ⟨none, same⟩ | ⟨d', mem, live', written⟩
        · exact Or.inl ⟨by simpa using ⟨live, none⟩, same⟩
        · exact Or.inr ⟨d', List.mem_cons_of_mem d mem, live', written⟩

end Decision

theorem Table.liveIn_iff {batch : List (Int × Int)} {r : Row} :
    Table.liveIn batch r = true ↔ ∃ p ∈ batch, r.Live p.1 p.2 := by
  simp [Table.liveIn]

namespace Outcome

variable {o : Outcome} {now : Instant} {r r' : Row}

/-- An outcome leaves a row alone or is about a claim that the row is live under. -/
theorem applyTo_cases (o : Outcome) (now : Instant) (r : Row) :
    ((∀ p ∈ o.tokens, ¬ r.Live p.1 p.2) ∧ o.applyTo now r = r) ∨
    ((∃ p ∈ o.tokens, r.Live p.1 p.2) ∧ o.Writes now r (o.applyTo now r)) := by
  cases o with
  | dispatched batch =>
      by_cases live : Table.liveIn (batch.map Claim.token) r = true
      · refine Or.inr ⟨Table.liveIn_iff.1 live, ?_⟩
        rw [applyTo, if_pos live]
        exact .dispatched
      · refine Or.inl ⟨fun p mem h => live (Table.liveIn_iff.2 ⟨p, mem, h⟩), ?_⟩
        rw [applyTo, if_neg live]
  | failed decisions lastError =>
      rcases Decision.foldl_cases decisions lastError now r with ⟨none, same⟩ | ⟨d, mem, live, h⟩
      · refine Or.inl ⟨?_, same⟩
        intro p hp
        obtain ⟨d, mem, rfl⟩ := List.mem_map.1 hp
        exact none d mem
      · refine Or.inr ⟨⟨d.token, List.mem_map_of_mem mem, live⟩, ?_⟩
        rw [applyTo, h]
        exact .settled mem live

theorem Writes.id_eq (h : o.Writes now r r') : r'.id = r.id := by
  cases h with
  | dispatched => rfl
  | settled => exact Decision.write_id

theorem Writes.attempts_eq (h : o.Writes now r r') : r'.attempts = r.attempts := by
  cases h with
  | dispatched => rfl
  | settled => exact Decision.write_attempts

theorem Writes.sound_iff (h : o.Writes now r r') : r'.Sound ↔ r.Sound := by
  cases h with
  | dispatched => rfl
  | settled => exact Decision.write_sound

theorem Writes.idle (h : o.Writes now r r') : r'.status ≠ Status.processing.text := by
  cases h with
  | dispatched => simp [Row.dispatched, Status.text]
  | settled => exact Decision.write_idle

theorem Writes.known (h : o.Writes now r r') : r'.Known := by
  cases h with
  | dispatched => exact ⟨.dispatched, rfl⟩
  | settled => exact Decision.write_known

theorem Writes.not_due (h : o.Writes now r r') (postpones : o.Postpones now) : ¬ r'.Due now := by
  cases h with
  | dispatched => exact Row.not_due_of_terminal .dispatched rfl rfl
  | @settled decisions lastError d r mem live =>
      cases d with
      | retry id attempts next =>
          intro due
          have waited : next ≤ now := due.of_pending rfl
          exact not_le.2 (postpones id attempts next mem) waited
      | dead id attempts => exact Row.not_due_of_terminal .dead rfl rfl

@[simp] theorem applyTo_id : (o.applyTo now r).id = r.id := by
  rcases applyTo_cases o now r with ⟨_, same⟩ | ⟨_, writes⟩
  · rw [same]
  · exact writes.id_eq

@[simp] theorem applyTo_attempts : (o.applyTo now r).attempts = r.attempts := by
  rcases applyTo_cases o now r with ⟨_, same⟩ | ⟨_, writes⟩
  · rw [same]
  · exact writes.attempts_eq

theorem applyTo_legible (h : r.Legible) : (o.applyTo now r).Legible := by
  rcases applyTo_cases o now r with ⟨_, same⟩ | ⟨_, writes⟩
  · rwa [same]
  · exact ⟨writes.sound_iff.2 h.1, writes.known.event?⟩

theorem applyTo_ne_iff : o.applyTo now r ≠ r ↔ ∃ p ∈ o.tokens, r.Live p.1 p.2 := by
  rcases applyTo_cases o now r with ⟨none, same⟩ | ⟨live, writes⟩
  · refine ⟨fun h => absurd same h, ?_⟩
    rintro ⟨p, mem, live⟩
    exact absurd live (none p mem)
  · refine ⟨fun _ => live, fun _ same => ?_⟩
    obtain ⟨p, _, h⟩ := live
    rw [same] at writes
    exact writes.idle h.2.1

end Outcome

end Courier.Outbox
