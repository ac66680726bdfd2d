import Courier.Proofs.Json.Reading
import Courier.Proofs.Outbox.Due
import Courier.Proofs.Storage.Lifecycle

/-! # What a claim does to the outbox

A claim on a server that is up is answered whenever its lease ends within the calendar and the rows
that it would take can be read and counted once more. Then it takes the first rows that are due:
whatever a row of the outbox says in its status, and whether or not it has a lease, the claim takes
it exactly if it is due and the due rows before it leave room.
-/

namespace Courier.Instant

variable {t t' : Instant} {nanos : Int}

theorem InCalendar.bounds (h : t.InCalendar) :
    -9000000000000 ≤ t.second ∧ t.second ≤ 9000000000000 := by
  unfold InCalendar day epochDay firstYear lastYear Date.yearStart at h
  omega

/-- A moment is not moved by more than the seconds between. -/
theorem nanos_le_of_shift (h : t.shift nanos = t') :
    nanos ≤ (t'.second - t.second + 2) * 1000000000 := by
  subst h
  unfold shift
  dsimp only
  split
  · dsimp only
    omega
  · split
    · dsimp only
      omega
    · split
      · dsimp only
        omega
      · dsimp only
        omega

end Courier.Instant

namespace Courier.Storage

open Courier.Outbox

/-- Within the calendar no lease is too long: one that is too long ends beyond it. -/
theorem leaseEnd_of_add? {lease : Span} {now ending : Instant} (calendar : now.InCalendar)
    (ends : now.add? lease.nanos = some ending) : leaseEnd lease now = .ok ending := by
  have moved := ends
  unfold Instant.add? at moved
  dsimp only at moved
  split at moved
  · rename_i inside
    have least := calendar.bounds
    have most := inside.bounds
    have apart := Instant.nanos_le_of_shift (rfl : now.shift lease.nanos = _)
    have short : ¬ longestLease < lease := by
      rw [Span.lt_iff]
      simp only [longestLease, Span.ofMillis]
      omega
    rw [leaseEnd, if_neg short, ends]
  · cases moved

namespace Sql

variable {s : Session} {limit : Nat} {lease : Span} {now ending : Instant}

/-- What is to be expected of a claim.

* `answered`: a server that is up answers it, if each of the rows that it would take can be read and
  has an attempt left to be counted.
* `first`: whenever it is answered, it took the first rows that are due.
* `others`: it touches no other table.
* `refused`: if it is not answered, it touches no table. -/
structure ClaimsDue (s : Session) (limit : Nat) (lease : Span) (now ending : Instant) : Prop where
  answered : Up s → (∀ r ∈ s.tables.outbox.due limit now, r.Claimable) →
    ∃ claims s', claim limit lease now s = (.ok claims, s')
  first : ∀ claims s', claim limit lease now s = (.ok claims, s') →
    Table.ClaimsFirst s.tables.outbox s'.tables.outbox limit now ending claims
  others : ∀ claims s', claim limit lease now s = (.ok claims, s') →
    s'.tables.checks = s.tables.checks
  refused : ∀ e s', claim limit lease now s = (.error e, s') → s'.tables = s.tables

/-- A claim of any outbox whose lease ends within the calendar takes the first rows that are due. -/
theorem claims_what_is_due (ordered : s.tables.outbox.Ordered) (small : limit ≤ largestLimit)
    (calendar : now.InCalendar) (ends : now.add? lease.nanos = some ending) :
    ClaimsDue s limit lease now ending where
  answered := fun up claimable =>
    ⟨_, _, claim_up up small (leaseEnd_of_add? calendar ends) claimable⟩
  first := by
    intro claims s' done
    obtain ⟨ending', lasts, _, written, rfl⟩ := claim_ok done
    have same : ending' = ending :=
      Except.ok.inj (lasts.symm.trans (leaseEnd_of_add? calendar ends))
    rw [written, same]
    exact ordered.claimsFirst limit now ending
  others := by
    intro claims s' done
    obtain ⟨_, _, _, written, _⟩ := claim_ok done
    rw [written]
    rfl
  refused := fun e s' stops => claim_careful limit lease now stops

/-- Of rows that are finished, unknown, let go by their relay and waiting, the third is the first that
is due. -/
theorem claims_what_is_due_mixed :
    ClaimsDue Operation.mixed 1 ⟨7⟩ (.ofNanos 5) (.ofNanos 12) ∧
      (claim 1 ⟨7⟩ (.ofNanos 5) Operation.mixed).1 = .ok [⟨3, "check", .array [], 2⟩] :=
  ⟨claims_what_is_due ⟨by decide, by decide⟩ (by decide) (by decide) (by decide), rfl⟩

def holding (payload : Document) (attempts : Int) : Session where
  tables := ⟨⟨[], 0, []⟩, ⟨[{ Operation.plainRow 1 "pending" attempts none with payload }], 1⟩⟩
  outages := []
  reports := []

/-- The one row is due, and if it can be claimed a claim gives it out with what its payload reads as. -/
theorem claim_holding {payload : Document} {attempts : Int}
    (claimable : Row.Claimable { Operation.plainRow 1 "pending" attempts none with payload }) :
    (claim 1 ⟨7⟩ (.ofNanos 5) (holding payload attempts)).1 =
      .ok [⟨1, "check", payload.value, attempts + 1⟩] := by
  have all : ∀ r ∈ (holding payload attempts).tables.outbox.due 1 (.ofNanos 5), r.Claimable := by
    intro r hr
    rw [List.mem_singleton.1 (Table.mem_of_mem_due hr).1]
    exact claimable
  have up : Up (holding payload attempts) := rfl
  have ends : leaseEnd ⟨7⟩ (.ofNanos 5) = .ok (.ofNanos 12) := rfl
  rw [claim_up up (by decide) ends all]
  rfl

/-- Rows that are due and that a claim does not give out as they are stored: one whose payload was
nested too deep to be read back, one whose attempts are the last that are counted, and one whose
payload holds a coordinate that is read back as the double next to it. -/
theorem due_not_as_stored :
    (∃ r ∈ (holding (.ofJson (.nested 128)) 0).tables.outbox.rows, r.Due (.ofNanos 5)) ∧
    (claim 1 ⟨7⟩ (.ofNanos 5) (holding (.ofJson (.nested 128)) 0)).1 =
      .error (.error unreadable) ∧
    (∃ r ∈ (holding (.ofJson .null) 2147483647).tables.outbox.rows, r.Due (.ofNanos 5)) ∧
    (claim 1 ⟨7⟩ (.ofNanos 5) (holding (.ofJson .null) 2147483647)).1 = .error .crash ∧
    ∃ c, (claim 1 ⟨7⟩ (.ofNanos 5) (holding ⟨"94.52706955539223"⟩ 0)).1 = .ok [c] ∧
      c.payload.text = "94.52706955539225" := by
  have due {payload : Document} {attempts : Int} :
      ∃ r ∈ (holding payload attempts).tables.outbox.rows, r.Due (.ofNanos 5) :=
    ⟨_, List.mem_cons_self, Or.inl ⟨rfl, Instant.ofNanos_le.2 (by decide)⟩⟩
  refine ⟨due, ?_, due, rfl, ?_⟩
  · have up : Up (holding (.ofJson (.nested 128)) 0) := rfl
    have ends : leaseEnd ⟨7⟩ (.ofNanos 5) = .ok (.ofNanos 12) := rfl
    have unsound : ∃ r ∈ (holding (.ofJson (.nested 128)) 0).tables.outbox.due 1 (.ofNanos 5),
        ¬ r.Sound := by
      refine ⟨_, List.mem_cons_self, fun sound => ?_⟩
      have read : (Document.ofJson (.nested 128)).value?.isSome := sound.1
      rw [Document.value?_nested (by decide)] at read
      cases read
    rw [claim_unreadable up (by decide) ends unsound]
  · have read : (Document.value? ⟨"94.52706955539223"⟩).isSome := by decide +kernel
    exact ⟨_, claim_holding ⟨⟨read, by decide⟩, by decide⟩, by decide +kernel⟩

end Sql

end Courier.Storage
