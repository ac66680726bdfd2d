import Courier.Proofs.Storage.Claiming
import Courier.Settings.Values

/-! # How long a lease may be

Two ranges meet where a claim adds its lease to the current moment. A lease of more milliseconds
than a signed word holds is refused, and no table changes. A shorter one may still end after the last
year of the calendar, and then there is no error to hand: the claim crashes. The rules for settings
bound neither, so a lease that they accept can end every relay.
-/

namespace Courier.Instant

/-- The nanoseconds from the start of 1970 to the end of the calendar. -/
def endNanos : Int := (Date.yearStart (lastYear + 1) - epochDay) * 86400 * 1000000000

/-- On the readings of a clock, a span leads out of the calendar exactly if it leads past its end. -/
theorem add?_eq_none_iff {n : Int} {k : Nat} (calendar : (ofNanos n).InCalendar) :
    (ofNanos n).add? k = none ↔ endNanos ≤ n + k := by
  simp only [add?, ofNanos_shift, ite_eq_right_iff, reduceCtorEq, imp_false]
  simp only [InCalendar, day, ofNanos, Date.yearStart, firstYear, lastYear, epochDay,
    endNanos] at calendar ⊢
  omega

end Courier.Instant

namespace Courier.Storage

open Courier.Outbox

variable {lease : Span} {now : Instant}

def leaseTooLong (lease : Span) : StorageError :=
  .invalidArgument ("duration " ++ lease.text ++
    ": Source duration value is out of range for the target type")

/-- A lease is too long, or it ends beyond the calendar, or it has an end. -/
theorem leaseEnd_cases (lease : Span) (now : Instant) :
    (longestLease < lease ∧ leaseEnd lease now = .error (.error (leaseTooLong lease))) ∨
    (lease ≤ longestLease ∧ now.add? lease.nanos = none ∧ leaseEnd lease now = .error .crash) ∨
    (lease ≤ longestLease ∧ ∃ ending, now.add? lease.nanos = some ending ∧
      leaseEnd lease now = .ok ending) := by
  unfold leaseEnd
  by_cases long : longestLease < lease
  · exact Or.inl ⟨long, if_pos long⟩
  · have short : lease ≤ longestLease := Nat.not_lt.1 long
    rw [if_neg long]
    refine Or.inr ?_
    cases now.add? lease.nanos with
    | none => exact Or.inl ⟨short, rfl, rfl⟩
    | some ending => exact Or.inr ⟨short, ending, rfl, rfl⟩

namespace Sql

variable {s : Session} {limit : Nat}

/-- A claim gets as far as counting the attempts of its rows, and one has none left to be counted. -/
structure Uncounted (s : Session) (limit : Nat) (now : Instant) : Prop where
  asked : true ∉ s.outages.take 2
  sound : ∀ r ∈ s.tables.outbox.due limit now, r.Sound
  last : ∃ r ∈ s.tables.outbox.due limit now, r.attempts = 2147483647

/-- What a lease makes of a claim, and of the transaction that a relay claims in.

* `refused`: a lease that is too long is answered as such, before the database is asked.
* `crashed`: nothing else is beyond recovery than an end beyond the calendar, an absurd limit, or, if
  the claim gets as far as its rows, attempts that cannot be counted any more.
* `beyond`: which ends these are.
* `stored`: a claim that is answered stored the end of the lease in the rows that it took, and
  nothing else.
* `unchanged`, `rolledBack`: any other claim changed no table. -/
structure LeasesByRange (s : Session) (limit : Nat) (lease : Span) (now : Instant) : Prop where
  refused : longestLease < lease →
    claim limit lease now s = (.error (.error (leaseTooLong lease)), s)
  crashed : (claim limit lease now s).1 = .error .crash ↔ lease ≤ longestLease ∧
    (now.add? lease.nanos = none ∨ largestLimit < limit ∨ Uncounted s limit now)
  beyond : ∀ n, now = .ofNanos n → now.InCalendar →
    (now.add? lease.nanos = none ↔ Instant.endNanos ≤ n + lease.nanos)
  stored : ∀ claims s', claim limit lease now s = (.ok claims, s') →
    ∃ ending, now.add? lease.nanos = some ending ∧
      s'.tables = s.tables.withOutbox { s.tables.outbox with
        rows := s.tables.outbox.rows.map fun r =>
          if Table.gives claims r.id then r.claimed ending now else r }
  unchanged : ∀ e s', claim limit lease now s = (.error e, s') → s'.tables = s.tables
  rolledBack : ∀ e s', claimBatch limit lease now s = (.error e, s') → s'.tables = s.tables

theorem claim_of_refused {e : Stop StorageError} (h : leaseEnd lease now = .error e) :
    claim limit lease now s = (.error e, s) := by
  unfold claim
  rw [bind_apply, claim.liftExcept, h]

theorem claim_crash_of_limit {ending : Instant} (ends : leaseEnd lease now = .ok ending)
    (large : largestLimit < limit) : claim limit lease now s = (.error .crash, s) := by
  unfold claim
  rw [bind_apply, claim.liftExcept, ends]
  dsimp only
  rw [if_pos large]
  rfl

theorem uncounted_iff : Uncounted s limit now ↔ true ∉ s.outages.take 2 ∧
    (∀ r ∈ s.tables.outbox.due limit now, r.Sound) ∧
    ∃ r ∈ s.tables.outbox.due limit now, ¬ Text.InHalfWord (r.attempts + 1) := by
  constructor
  · rintro ⟨asked, sound, r, hr, last⟩
    refine ⟨asked, sound, r, hr, ?_⟩
    rw [last]
    decide
  · rintro ⟨asked, sound, r, hr, full⟩
    refine ⟨asked, sound, r, hr, ?_⟩
    have word := (sound r hr).2
    unfold Text.InHalfWord at word full
    omega

theorem claim_crash_iff : (claim limit lease now s).1 = .error .crash ↔ lease ≤ longestLease ∧
    (now.add? lease.nanos = none ∨ largestLimit < limit ∨ Uncounted s limit now) := by
  rcases leaseEnd_cases lease now with ⟨long, refused⟩ | ⟨short, nowhere, crashed⟩ |
    ⟨short, ending, moved, ends⟩
  · have excluded : ¬ lease ≤ longestLease := Nat.not_le.2 long
    simp [claim_of_refused refused, excluded]
  · simp [claim_of_refused crashed, short, nowhere]
  · by_cases large : largestLimit < limit
    · simp [claim_crash_of_limit ends large, short, large]
    · rw [claim_crash_iff_uncounted (Nat.not_lt.1 large) ends, ← uncounted_iff]
      simp [short, moved, large]

/-- Of every claim, whatever its lease and its moment. -/
theorem leases_by_range (s : Session) (limit : Nat) (lease : Span) (now : Instant) :
    LeasesByRange s limit lease now where
  refused := fun long => claim_of_refused (if_pos long)
  crashed := claim_crash_iff
  beyond := by
    rintro n rfl calendar
    exact Instant.add?_eq_none_iff calendar
  stored := by
    intro claims s' done
    obtain ⟨ending, ends, _, written, rfl⟩ := claim_ok done
    rw [Table.claim_eq] at written
    rcases leaseEnd_cases lease now with ⟨_, refused⟩ | ⟨_, _, crashed⟩ | ⟨_, end', moved, lasts⟩
    · cases refused.symm.trans ends
    · cases crashed.symm.trans ends
    · cases lasts.symm.trans ends
      exact ⟨ending, moved, written⟩
  unchanged := fun e s' stops => claim_careful limit lease now stops
  rolledBack := by
    intro e s' stops
    rcases claimBatch_cases stops with ⟨_, _, _, done, _⟩ | ⟨_, _, same⟩
    · cases done
    · exact same

/-- Settings that keep the rules give out leases of more than three hundred thousand years: every
claim under them crashes, though the database answers and an event is due. -/
theorem lease_crashes :
    ∃ settings, Settings.ofEntries [("outbox.lease_secs", .int 10000000000000)] = .ok settings ∧
      settings.Valid ∧
      ∃ r ∈ Operation.mixed.tables.outbox.rows, r.Due (.ofNanos 12) ∧
        claim settings.outbox.batchSize settings.outbox.lease (.ofNanos 12) Operation.mixed =
          (.error .crash, Operation.mixed) := by
  have accepted : (Settings.ofEntries
      [("outbox.lease_secs", .int 10000000000000)]).toOption.any fun settings =>
        decide (settings.Valid ∧ settings.outbox.leaseSeconds = 10000000000000) := by
    decide +kernel
  cases hsettings : Settings.ofEntries [("outbox.lease_secs", .int 10000000000000)] with
  | error e =>
      rw [hsettings] at accepted
      cases accepted
  | ok settings =>
      rw [hsettings] at accepted
      simp only [Except.toOption, Option.any_some, decide_eq_true_eq] at accepted
      obtain ⟨valid, seconds⟩ := accepted
      have due : ∃ r ∈ Operation.mixed.tables.outbox.rows, r.Due (.ofNanos 12) := by decide
      obtain ⟨r, held, due⟩ := due
      refine ⟨settings, rfl, valid, r, held, due, claim_of_refused ?_⟩
      rw [Settings.Outbox.lease, seconds]
      decide +kernel

end Sql

end Courier.Storage
