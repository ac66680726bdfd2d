import Courier.Marker
import Courier.Proofs.Time.Clock
import Mathlib.Logic.Function.Defs

/-! # Markers over time

What the operations of the store leave under a key. A marker that lives is never replaced by asking
for it, and one that is set again lasts from then on; so on a clock that does not go back what lasts
until some time goes on doing so.
-/

namespace Courier.Marker

theorem key_injective : Function.Injective key := by
  intro a b h
  have hdigits := (String.append_right_inj "webhook:dispatch:").1 h
  have hchars : Text.integer a = Text.integer b := String.ofList_injective hdigits
  have hread := congrArg Text.signed? hchars
  rw [Text.signed?_integer, Text.signed?_integer] at hread
  exact Option.some.inj hread

namespace Store

variable {s : Store} {k key text : String} {e : Entry} {ttl : Span} {clock ending : Int}

/-! ## Entries by key -/

def lapse (s : Store) (key : String) : Store := ⟨s.entries.filter (·.1 != key)⟩

theorem lookup_cons_of_ne {entries : List (String × Entry)} (hk : k ≠ key) :
    ((key, e) :: entries).lookup k = entries.lookup k := by
  rw [List.lookup_cons, beq_eq_false_iff_ne.2 hk]

theorem lookup_lapse : (s.lapse key).entries.lookup k =
    if k = key then none else s.entries.lookup k := by
  simp only [lapse]
  induction s.entries with
  | nil => simp
  | cons entry entries ih =>
      obtain ⟨name, e⟩ := entry
      by_cases hname : name = key
      · subst hname
        rw [List.filter_cons_of_neg (by simp), ih]
        by_cases hk : k = name
        · rw [if_pos hk, if_pos hk]
        · rw [if_neg hk, if_neg hk, lookup_cons_of_ne hk]
      · rw [List.filter_cons_of_pos (by simpa using hname)]
        by_cases hk : k = name
        · subst hk
          simp [hname]
        · rw [lookup_cons_of_ne hk, lookup_cons_of_ne hk, ih]

theorem lookup_set : (s.set key text ttl (.ofNanos clock)).entries.lookup k =
    if k = key then some ⟨text, .ofNanos (clock + ttl.nanos)⟩ else s.entries.lookup k := by
  have hset : (s.set key text ttl (.ofNanos clock)).entries =
      (key, ⟨text, .ofNanos (clock + ttl.nanos)⟩) :: (s.lapse key).entries := by
    rw [← Instant.ofNanos_shift]
    rfl
  rw [hset]
  by_cases hk : k = key
  · simp [hk]
  · rw [lookup_cons_of_ne hk, lookup_lapse, if_neg hk, if_neg hk]

theorem live?_eq_some_iff {now : Instant} :
    s.live? key now = some e ↔ s.entries.lookup key = some e ∧ now < e.expiry := by
  simp [live?]

/-- Asking for a marker finds one that lives, or sets one where none does. -/
theorem tryBegin_cases (s : Store) (key : String) (ttl : Span) (now : Instant) :
    (∃ e, s.entries.lookup key = some e ∧ now < e.expiry ∧
      s.tryBegin key ttl now = (s, some (ofText e.text))) ∨
    ((∀ e, s.entries.lookup key = some e → e.expiry ≤ now) ∧
      s.tryBegin key ttl now = (s.set key Marker.inFlight.text ttl now, none)) := by
  unfold tryBegin
  cases hlive : s.live? key now with
  | some e =>
      obtain ⟨found, live⟩ := live?_eq_some_iff.1 hlive
      exact Or.inl ⟨e, found, live, rfl⟩
  | none =>
      refine Or.inr ⟨fun e found => not_lt.1 fun live => ?_, rfl⟩
      rw [live?_eq_some_iff.2 ⟨found, live⟩] at hlive
      cases hlive

/-- A marker that is there after asking was there before, or was set now. -/
theorem lookup_tryBegin (h : (s.tryBegin key ttl (.ofNanos clock)).1.entries.lookup k = some e) :
    s.entries.lookup k = some e ∨ (k = key ∧ e.expiry = .ofNanos (clock + ttl.nanos)) := by
  rcases tryBegin_cases s key ttl (.ofNanos clock) with ⟨_, _, _, heq⟩ | ⟨_, heq⟩
  · rw [heq] at h
    exact Or.inl h
  · rw [heq, lookup_set] at h
    by_cases hk : k = key
    · rw [if_pos hk] at h
      exact Or.inr ⟨hk, by rw [← Option.some.inj h]⟩
    · rw [if_neg hk] at h
      exact Or.inl h

/-- Recording a delivery leaves no other marker of a running one than was there before. -/
theorem lookup_markDelivered
    (h : (s.markDelivered key ttl (.ofNanos clock)).entries.lookup k = some e)
    (running : ofText e.text = .inFlight) : s.entries.lookup k = some e := by
  rw [markDelivered, lookup_set] at h
  by_cases hk : k = key
  · rw [if_pos hk] at h
    rw [← Option.some.inj h, ofText_text] at running
    cases running
  · rwa [if_neg hk] at h

/-- What is told of a marker is told of one that lives. -/
theorem live_of_tryBegin {now : Instant} {marker : Marker}
    (h : (s.tryBegin key ttl now).2 = some marker) :
    ∃ e, s.entries.lookup key = some e ∧ now < e.expiry ∧ ofText e.text = marker := by
  rcases tryBegin_cases s key ttl now with ⟨e, found, live, heq⟩ | ⟨_, heq⟩
  · rw [heq] at h
    exact ⟨e, found, live, Option.some.inj h⟩
  · rw [heq] at h
    cases h

theorem tryBegin_of_unmarked {now : Instant} (unmarked : s.entries.lookup key = none) :
    (s.tryBegin key ttl now).2 = none := by
  simp [tryBegin, live?, unmarked]

theorem lookup_tryBegin_of_ne (hk : k ≠ key) :
    (s.tryBegin key ttl (.ofNanos clock)).1.entries.lookup k = s.entries.lookup k := by
  rcases tryBegin_cases s key ttl (.ofNanos clock) with ⟨_, _, _, heq⟩ | ⟨_, heq⟩
  · rw [heq]
  · rw [heq, lookup_set, if_neg hk]

/-- Until a marker lapses that was set for a delivery, the delivery is said to be running. -/
theorem tryBegin_again {ttl' : Span} {clock' : Int}
    (granted : (s.tryBegin key ttl (.ofNanos clock)).2 = none) :
    ((s.tryBegin key ttl (.ofNanos clock)).1.tryBegin key ttl' (.ofNanos clock')).2 =
      if clock' < clock + ttl.nanos then some .inFlight else none := by
  rcases tryBegin_cases s key ttl (.ofNanos clock) with ⟨_, _, _, heq⟩ | ⟨_, heq⟩
  · rw [heq] at granted
    cases granted
  · rw [heq]
    have found : (s.set key Marker.inFlight.text ttl (.ofNanos clock)).entries.lookup key =
        some ⟨Marker.inFlight.text, .ofNanos (clock + ttl.nanos)⟩ := by
      rw [lookup_set, if_pos rfl]
    rcases tryBegin_cases (s.set key Marker.inFlight.text ttl (.ofNanos clock)) key ttl'
      (.ofNanos clock') with ⟨e, found', live, heq'⟩ | ⟨dead, heq'⟩
    · obtain rfl := Option.some.inj (found.symm.trans found')
      rw [heq', if_pos (Instant.ofNanos_lt.1 live), ofText_text]
    · have lapsed := Instant.ofNanos_le.1 (dead _ found)
      rw [heq', if_neg (by omega)]

/-! ## What lasts -/

/-- There is a marker under a key that does not lapse before a time. -/
def Lasts (s : Store) (key : String) (ending : Int) : Prop :=
  ∃ e, s.entries.lookup key = some e ∧ .ofNanos ending ≤ e.expiry

/-- There is such a marker, and it says that the delivery is done. -/
def Done (s : Store) (key : String) (ending : Int) : Prop :=
  ∃ e, s.entries.lookup key = some e ∧ e.text = Marker.delivered.text ∧ .ofNanos ending ≤ e.expiry

theorem lasts_set (text : String) (ttl : Span) :
    (s.set key text ttl (.ofNanos clock)).Lasts key (clock + ttl.nanos) :=
  ⟨_, by rw [lookup_set, if_pos rfl], le_refl _⟩

theorem Lasts.mono {ending' : Int} (h : s.Lasts key ending) (hle : ending' ≤ ending) :
    s.Lasts key ending' := by
  obtain ⟨e, found, lasts⟩ := h
  exact ⟨e, found, le_trans (Instant.ofNanos_le.2 hle) lasts⟩

theorem Lasts.set (h : s.Lasts k ending) (hle : ending ≤ clock + ttl.nanos) :
    (s.set key text ttl (.ofNanos clock)).Lasts k ending := by
  by_cases hk : k = key
  · subst hk
    exact (lasts_set text ttl).mono hle
  · obtain ⟨e, found, lasts⟩ := h
    exact ⟨e, by rw [lookup_set, if_neg hk, found], lasts⟩

theorem Lasts.tryBegin (h : s.Lasts k ending) :
    (s.tryBegin key ttl (.ofNanos clock)).1.Lasts k ending := by
  rcases tryBegin_cases s key ttl (.ofNanos clock) with ⟨e, _, _, heq⟩ | ⟨dead, heq⟩
  · rwa [heq]
  · rw [heq]
    by_cases hk : k = key
    · subst hk
      obtain ⟨e, found, lasts⟩ := h
      have hle := Instant.ofNanos_le.1 (le_trans lasts (dead e found))
      exact (lasts_set _ ttl).mono (by omega)
    · obtain ⟨e, found, lasts⟩ := h
      exact ⟨e, by rw [lookup_set, if_neg hk, found], lasts⟩

/-- Where a marker was set it lasts for its time to live. -/
theorem lasts_of_tryBegin (h : (s.tryBegin key ttl (.ofNanos clock)).2 = none) :
    (s.tryBegin key ttl (.ofNanos clock)).1.Lasts key (clock + ttl.nanos) := by
  rcases tryBegin_cases s key ttl (.ofNanos clock) with ⟨e, _, _, heq⟩ | ⟨_, heq⟩
  · rw [heq] at h
    cases h
  · rw [heq]
    exact lasts_set _ ttl

/-- While a marker lasts none can be set. -/
theorem Lasts.ending_le (h : s.Lasts key ending)
    (none : (s.tryBegin key ttl (.ofNanos clock)).2 = none) : ending ≤ clock := by
  rcases tryBegin_cases s key ttl (.ofNanos clock) with ⟨e, _, _, heq⟩ | ⟨dead, _⟩
  · rw [heq] at none
    cases none
  · obtain ⟨e, found, lasts⟩ := h
    exact Instant.ofNanos_le.1 (le_trans lasts (dead e found))

theorem done_markDelivered (s : Store) (key : String) (ttl : Span) (clock : Int) :
    (s.markDelivered key ttl (.ofNanos clock)).Done key (clock + ttl.nanos) :=
  ⟨_, by rw [markDelivered, lookup_set, if_pos rfl], rfl, le_refl _⟩

theorem Done.markDelivered (h : s.Done k ending) (hle : ending ≤ clock + ttl.nanos) :
    (s.markDelivered key ttl (.ofNanos clock)).Done k ending := by
  obtain ⟨e, found, text, lasts⟩ := h
  by_cases hk : k = key
  · refine ⟨_, by rw [Store.markDelivered, lookup_set, if_pos hk], rfl, ?_⟩
    exact Instant.ofNanos_le.2 hle
  · exact ⟨e, by rw [Store.markDelivered, lookup_set, if_neg hk, found], text, lasts⟩

theorem Done.tryBegin (h : s.Done k ending) (within : clock < ending) :
    (s.tryBegin key ttl (.ofNanos clock)).1.Done k ending := by
  rcases tryBegin_cases s key ttl (.ofNanos clock) with ⟨e, _, _, heq⟩ | ⟨dead, heq⟩
  · rwa [heq]
  · obtain ⟨e, found, text, lasts⟩ := h
    rw [heq]
    by_cases hk : k = key
    · subst hk
      have hle := Instant.ofNanos_le.1 (le_trans lasts (dead e found))
      omega
    · exact ⟨e, by rw [lookup_set, if_neg hk, found], text, lasts⟩

/-- While the delivery is known to be done, asking for its marker says so. -/
theorem Done.tryBegin_eq (h : s.Done key ending) (within : clock < ending) :
    (s.tryBegin key ttl (.ofNanos clock)).2 = some .delivered := by
  obtain ⟨e, found, text, lasts⟩ := h
  rcases tryBegin_cases s key ttl (.ofNanos clock) with ⟨e', found', _, heq⟩ | ⟨dead, _⟩
  · obtain rfl := Option.some.inj (found.symm.trans found')
    rw [heq, text, ofText_text]
  · have hle := Instant.ofNanos_le.1 (le_trans lasts (dead e found))
    omega

end Store

end Courier.Marker
