import Courier.Proofs.Transcript
import Courier.Relay.Loop

/-! # Relays at work

Whatever its collaborators answer and whenever it is asked to stop, a relay at work does whole rounds
one after another: it looks for the request only while it waits for a tick, a round that fails is
followed by the next wait, and the work ends with nothing but the request.
-/

namespace Courier.Relay

open Dialogue

abbrev Transcript := List (Exchange surroundings)

def worked (x : Exchange collaborators) : Exchange surroundings := ⟨.work x.call, x.reply⟩

variable {α : Type} {cfg : Config} {n : Nat} {xs : Transcript}

theorem leads_wholly {talk : Talk α} {rest : LoopTalk α} (h : Leads (wholly talk) xs rest) :
    ∃ ys left, xs = ys.map worked ∧ Leads talk ys left ∧
      (rest.Unfinished ∧ left.Unfinished ∨ ∃ a, rest = .done a ∧ left = .done a) := by
  refine leads_expand (fun c ys rest asked => ?_) h
  rcases leads_ask.1 asked with ⟨rfl, rfl⟩ | ⟨r, us, rfl, more⟩
  · exact Or.inl ⟨rfl, trivial⟩
  · obtain ⟨rfl, rfl⟩ := leads_done.1 more
    exact Or.inr ⟨r, rfl, rfl⟩

/-! ## The course of the work -/

/-- What follows a round: the time is asked for after a full batch, and a failure is reported. -/
inductive After (cfg : Config) : Except WorkerError Summary → Transcript → Prop
  | full {s : Summary} {time : Span} (full : cfg.batchSize ≤ s.claimed) :
      After cfg (.ok s) [⟨.elapsed, time⟩]
  | rest {s : Summary} (some : s.claimed < cfg.batchSize) : After cfg (.ok s) []
  | failed {e : WorkerError} :
      After cfg (.error e) [⟨.work (.report (.line .error "Outbox relay round failed" [])), ()⟩]

/-- A turn of a relay as far as it got, with the ending that it leaves. -/
inductive Lap (cfg : Config) : Transcript → LoopTalk (Option Ticker) → Prop
  | waiting {due : Span} {k : Wake → LoopTalk (Option Ticker)} :
      Lap cfg [] (.ask (.await due) k)
  | leaving {due : Span} {rest : LoopTalk (Option Ticker)} (left : rest.Unfinished) :
      Lap cfg [⟨.await due, .stop⟩] rest
  | stopped {due : Span} {x : Report} :
      Lap cfg [⟨.await due, .stop⟩, ⟨.work (.report x), ()⟩] (.done none)
  | working {due now : Span} {ys : List (Exchange collaborators)}
      {talk : Talk (Except WorkerError Summary)} {rest : LoopTalk (Option Ticker)}
      (part : Leads (round cfg) ys talk) (left : rest.Unfinished) :
      Lap cfg (⟨.await due, .tick now⟩ :: ys.map worked) rest
  | whole {due now : Span} {ys : List (Exchange collaborators)} {r : Except WorkerError Summary}
      {zs : Transcript} {t : Ticker} (done : Leads (round cfg) ys (.done r))
      (after : After cfg r zs) :
      Lap cfg (⟨.await due, .tick now⟩ :: (ys.map worked ++ zs)) (.done (some t))

theorem leads_afterRound {t : Ticker} {r : Except WorkerError Summary} {rest : LoopTalk Ticker}
    (h : Leads (afterRound cfg t r) xs rest) :
    (xs = [] ∧ rest.Unfinished) ∨ ∃ t', After cfg r xs ∧ rest = .done t' := by
  unfold afterRound at h
  cases r with
  | error e =>
      rcases leads_ask.1 h with ⟨rfl, rfl⟩ | ⟨r, ys, rfl, more⟩
      · exact Or.inl ⟨rfl, trivial⟩
      · obtain ⟨rfl, rfl⟩ := leads_done.1 more
        exact Or.inr ⟨t, .failed, rfl⟩
  | ok s =>
      dsimp only at h
      split at h
      · rename_i full
        rcases leads_ask.1 h with ⟨rfl, rfl⟩ | ⟨time, ys, rfl, more⟩
        · exact Or.inl ⟨rfl, trivial⟩
        · obtain ⟨rfl, rfl⟩ := leads_done.1 more
          exact Or.inr ⟨_, .full full, rfl⟩
      · rename_i rest
        obtain ⟨rfl, rfl⟩ := leads_done.1 h
        exact Or.inr ⟨t, .rest (Nat.lt_of_not_le rest), rfl⟩

theorem leads_turn {t : Ticker} {rest : LoopTalk (Option Ticker)} (h : Leads (turn cfg t) xs rest) :
    Lap cfg xs rest := by
  rcases leads_ask.1 h with ⟨rfl, rfl⟩ | ⟨wake, ys, rfl, asked⟩
  · exact .waiting
  · cases wake with
    | stop =>
        rcases leads_ask.1 asked with ⟨rfl, rfl⟩ | ⟨r, zs, rfl, more⟩
        · exact .leaving trivial
        · obtain ⟨rfl, rfl⟩ := leads_done.1 more
          exact .stopped
    | tick now =>
        change Leads ((wholly (round cfg)).bind _) ys rest at asked
        rcases leads_bind asked with ⟨d', part, left, rfl⟩ | ⟨r, us, zs, rfl, whole, follows⟩
        · obtain ⟨vs, talk, rfl, part, _⟩ := leads_wholly part
          exact .working part (left.bind _)
        · obtain ⟨vs, talk, rfl, done, ⟨left, _⟩ | ⟨a, same, rfl⟩⟩ := leads_wholly whole
          · exact absurd left (not_unfinished_done r)
          · cases same
            rcases leads_bind follows with ⟨d', part, left, rfl⟩ | ⟨t', ws, us, rfl, after, ends⟩
            · rcases leads_afterRound part with ⟨rfl, _⟩ | ⟨t', _, rfl⟩
              · rw [List.append_nil]
                exact .working done (left.bind _)
              · exact absurd left (not_unfinished_done t')
            · obtain ⟨rfl, rfl⟩ := leads_done.1 ends
              rcases leads_afterRound after with ⟨_, left⟩ | ⟨_, after, _⟩
              · exact absurd left (not_unfinished_done t')
              · rw [List.append_nil]
                exact .whole done after

/-- The work of a relay as far as it got, of at most a number of turns, with what is left of it. -/
inductive Course (cfg : Config) : Nat → Transcript → LoopTalk Ending → Prop
  | spent : Course cfg 0 [] (.done .goingOn)
  | partway {n : Nat} {xs : Transcript} {t : LoopTalk (Option Ticker)} {rest : LoopTalk Ending}
      (turn : Lap cfg xs t) (early : t.Unfinished) (left : rest.Unfinished) :
      Course cfg (n + 1) xs rest
  | stopped {n : Nat} {xs : Transcript} (turn : Lap cfg xs (.done none)) :
      Course cfg (n + 1) xs (.done .stopped)
  | turned {n : Nat} {xs ys : Transcript} {t : Ticker} {rest : LoopTalk Ending}
      (turn : Lap cfg xs (.done (some t))) (more : Course cfg n ys rest) :
      Course cfg (n + 1) (xs ++ ys) rest

theorem leads_turns {t : Ticker} {rest : LoopTalk Ending} (h : Leads (turns cfg n t) xs rest) :
    Course cfg n xs rest := by
  induction n generalizing t xs with
  | zero =>
      obtain ⟨rfl, rfl⟩ := leads_done.1 h
      exact .spent
  | succ n ih =>
      rcases leads_bind h with ⟨d', part, left, rfl⟩ | ⟨ends, ys, zs, rfl, turn, more⟩
      · exact .partway (leads_turn part) left (left.bind _)
      · cases ends with
        | none =>
            obtain ⟨rfl, rfl⟩ := leads_done.1 more
            rw [List.append_nil]
            exact .stopped (leads_turn turn)
        | some t' => exact .turned (leads_turn turn) (ih more)

/-! ## Between rounds -/

/-- A number of whole rounds, each with its tick and what follows it. -/
inductive Laps (cfg : Config) : Nat → Transcript → Prop
  | none : Laps cfg 0 []
  | more {n : Nat} {xs ys : Transcript} {t : Ticker} (turn : Lap cfg xs (.done (some t)))
      (rest : Laps cfg n ys) : Laps cfg (n + 1) (xs ++ ys)

def Waits (x : Exchange surroundings) : Prop := ∃ due, x.call = .await due

theorem not_waits_worked (x : Exchange collaborators) : ¬ Waits (worked x) := by
  rintro ⟨due, same⟩
  cases same

theorem After.not_waits {r : Except WorkerError Summary} (h : After cfg r xs)
    {x : Exchange surroundings} (hx : x ∈ xs) : ¬ Waits x := by
  rintro ⟨due, same⟩
  cases h with
  | rest => cases hx
  | full =>
      cases List.mem_singleton.1 hx
      cases same
  | failed =>
      cases List.mem_singleton.1 hx
      cases same

/-- In a turn a relay waits at the start only. -/
theorem Lap.not_waits {t : LoopTalk (Option Ticker)} (h : Lap cfg xs t) {x : Exchange surroundings}
    (hx : x ∈ xs.tail) : ¬ Waits x := by
  cases h with
  | waiting => cases hx
  | leaving => cases hx
  | stopped =>
      cases List.mem_singleton.1 hx
      exact not_waits_worked ⟨.report _, ()⟩
  | working =>
      obtain ⟨y, _, rfl⟩ := List.mem_map.1 hx
      exact not_waits_worked y
  | whole done after =>
      rcases List.mem_append.1 hx with mem | mem
      · obtain ⟨y, _, rfl⟩ := List.mem_map.1 mem
        exact not_waits_worked y
      · exact after.not_waits mem

theorem Lap.first {t : LoopTalk (Option Ticker)} (h : Lap cfg xs t) {before after : Transcript}
    {x : Exchange surroundings} (split : xs = before ++ x :: after) (waits : Waits x) :
    before = [] := by
  cases before with
  | nil => rfl
  | cons y before =>
      refine absurd waits (h.not_waits ?_)
      rw [split]
      simp

/-- Whenever a relay waits, all its rounds so far are whole. -/
theorem Course.waits {rest : LoopTalk Ending} (h : Course cfg n xs rest)
    {before after : Transcript} {x : Exchange surroundings} (split : xs = before ++ x :: after)
    (waits : Waits x) : ∃ k < n, Laps cfg k before := by
  induction h generalizing before with
  | spent => simp at split
  | partway turn =>
      rw [turn.first split waits]
      exact ⟨0, Nat.succ_pos _, .none⟩
  | stopped turn =>
      rw [turn.first split waits]
      exact ⟨0, Nat.succ_pos _, .none⟩
  | @turned n xs ys t rest turn more ih =>
      rcases split_append split with ⟨us, rfl, again⟩ | ⟨us, rfl⟩
      · obtain ⟨k, few, laps⟩ := ih again
        exact ⟨k + 1, Nat.succ_lt_succ few, .more turn laps⟩
      · rw [turn.first rfl waits]
        exact ⟨0, Nat.succ_pos _, .none⟩

theorem Course.all (h : Course cfg n xs (.done .goingOn)) : Laps cfg n xs := by
  generalize ends : (.done .goingOn : LoopTalk Ending) = rest at h
  induction h with
  | spent => exact .none
  | partway turn early left =>
      cases ends
      exact absurd left (not_unfinished_done _)
  | stopped => cases ends
  | turned turn more ih => exact .more turn (ih ends)

/-! ## The whole of it -/

def started (cfg : Config) : Exchange surroundings :=
  ⟨.work (.report (.line .info "Outbox relay started" [("batch_size", .number cfg.batchSize),
    ("poll_interval_ms", .number cfg.pollInterval.millis)])), ()⟩

def Told (x : Exchange surroundings) : Prop := ∃ due, x = ⟨.await due, .stop⟩

theorem Course.told (h : Course cfg n xs (.done .stopped)) :
    ∃ before x last, xs = before ++ [x, last] ∧ Told x := by
  generalize ends : (.done .stopped : LoopTalk Ending) = rest at h
  induction h with
  | spent => cases ends
  | partway turn early left =>
      cases ends
      exact absurd left (not_unfinished_done _)
  | stopped turn =>
      cases turn with
      | leaving left => exact absurd left (not_unfinished_done _)
      | @stopped due x => exact ⟨[], _, _, rfl, due, rfl⟩
      | working part left => exact absurd left (not_unfinished_done _)
  | @turned _ xs _ _ _ turn more ih =>
      obtain ⟨before, x, last, rfl, told⟩ := ih ends
      exact ⟨xs ++ before, x, last, (List.append_assoc ..).symm, told⟩

/-- What is to be expected of a relay at work, after any exchanges.

* `course`: apart from what it says first, it did turns, each a tick with the whole of its round,
  failed or not, and a last one as far as that got.
* `between`: whenever it waited, and only then can it be told to stop, its rounds were whole.
* `all`: without having been told to stop, it does as many rounds as it may, whichever of them fail.
* `ends`: otherwise it ends just after it was told to stop. -/
structure Contained (cfg : Config) (n : Nat) (xs : Transcript) (rest : LoopTalk Ending) : Prop where
  course : (xs = [] ∧ rest.Unfinished) ∨ ∃ ys, xs = started cfg :: ys ∧ Course cfg n ys rest
  between : ∀ before x after, xs = before ++ x :: after → Waits x →
    ∃ k < n, ∃ whole, before = started cfg :: whole ∧ Laps cfg k whole
  all : rest = .done .goingOn → ∃ whole, xs = started cfg :: whole ∧ Laps cfg n whole
  ends : rest = .done .stopped → ∃ before x last, xs = before ++ [x, last] ∧ Told x

theorem contained_of_leads {rest : LoopTalk Ending} (h : Leads (run cfg n) xs rest) :
    Contained cfg n xs rest := by
  rcases leads_ask.1 h with ⟨rfl, rfl⟩ | ⟨r, ys, rfl, more⟩
  · refine ⟨Or.inl ⟨rfl, trivial⟩, ?_, nofun, nofun⟩
    intro before x after split
    simp at split
  · have course : Course cfg n ys rest := leads_turns more
    refine ⟨Or.inr ⟨ys, rfl, course⟩, ?_, ?_, ?_⟩
    · intro before x after split waits
      cases before with
      | nil =>
          cases (List.cons.inj split).1
          exact absurd waits (not_waits_worked ⟨.report _, ()⟩)
      | cons y whole =>
          obtain ⟨rfl, again⟩ := List.cons.inj split
          obtain ⟨k, few, laps⟩ := course.waits again waits
          exact ⟨k, few, whole, rfl, laps⟩
    · rintro rfl
      exact ⟨ys, rfl, course.all⟩
    · rintro rfl
      obtain ⟨before, x, last, rfl, told⟩ := course.told
      exact ⟨started cfg :: before, x, last, rfl, told⟩

end Courier.Relay
