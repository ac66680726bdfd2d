import Courier.Dispatch.Loop
import Courier.Proofs.Transcript

/-! # Workers at work

Whatever its collaborators answer and whenever it is asked to stop, a worker fetches nothing before
it has its group, and then does turn after turn: a batch that was fetched is handled to its last
delivery, each delivery once and in order, whichever of them fail. The request to stop is heard only
while the worker waits for the group, for messages or after an error, and nothing else ends the work.
-/

namespace Courier.Dispatch

open Dialogue

abbrev Transcript := List (Exchange surroundings)

def worked (x : Exchange collaborators) : Exchange surroundings := ⟨.work x.call, x.reply⟩

def complaint (message : String) (fields : List (String × FieldValue)) : Exchange surroundings :=
  worked ⟨.report (.line .error message fields), ()⟩

variable {α : Type} {cfg : Config} {n : Nat} {xs : Transcript}

theorem leads_wholly {talk : Talk α} {rest : LoopTalk α} (h : Leads (wholly talk) xs rest) :
    ∃ ys left, xs = ys.map worked ∧ Leads talk ys left ∧
      (rest.Unfinished ∧ left.Unfinished ∨ ∃ a, rest = .done a ∧ left = .done a) := by
  refine leads_expand (fun c ys rest asked => ?_) h
  rcases leads_ask.1 asked with ⟨rfl, rfl⟩ | ⟨r, us, rfl, more⟩
  · exact Or.inl ⟨rfl, trivial⟩
  · obtain ⟨rfl, rfl⟩ := leads_done.1 more
    exact Or.inr ⟨r, rfl, rfl⟩

theorem leads_complain {message : String} {fields : List (String × FieldValue)}
    {k : Unit → LoopTalk α} {rest : LoopTalk α}
    (h : Leads ((complain message fields).bind k) xs rest) :
    (xs = [] ∧ rest.Unfinished) ∨ ∃ ys, xs = complaint message fields :: ys ∧ Leads (k ()) ys rest := by
  rcases leads_ask.1 h with ⟨rfl, rfl⟩ | ⟨r, ys, rfl, more⟩
  · exact Or.inl ⟨rfl, trivial⟩
  · exact Or.inr ⟨ys, rfl, more⟩

/-! ## Batches -/

def complaints (d : Stream.Delivery) : Except WorkerError Outcome → Transcript
  | .ok _ => []
  | .error _ => [complaint "Failed to handle message" [("message_id", .text d.id)]]

/-- A batch is handled: each delivery once and in order, to the end of its handling. -/
inductive Handled (cfg : Config) : List Stream.Delivery → Transcript → Prop
  | none : Handled cfg [] []
  | more {d : Stream.Delivery} {ds : List Stream.Delivery} {ys : List (Exchange collaborators)}
      {r : Except WorkerError Outcome} {zs : Transcript}
      (whole : Leads (handle cfg d) ys (.done r)) (rest : Handled cfg ds zs) :
      Handled cfg (d :: ds) (ys.map worked ++ (complaints d r ++ zs))

/-- A batch is being handled: some deliveries to the end, and the next one as far as that got. -/
inductive PartHandled (cfg : Config) : List Stream.Delivery → Transcript → Prop
  | here {d : Stream.Delivery} {ds : List Stream.Delivery} {ys : List (Exchange collaborators)}
      {talk : Talk (Except WorkerError Outcome)} (part : Leads (handle cfg d) ys talk) :
      PartHandled cfg (d :: ds) (ys.map worked)
  | later {d : Stream.Delivery} {ds : List Stream.Delivery} {ys : List (Exchange collaborators)}
      {r : Except WorkerError Outcome} {zs : Transcript}
      (whole : Leads (handle cfg d) ys (.done r)) (rest : PartHandled cfg ds zs) :
      PartHandled cfg (d :: ds) (ys.map worked ++ (complaints d r ++ zs))

theorem leads_handleEach {ds : List Stream.Delivery} {rest : LoopTalk Unit}
    (h : Leads (handleEach cfg ds) xs rest) :
    (PartHandled cfg ds xs ∧ rest.Unfinished) ∨ (Handled cfg ds xs ∧ rest = .done ()) := by
  induction ds generalizing xs with
  | nil =>
      obtain ⟨rfl, rfl⟩ := leads_done.1 h
      exact Or.inr ⟨.none, rfl⟩
  | cons d ds ih =>
      rcases leads_bind h with ⟨d', part, left, rfl⟩ | ⟨r, us, zs, rfl, whole, follows⟩
      · obtain ⟨ys, talk, rfl, part, _⟩ := leads_wholly part
        exact Or.inl ⟨.here part, left.bind _⟩
      · obtain ⟨ys, talk, rfl, whole, ⟨left, _⟩ | ⟨a, same, rfl⟩⟩ := leads_wholly whole
        · exact absurd left (not_unfinished_done r)
        · cases same
          cases r with
          | ok o =>
              rcases ih follows with ⟨part, left⟩ | ⟨each, rfl⟩
              · exact Or.inl ⟨.later whole part, left⟩
              · exact Or.inr ⟨.more whole each, rfl⟩
          | error e =>
              rcases leads_complain follows with ⟨rfl, left⟩ | ⟨ws, rfl, others⟩
              · rw [List.append_nil]
                exact Or.inl ⟨.here whole, left⟩
              · rcases ih others with ⟨part, left⟩ | ⟨each, rfl⟩
                · exact Or.inl ⟨.later whole part, left⟩
                · exact Or.inr ⟨.more whole each, rfl⟩

/-! ## Turns -/

def fetchComplaint : Exchange surroundings := complaint "Failed to read from stream" []

/-- A turn of a worker as far as it got, with what is left of it. A turn that is done says whether
the work goes on. -/
inductive Lap (cfg : Config) : Transcript → LoopTalk Bool → Prop
  | fetching {fs : Transcript} {talk : LoopTalk (Option (Except WorkerError (List Stream.Delivery)))}
      {rest : LoopTalk Bool} (part : Leads (unlessStopped (fetch cfg)) fs talk)
      (early : talk.Unfinished) (left : rest.Unfinished) : Lap cfg fs rest
  | stopped {fs : Transcript} (broken : Leads (unlessStopped (fetch cfg)) fs (.done none)) :
      Lap cfg fs (.done false)
  | handling {fs hs : Transcript} {ds : List Stream.Delivery} {rest : LoopTalk Bool}
      (fetched : Leads (unlessStopped (fetch cfg)) fs (.done (some (.ok ds))))
      (part : PartHandled cfg ds hs) (left : rest.Unfinished) : Lap cfg (fs ++ hs) rest
  | handled {fs hs : Transcript} {ds : List Stream.Delivery}
      (fetched : Leads (unlessStopped (fetch cfg)) fs (.done (some (.ok ds))))
      (each : Handled cfg ds hs) : Lap cfg (fs ++ hs) (.done true)
  | complaining {fs ps : Transcript} {e : WorkerError} {rest : LoopTalk Bool}
      (failed : Leads (unlessStopped (fetch cfg)) fs (.done (some (.error e))))
      (part : ps <+: [fetchComplaint]) (left : rest.Unfinished) : Lap cfg (fs ++ ps) rest
  | paused {fs : Transcript} {e : WorkerError} {awake : Option Unit}
      (failed : Leads (unlessStopped (fetch cfg)) fs (.done (some (.error e)))) :
      Lap cfg (fs ++ [fetchComplaint, ⟨.pause errorPause, awake⟩]) (.done awake.isSome)

theorem leads_turn {rest : LoopTalk Bool} (h : Leads (turn cfg) xs rest) : Lap cfg xs rest := by
  rcases leads_bind h with ⟨d', part, left, rfl⟩ | ⟨r, fs, zs, rfl, fetched, follows⟩
  · exact .fetching part left (left.bind _)
  · rcases r with _ | ⟨e | ds⟩
    · obtain ⟨rfl, rfl⟩ := leads_done.1 follows
      rw [List.append_nil]
      exact .stopped fetched
    · rcases leads_complain follows with ⟨rfl, left⟩ | ⟨ys, rfl, pauses⟩
      · exact .complaining fetched List.nil_prefix left
      · rcases leads_ask.1 pauses with ⟨rfl, rfl⟩ | ⟨awake, us, rfl, ends⟩
        · exact .complaining fetched (List.prefix_refl _) trivial
        · obtain ⟨rfl, rfl⟩ := leads_done.1 ends
          exact .paused fetched
    · rcases leads_bind follows with ⟨d', part, left, rfl⟩ | ⟨u, hs, zs', rfl, each, ends⟩
      · rcases leads_handleEach part with ⟨part, _⟩ | ⟨_, rfl⟩
        · exact .handling fetched part (left.bind _)
        · exact absurd left (not_unfinished_done ())
      · obtain ⟨rfl, rfl⟩ := leads_done.1 ends
        rcases leads_handleEach each with ⟨_, left⟩ | ⟨each, _⟩
        · exact absurd left (not_unfinished_done u)
        · rw [List.append_nil]
          exact .handled fetched each

/-- The turns of a worker as far as they got, of at most a number of them, with what is left. -/
inductive Course (cfg : Config) : Nat → Transcript → LoopTalk Ending → Prop
  | spent : Course cfg 0 [] (.done .goingOn)
  | partway {n : Nat} {xs : Transcript} {t : LoopTalk Bool} {rest : LoopTalk Ending}
      (turn : Lap cfg xs t) (early : t.Unfinished ∨ t = .done false) (left : rest.Unfinished) :
      Course cfg (n + 1) xs rest
  | stopped {n : Nat} {xs : Transcript} {x : Report} (turn : Lap cfg xs (.done false)) :
      Course cfg (n + 1) (xs ++ [worked ⟨.report x, ()⟩]) (.done .stopped)
  | turned {n : Nat} {xs ys : Transcript} {rest : LoopTalk Ending}
      (turn : Lap cfg xs (.done true)) (more : Course cfg n ys rest) :
      Course cfg (n + 1) (xs ++ ys) rest

theorem leads_turns {rest : LoopTalk Ending} (h : Leads (turns cfg n) xs rest) :
    Course cfg n xs rest := by
  induction n generalizing xs with
  | zero =>
      obtain ⟨rfl, rfl⟩ := leads_done.1 h
      exact .spent
  | succ n ih =>
      rcases leads_bind h with ⟨d', part, left, rfl⟩ | ⟨on, ys, zs, rfl, turn, more⟩
      · exact .partway (leads_turn part) (Or.inl left) (left.bind _)
      · cases on with
        | true => exact .turned (leads_turn turn) (ih more)
        | false =>
            rcases leads_ask.1 more with ⟨rfl, rfl⟩ | ⟨r, us, rfl, ends⟩
            · rw [List.append_nil]
              exact .partway (leads_turn turn) (Or.inr rfl) trivial
            · obtain ⟨rfl, rfl⟩ := leads_done.1 ends
              exact .stopped (leads_turn turn)

/-! ## Having the group -/

def groupComplaint : Exchange surroundings := complaint "Failed to create consumer group" []

/-- An attempt at having the group as far as it got, with what is left of it. -/
inductive Attempt : Transcript → LoopTalk Readiness → Prop
  | partway {e : Stream.BrokerError} {ps : Transcript} {rest : LoopTalk Readiness}
      (part : ps <+: [⟨.ensureGroup, some (.error e)⟩, groupComplaint]) (left : rest.Unfinished) :
      Attempt ps rest
  | ready : Attempt [⟨.ensureGroup, some (.ok ())⟩] (.done .ready)
  | stopped : Attempt [⟨.ensureGroup, none⟩] (.done .stopped)
  | notYet {e : Stream.BrokerError} :
      Attempt [⟨.ensureGroup, some (.error e)⟩, groupComplaint, ⟨.pause errorPause, some ()⟩]
        (.done .notYet)
  | quit {e : Stream.BrokerError} :
      Attempt [⟨.ensureGroup, some (.error e)⟩, groupComplaint, ⟨.pause errorPause, none⟩]
        (.done .stopped)

theorem leads_prepareOnce {rest : LoopTalk Readiness} (h : Leads prepareOnce xs rest) :
    Attempt xs rest := by
  rcases leads_ask.1 h with ⟨rfl, rfl⟩ | ⟨r, ys, rfl, follows⟩
  · exact .partway (e := .unavailable "") List.nil_prefix trivial
  · rcases r with _ | ⟨e | u⟩
    · obtain ⟨rfl, rfl⟩ := leads_done.1 follows
      exact .stopped
    · rcases leads_complain follows with ⟨rfl, left⟩ | ⟨us, rfl, pauses⟩
      · exact .partway ⟨[groupComplaint], rfl⟩ left
      · rcases leads_ask.1 pauses with ⟨rfl, rfl⟩ | ⟨awake, vs, rfl, ends⟩
        · exact .partway (List.prefix_refl _) trivial
        · cases awake with
          | none =>
              obtain ⟨rfl, rfl⟩ := leads_done.1 ends
              exact .quit
          | some u =>
              obtain ⟨rfl, rfl⟩ := leads_done.1 ends
              exact .notYet
    · obtain ⟨rfl, rfl⟩ := leads_done.1 follows
      exact .ready

def started (cfg : Config) : Exchange surroundings :=
  worked ⟨.report (.line .info "Webhook worker started" [("consumer", .text cfg.consumer)]), ()⟩

/-- The work of a worker as far as it got, of at most a number of attempts and turns altogether. -/
inductive Life (cfg : Config) : Nat → Transcript → LoopTalk Ending → Prop
  | spent : Life cfg 0 [] (.done .goingOn)
  | partway {n : Nat} {xs : Transcript} {t : LoopTalk Readiness} {rest : LoopTalk Ending}
      (attempt : Attempt xs t) (early : t.Unfinished ∨ t = .done .ready) (left : rest.Unfinished) :
      Life cfg (n + 1) xs rest
  | stopped {n : Nat} {xs : Transcript} (attempt : Attempt xs (.done .stopped)) :
      Life cfg (n + 1) xs (.done .stopped)
  | again {n : Nat} {xs ys : Transcript} {rest : LoopTalk Ending}
      (attempt : Attempt xs (.done .notYet)) (more : Life cfg n ys rest) :
      Life cfg (n + 1) (xs ++ ys) rest
  | grouped {n : Nat} {xs ys : Transcript} {rest : LoopTalk Ending}
      (attempt : Attempt xs (.done .ready)) (course : Course cfg n ys rest) :
      Life cfg (n + 1) (xs ++ started cfg :: ys) rest

theorem leads_run {rest : LoopTalk Ending} (h : Leads (run cfg n) xs rest) : Life cfg n xs rest := by
  induction n generalizing xs with
  | zero =>
      obtain ⟨rfl, rfl⟩ := leads_done.1 h
      exact .spent
  | succ n ih =>
      rcases leads_bind h with ⟨d', part, left, rfl⟩ | ⟨got, ys, zs, rfl, attempt, more⟩
      · exact .partway (leads_prepareOnce part) (Or.inl left) (left.bind _)
      · cases got with
        | notYet => exact .again (leads_prepareOnce attempt) (ih more)
        | stopped =>
            obtain ⟨rfl, rfl⟩ := leads_done.1 more
            rw [List.append_nil]
            exact .stopped (leads_prepareOnce attempt)
        | ready =>
            rcases leads_ask.1 more with ⟨rfl, rfl⟩ | ⟨r, us, rfl, turns⟩
            · rw [List.append_nil]
              exact .partway (leads_prepareOnce attempt) (Or.inr rfl) trivial
            · exact .grouped (leads_prepareOnce attempt) (leads_turns turns)

/-! ## Between batches -/

def LoopCall.fetches : LoopCall → Bool
  | .work (.reclaim ..) | .work (.read ..) | .breakable (.reclaim ..) | .breakable (.read ..) => true
  | _ => false

def LoopCall.begins : LoopCall → Bool
  | .breakable (.reclaim ..) => true
  | _ => false

theorem LoopCall.fetches_of_begins {c : LoopCall} (h : c.begins = true) : c.fetches = true := by
  unfold begins at h
  split at h
  · rfl
  · cases h

theorem Attempt.not_fetches {t : LoopTalk Readiness} (h : Attempt xs t)
    {x : Exchange surroundings} (hx : x ∈ xs) : x.call.fetches = false := by
  cases h with
  | partway part =>
      have mem := part.subset hx
      simp only [List.mem_cons, List.not_mem_nil, or_false] at mem
      rcases mem with rfl | rfl <;> rfl
  | ready =>
      cases List.mem_singleton.1 hx
      rfl
  | stopped =>
      cases List.mem_singleton.1 hx
      rfl
  | notYet =>
      simp only [List.mem_cons, List.not_mem_nil, or_false] at hx
      rcases hx with rfl | rfl | rfl <;> rfl
  | quit =>
      simp only [List.mem_cons, List.not_mem_nil, or_false] at hx
      rcases hx with rfl | rfl | rfl <;> rfl

theorem Attempt.not_mem {t : LoopTalk Readiness} (h : Attempt xs t) {x : Exchange surroundings}
    (fetches : x.call.fetches = true) : x ∉ xs := by
  intro held
  cases fetches.symm.trans (h.not_fetches held)

theorem Attempt.has_group (h : Attempt xs (.done .ready)) :
    ⟨.ensureGroup, some (.ok ())⟩ ∈ xs := by
  cases h with
  | partway part left => exact absurd left (not_unfinished_done _)
  | ready => exact List.mem_singleton_self _

theorem complaints_worked {d : Stream.Delivery} {r : Except WorkerError Outcome}
    {x : Exchange surroundings} (hx : x ∈ complaints d r) : ∃ y, x = worked y := by
  cases r with
  | ok o => cases hx
  | error e => exact ⟨_, List.mem_singleton.1 hx⟩

theorem worked_or_later {d : Stream.Delivery} {r : Except WorkerError Outcome}
    {ys : List (Exchange collaborators)} {zs : Transcript} {x : Exchange surroundings}
    (hx : x ∈ ys.map worked ++ (complaints d r ++ zs)) : (∃ y, x = worked y) ∨ x ∈ zs := by
  rcases List.mem_append.1 hx with mem | mem
  · obtain ⟨y, _, rfl⟩ := List.mem_map.1 mem
    exact Or.inl ⟨y, rfl⟩
  · exact (List.mem_append.1 mem).imp_left complaints_worked

/-- While a batch is handled, a worker asks only what its handling asks. -/
theorem Handled.worked {ds : List Stream.Delivery} (h : Handled cfg ds xs)
    {x : Exchange surroundings} (hx : x ∈ xs) : ∃ y, x = worked y := by
  induction h with
  | none => cases hx
  | more whole rest ih => exact (worked_or_later hx).elim id ih

theorem PartHandled.worked {ds : List Stream.Delivery} (h : PartHandled cfg ds xs)
    {x : Exchange surroundings} (hx : x ∈ xs) : ∃ y, x = worked y := by
  induction h with
  | here part =>
      obtain ⟨y, _, rfl⟩ := List.mem_map.1 hx
      exact ⟨y, rfl⟩
  | later whole rest ih => exact (worked_or_later hx).elim id ih

theorem unlessStopped_ask {c : Call} {k : c.Reply → Talk α} (silent : ∀ r, c ≠ .report r) :
    unlessStopped (.ask c k) = .ask (.breakable c) fun
      | none => .done none
      | some a => unlessStopped (k a) :=
  unlessStopped.eq_3 c k fun r _ same _ => silent r same

theorem leads_breakable {c : Call} {k : c.Reply → Talk α} {rest : LoopTalk (Option α)}
    (h : Leads (unlessStopped (.ask c k)) xs rest) (silent : ∀ r, c ≠ .report r) :
    (xs = [] ∧ rest.Unfinished) ∨ (xs = [⟨.breakable c, none⟩] ∧ rest = .done none) ∨
      ∃ a ys, xs = ⟨.breakable c, some a⟩ :: ys ∧ Leads (unlessStopped (k a)) ys rest := by
  rw [unlessStopped_ask silent] at h
  rcases leads_ask.1 h with ⟨rfl, rfl⟩ | ⟨_ | a, ys, rfl, more⟩
  · exact Or.inl ⟨rfl, trivial⟩
  · obtain ⟨rfl, rfl⟩ := leads_done.1 more
    exact Or.inr (Or.inl ⟨rfl, rfl⟩)
  · exact Or.inr (Or.inr ⟨a, ys, rfl, more⟩)

/-- A fetch asks first for what waited too long, and never for that again. -/
theorem leads_fetch {rest : LoopTalk (Option (Except WorkerError (List Stream.Delivery)))}
    (h : Leads (unlessStopped (fetch cfg)) xs rest) {x : Exchange surroundings}
    (hx : x ∈ xs.tail) : x.call.begins = false := by
  rcases leads_breakable h nofun with ⟨rfl, _⟩ | ⟨rfl, _⟩ | ⟨r, ys, rfl, more⟩
  · cases hx
  · cases hx
  · rcases r with e | _ | ⟨d, ds⟩
    · obtain ⟨rfl, rfl⟩ := leads_done.1 more
      cases hx
    · rcases leads_breakable more nofun with ⟨rfl, _⟩ | ⟨rfl, _⟩ | ⟨r, us, rfl, ends⟩
      · cases hx
      · cases List.mem_singleton.1 hx
        rfl
      · rcases r with e | ds <;>
        · obtain ⟨rfl, rfl⟩ := leads_done.1 ends
          cases List.mem_singleton.1 hx
          rfl
    · rcases leads_ask.1 more with ⟨rfl, rfl⟩ | ⟨r, us, rfl, ends⟩
      · cases hx
      · obtain ⟨rfl, rfl⟩ := leads_done.1 ends
        cases List.mem_singleton.1 hx
        rfl

/-- What follows a fetch begins no other, if it asks for nothing of the kind. -/
theorem not_begins_after {fs hs : Transcript}
    {rest : LoopTalk (Option (Except WorkerError (List Stream.Delivery)))}
    (fetched : Leads (unlessStopped (fetch cfg)) fs rest)
    (follows : ∀ x ∈ hs, x.call.begins = false) {x : Exchange surroundings}
    (hx : x ∈ (fs ++ hs).tail) : x.call.begins = false := by
  cases fs with
  | nil => exact follows x (List.mem_of_mem_tail hx)
  | cons f fs => exact (List.mem_append.1 hx).elim (leads_fetch fetched) (follows x)

/-- In a turn a fetch begins at the start only. -/
theorem Lap.not_begins {t : LoopTalk Bool} (h : Lap cfg xs t) {x : Exchange surroundings}
    (hx : x ∈ xs.tail) : x.call.begins = false := by
  cases h with
  | fetching part => exact leads_fetch part hx
  | stopped broken => exact leads_fetch broken hx
  | handling fetched part =>
      refine not_begins_after fetched (fun x mem => ?_) hx
      obtain ⟨y, rfl⟩ := part.worked mem
      rfl
  | handled fetched each =>
      refine not_begins_after fetched (fun x mem => ?_) hx
      obtain ⟨y, rfl⟩ := each.worked mem
      rfl
  | complaining failed part =>
      refine not_begins_after failed (fun x mem => ?_) hx
      rw [List.mem_singleton.1 (part.subset mem)]
      rfl
  | paused failed =>
      refine not_begins_after failed (fun x mem => ?_) hx
      simp only [List.mem_cons, List.not_mem_nil, or_false] at mem
      rcases mem with rfl | rfl <;> rfl

theorem Lap.first {t : LoopTalk Bool} (h : Lap cfg xs t) {before after : Transcript}
    {x : Exchange surroundings} (split : xs = before ++ x :: after)
    (begins : x.call.begins = true) : before = [] := by
  cases before with
  | nil => rfl
  | cons y before =>
      have held : x ∈ xs.tail := by
        rw [split]
        simp
      cases begins.symm.trans (h.not_begins held)

/-- A number of whole turns, each with the whole of its batch. -/
inductive Laps (cfg : Config) : Nat → Transcript → Prop
  | none : Laps cfg 0 []
  | more {n : Nat} {xs ys : Transcript} (turn : Lap cfg xs (.done true))
      (rest : Laps cfg n ys) : Laps cfg (n + 1) (xs ++ ys)

/-- Whenever a fetch begins, all batches so far are handled. -/
theorem Course.begins {rest : LoopTalk Ending} (h : Course cfg n xs rest)
    {before after : Transcript} {x : Exchange surroundings} (split : xs = before ++ x :: after)
    (begins : x.call.begins = true) : ∃ k < n, Laps cfg k before := by
  induction h generalizing before after with
  | spent => simp at split
  | partway turn =>
      rw [turn.first split begins]
      exact ⟨0, Nat.succ_pos _, .none⟩
  | stopped turn =>
      rcases split_append split with ⟨us, rfl, again⟩ | ⟨us, rfl⟩
      · cases us with
        | nil =>
            cases (List.cons.inj again).1
            cases begins
        | cons y us => simp at again
      · rw [turn.first rfl begins]
        exact ⟨0, Nat.succ_pos _, .none⟩
  | turned turn more ih =>
      rcases split_append split with ⟨us, rfl, again⟩ | ⟨us, rfl⟩
      · obtain ⟨k, few, laps⟩ := ih again
        exact ⟨k + 1, Nat.succ_lt_succ few, .more turn laps⟩
      · rw [turn.first rfl begins]
        exact ⟨0, Nat.succ_pos _, .none⟩

theorem Course.all (h : Course cfg n xs (.done .goingOn)) : Laps cfg n xs := by
  generalize ends : (.done .goingOn : LoopTalk Ending) = rest at h
  induction h with
  | spent => exact .none
  | partway turn early left =>
      cases ends
      exact absurd left (not_unfinished_done _)
  | stopped => cases ends
  | turned turn more ih => exact .more turn (ih ends)

/-- A number of attempts at having the group that failed, or of attempts and whole turns after one of
the attempts succeeded. -/
inductive Worked (cfg : Config) : Nat → Transcript → Prop
  | none : Worked cfg 0 []
  | again {n : Nat} {xs ys : Transcript} (attempt : Attempt xs (.done .notYet))
      (more : Worked cfg n ys) : Worked cfg (n + 1) (xs ++ ys)
  | grouped {n : Nat} {xs ys : Transcript} (attempt : Attempt xs (.done .ready))
      (laps : Laps cfg n ys) : Worked cfg (n + 1) (xs ++ started cfg :: ys)

theorem Life.begins {rest : LoopTalk Ending} (h : Life cfg n xs rest)
    {before after : Transcript} {x : Exchange surroundings} (split : xs = before ++ x :: after)
    (begins : x.call.begins = true) : ∃ k < n, Worked cfg k before := by
  have fetches := LoopCall.fetches_of_begins begins
  induction h generalizing before with
  | spent => simp at split
  | partway attempt => exact absurd (by simp [split]) (attempt.not_mem fetches)
  | stopped attempt => exact absurd (by simp [split]) (attempt.not_mem fetches)
  | again attempt more ih =>
      rcases split_append split with ⟨us, rfl, again⟩ | ⟨us, rfl⟩
      · obtain ⟨k, few, worked⟩ := ih again
        exact ⟨k + 1, Nat.succ_lt_succ few, .again attempt worked⟩
      · exact absurd (by simp) (attempt.not_mem fetches)
  | grouped attempt course =>
      rcases split_append split with ⟨us, rfl, again⟩ | ⟨us, rfl⟩
      · cases us with
        | nil =>
            cases (List.cons.inj again).1
            cases begins
        | cons y us =>
            obtain ⟨rfl, later⟩ := List.cons.inj again
            obtain ⟨k, few, laps⟩ := course.begins later begins
            exact ⟨k + 1, Nat.succ_lt_succ few, .grouped attempt laps⟩
      · exact absurd (by simp) (attempt.not_mem fetches)

theorem Life.fetches {rest : LoopTalk Ending} (h : Life cfg n xs rest)
    {before after : Transcript} {x : Exchange surroundings} (split : xs = before ++ x :: after)
    (fetches : x.call.fetches = true) : ⟨.ensureGroup, some (.ok ())⟩ ∈ before := by
  induction h generalizing before with
  | spent => simp at split
  | partway attempt => exact absurd (by simp [split]) (attempt.not_mem fetches)
  | stopped attempt => exact absurd (by simp [split]) (attempt.not_mem fetches)
  | again attempt more ih =>
      rcases split_append split with ⟨us, rfl, again⟩ | ⟨us, rfl⟩
      · exact List.mem_append_right _ (ih again)
      · exact absurd (by simp) (attempt.not_mem fetches)
  | grouped attempt course =>
      rcases split_append split with ⟨us, rfl, again⟩ | ⟨us, rfl⟩
      · exact List.mem_append_left us attempt.has_group
      · exact absurd (by simp) (attempt.not_mem fetches)

theorem Life.all (h : Life cfg n xs (.done .goingOn)) : Worked cfg n xs := by
  generalize ends : (.done .goingOn : LoopTalk Ending) = rest at h
  induction h with
  | spent => exact .none
  | partway attempt early left =>
      cases ends
      exact absurd left (not_unfinished_done _)
  | stopped => cases ends
  | again attempt more ih => exact .again attempt (ih ends)
  | grouped attempt course =>
      cases ends
      exact .grouped attempt course.all

/-! ## The request to stop -/

inductive Told : Exchange surroundings → Prop
  | fetching (c : Call) : Told ⟨.breakable c, none⟩
  | preparing : Told ⟨.ensureGroup, none⟩
  | pausing (s : Span) : Told ⟨.pause s, none⟩

theorem told_of_broken {talk : Talk α} (h : Leads (unlessStopped talk) xs (.done none)) :
    ∃ before x, xs = before ++ [x] ∧ Told x := by
  induction talk generalizing xs with
  | done a => cases (leads_done.1 h).2
  | ask c k ih =>
      by_cases spoken : ∃ r, c = .report r
      · obtain ⟨r, rfl⟩ := spoken
        rcases leads_ask.1 h with ⟨_, same⟩ | ⟨u, ys, rfl, more⟩
        · cases same
        · obtain ⟨before, x, rfl, told⟩ := ih u more
          exact ⟨_ :: before, x, rfl, told⟩
      · rcases leads_breakable h fun r same => spoken ⟨r, same⟩ with
          ⟨_, left⟩ | ⟨rfl, _⟩ | ⟨a, ys, rfl, more⟩
        · exact absurd left (not_unfinished_done _)
        · exact ⟨[], _, rfl, .fetching c⟩
        · obtain ⟨before, x, rfl, told⟩ := ih a more
          exact ⟨_ :: before, x, rfl, told⟩

theorem Lap.told (h : Lap cfg xs (.done false)) : ∃ before x, xs = before ++ [x] ∧ Told x := by
  generalize ends : (.done false : LoopTalk Bool) = t at h
  cases h with
  | fetching part early left =>
      cases ends
      exact absurd left (not_unfinished_done _)
  | stopped broken => exact told_of_broken broken
  | handling fetched part left =>
      cases ends
      exact absurd left (not_unfinished_done _)
  | handled => cases ends
  | complaining failed part left =>
      cases ends
      exact absurd left (not_unfinished_done _)
  | @paused fs e awake failed =>
      cases awake with
      | some u => cases ends
      | none => exact ⟨fs ++ [fetchComplaint], _, by simp, .pausing errorPause⟩

theorem Attempt.told (h : Attempt xs (.done .stopped)) :
    ∃ before x, xs = before ++ [x] ∧ Told x := by
  cases h with
  | partway part left => exact absurd left (not_unfinished_done _)
  | stopped => exact ⟨[], _, rfl, .preparing⟩
  | @quit e => exact ⟨[⟨.ensureGroup, some (.error e)⟩, groupComplaint], _, rfl, .pausing errorPause⟩

/-- A worker that has ended was told to stop, and said at most that it does. -/
def ToldLast (xs : Transcript) : Prop :=
  ∃ before x last, xs = before ++ x :: last ∧ Told x ∧
    (last = [] ∨ ∃ r, last = [worked ⟨.report r, ()⟩])

theorem ToldLast.append (ys : Transcript) (h : ToldLast xs) : ToldLast (ys ++ xs) := by
  obtain ⟨before, x, last, rfl, told, silent⟩ := h
  exact ⟨ys ++ before, x, last, (List.append_assoc ..).symm, told, silent⟩

theorem Course.told (h : Course cfg n xs (.done .stopped)) : ToldLast xs := by
  generalize ends : (.done .stopped : LoopTalk Ending) = rest at h
  induction h with
  | spent => cases ends
  | partway turn early left =>
      cases ends
      exact absurd left (not_unfinished_done _)
  | @stopped n xs r turn =>
      obtain ⟨before, x, rfl, told⟩ := turn.told
      exact ⟨before, x, [worked ⟨.report r, ()⟩], by simp, told, Or.inr ⟨r, rfl⟩⟩
  | turned turn more ih => exact (ih ends).append _

theorem Life.told (h : Life cfg n xs (.done .stopped)) : ToldLast xs := by
  generalize ends : (.done .stopped : LoopTalk Ending) = rest at h
  induction h with
  | spent => cases ends
  | partway attempt early left =>
      cases ends
      exact absurd left (not_unfinished_done _)
  | stopped attempt =>
      obtain ⟨before, x, rfl, told⟩ := attempt.told
      exact ⟨before, x, [], rfl, told, Or.inl rfl⟩
  | again attempt more ih => exact (ih ends).append _
  | grouped attempt course =>
      cases ends
      rw [List.append_cons]
      exact course.told.append _

/-! ## The whole of it -/

/-- What is to be expected of a worker at work, after any exchanges.

* `life`: after its attempts at having the group it did turns. A fetch that was completed is followed
  by the handling of its batch, each delivery once and in order, failed or not; only a transcript
  that stops short may stop short of that.
* `grouped`: it asked for messages only after it had the group.
* `between`: whenever a fetch begins, every batch before was handled to its end.
* `all`: without having been told to stop, it goes on for as long as it may, whatever fails.
* `ends`: otherwise it ends just after it was told to stop. -/
structure Contained (cfg : Config) (n : Nat) (xs : Transcript) (rest : LoopTalk Ending) : Prop where
  life : Life cfg n xs rest
  grouped : ∀ before x after, xs = before ++ x :: after → x.call.fetches = true →
    ⟨.ensureGroup, some (.ok ())⟩ ∈ before
  between : ∀ before x after, xs = before ++ x :: after → x.call.begins = true →
    ∃ k < n, Worked cfg k before
  all : rest = .done .goingOn → Worked cfg n xs
  ends : rest = .done .stopped → ToldLast xs

theorem contained_of_leads {rest : LoopTalk Ending} (h : Leads (run cfg n) xs rest) :
    Contained cfg n xs rest := by
  have life : Life cfg n xs rest := leads_run h
  refine ⟨life, fun _ _ _ split => life.fetches split, fun _ _ _ split => life.begins split, ?_, ?_⟩
  · rintro rfl
    exact life.all
  · rintro rfl
    exact life.told

end Courier.Dispatch
