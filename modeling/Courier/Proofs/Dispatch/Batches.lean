import Courier.Dispatch.Loop
import Courier.Proofs.Dispatch.Timing

/-! # Workers that handle batches

A worker fetches a batch and handles its deliveries one after another. Nothing but a POST takes time,
and a POST ends within the timeout, so that a delivery waits for as many POSTs at most as there are
deliveries before it in its batch. The stream hands a message out again only when it has been idle
for as long as the worker asks for, counted from when it was last handed out.

Within a batch a worker does what `handleEach` does: the steps of a worker are told apart from those
of the others by what it has left of its batch.
-/

namespace Courier.Dispatch

open Courier.Stream

/-- Workers with the rest of the batch of each, when it was fetched, and when each message of the
stream was last handed out. -/
structure Batches extends Crew where
  later : Nat → List Delivery
  fetched : Nat → Int
  handed : String → Option Int

namespace Batches

inductive Move
  | fetch (worker : Nat) (batch : List Delivery)
  | work (m : Crew.Move)

/-- How the stream answers a worker that fetches. It hands out what was idle for long enough, and
what was never handed out. -/
inductive Hands (s : Batches) : (c : Call) → c.Reply → Prop
  | report (r : Report) (u : Unit) : Hands s (.report r) u
  | reclaim {consumer : String} {minIdle : Span} {count : Nat} {ds : List Delivery}
      (few : ds.length ≤ count) (once : (ds.map (·.id)).Nodup)
      (idle : ∀ d ∈ ds, d ∈ s.entries ∧
        ∃ last, s.handed d.id = some last ∧ last + minIdle.nanos ≤ s.clock) :
      Hands s (.reclaim consumer minIdle count) (Except.ok ds : Except BrokerError _)
  | reclaimFailed {consumer : String} {minIdle : Span} {count : Nat} (e : BrokerError) :
      Hands s (.reclaim consumer minIdle count) (Except.error e : Except BrokerError _)
  | read {consumer : String} {count : Nat} {block : Span} {ds : List Delivery}
      (few : ds.length ≤ count) (once : (ds.map (·.id)).Nodup)
      (new : ∀ d ∈ ds, d ∈ s.entries ∧ s.handed d.id = none) :
      Hands s (.read consumer count block) (Except.ok ds : Except BrokerError _)
  | readFailed {consumer : String} {count : Nat} {block : Span} (e : BrokerError) :
      Hands s (.read consumer count block) (Except.error e : Except BrokerError _)

/-- When messages were last handed out, after a batch of them now. -/
def handOut (s : Batches) (batch : List Delivery) (id : String) : Option Int :=
  if id ∈ batch.map (·.id) then some s.clock else s.handed id

def restAfter (later : Nat → List Delivery) : Crew.Move → Nat → List Delivery
  | .take w _ => Function.update later w (later w).tail
  | .crash w => Function.update later w []
  | _ => later

/-- A worker lets the clock go on to a time: it has nothing to do, or it is in a POST that is within
the timeout. -/
def Waits (timeout : Span) (s : Batches) (clock : Int) (w : Nat) : Prop :=
  match s.workers w with
  | none => s.later w = []
  | some g => (∃ request, upcoming g.rest = some (.send request)) ∧
      ∀ start ∈ g.since, clock ≤ start + timeout.nanos

/-- Workers take the deliveries of a batch in order, no marker lapses before its time, and time
passes in POSTs and between batches only. -/
def Orderly (timeout : Span) (s : Batches) : Crew.Move → Prop
  | .take w d => (s.later w).head? = some d
  | .lapse _ => False
  | .advance clock => s.clock ≤ clock ∧ ∀ w, Waits timeout s clock w
  | _ => True

inductive Step (cfg : Nat → Config) (timeout : Span) : Batches → Move → Batches → Prop
  | fetch {s : Batches} {w : Nat} {batch : List Delivery} (free : s.workers w = none)
      (handled : s.later w = [])
      (given : (Dispatch.fetch (cfg w)).Told (Hands s) (.ok batch)) :
      Step cfg timeout s (.fetch w batch)
        { s with
          later := Function.update s.later w batch
          fetched := Function.update s.fetched w s.clock
          handed := s.handOut batch }
  | work {s : Batches} {m : Crew.Move} {crew : Crew} (step : Crew.Step cfg s.toCrew m crew)
      (orderly : Orderly timeout s m) :
      Step cfg timeout s (.work m) { s with toCrew := crew, later := restAfter s.later m }

structure Fresh (s : Batches) : Prop where
  workers : ∀ w, s.workers w = none
  later : ∀ w, s.later w = []
  handed : ∀ id, s.handed id = none
  markers : s.markers = .empty

abbrev Trace := List (Transition Batches Move)

/-- The store answers a worker that asks for the marker of a delivery. -/
def Asked (t : Transition Batches Move) (w : Nat) (d : Delivery) (key : String)
    (r : Except Marker.StoreError (Option Marker)) : Prop :=
  ∃ g ttl, t.before.workers w = some g ∧ g.delivery = d ∧
    t.move = .work (.answer w (.tryBegin key ttl) r)

def Fails (t : Transition Batches Move) (w : Nat) (d : Delivery) : Prop :=
  ∃ g request e, t.before.workers w = some g ∧ g.delivery = d ∧
    t.move = .work (.answer w (.send request) (.error e))

variable {cfg : Nat → Config} {timeout : Span} {s s' : Batches} {m : Move} {w : Nat}
  {d : Delivery} {ds batch : List Delivery}

theorem Orderly.next {crew : Crew.Move} (h : Orderly timeout s crew) (taken : crew = .take w d) :
    s.later w = d :: (s.later w).tail := by
  subst taken
  unfold Orderly at h
  cases hl : s.later w with
  | nil => simp [hl] at h
  | cons e es => simpa [hl] using h

theorem Step.timed {m : Crew.Move} (h : Step cfg timeout s (.work m) s') :
    Crew.TimedStep cfg timeout s.toCrew m s'.toCrew := by
  cases h with
  | work step orderly =>
      refine ⟨step, ?_⟩
      cases m with
      | advance clock =>
          refine ⟨orderly.1, fun w g hg => ?_⟩
          have waits := orderly.2 w
          rw [Waits, hg] at waits
          obtain ⟨⟨request, next⟩, within⟩ := waits
          rw [Crew.Allows, next]
          exact within
      | lapse => exact orderly
      | _ => trivial

theorem Step.clock_le (h : Step cfg timeout s m s') : s.clock ≤ s'.clock := by
  cases m with
  | fetch => cases h; exact Int.le_refl _
  | work => exact h.timed.clock_le

/-! ## Batches -/

/-- A batch is no longer than the worker asked for, and nothing in it was handed out a short while
ago. -/
theorem fetch_told {wcfg : Config} (given : (fetch wcfg).Told (Hands s) (.ok batch)) :
    batch.length ≤ wcfg.readCount ∧ (batch.map (·.id)).Nodup ∧
      ∀ d ∈ batch, d ∈ s.entries ∧
        ∀ last, s.handed d.id = some last → last + wcfg.reclaimIdle.nanos ≤ s.clock := by
  cases given with
  | ask r may rest =>
      cases may with
      | reclaimFailed e => cases rest
      | @reclaim _ _ _ reclaimed few once idle =>
          cases reclaimed with
          | nil =>
              cases rest with
              | ask r may rest =>
                  cases may with
                  | readFailed e => cases rest
                  | read few once new =>
                      cases rest
                      refine ⟨few, once, fun d hd => ⟨(new d hd).1, fun last hlast => ?_⟩⟩
                      cases (new d hd).2.symm.trans hlast
          | cons first others =>
              cases rest with
              | ask r may rest =>
                  cases rest
                  refine ⟨few, once, fun d hd => ?_⟩
                  obtain ⟨mem, last, handed, lapsed⟩ := idle d hd
                  refine ⟨mem, fun last' hlast' => ?_⟩
                  cases handed.symm.trans hlast'
                  exact lapsed

theorem handOut_of_mem (hd : d ∈ batch) :
    s.handOut batch d.id = some s.clock :=
  if_pos (List.mem_map_of_mem hd)

theorem handOut_of_not_mem (hd : ∀ e ∈ batch, e.id ≠ d.id) :
    s.handOut batch d.id = s.handed d.id := by
  refine if_neg fun mem => ?_
  obtain ⟨e, he, same⟩ := List.mem_map.1 mem
  exact hd e he same

/-! ## What a worker has left -/

/-- What follows a handling in `handleEach`. -/
def afterEach (wcfg : Config) (d : Delivery) (ds : List Delivery) :
    Except WorkerError Outcome → LoopTalk Unit
  | .error _ => do
    complain "Failed to handle message" [("message_id", .text d.id)]
    handleEach wcfg ds
  | .ok _ => handleEach wcfg ds

theorem handleEach_cons (wcfg : Config) (d : Delivery) (ds : List Delivery) :
    handleEach wcfg (d :: ds) = (wholly (handle wcfg d)).bind (afterEach wcfg d ds) := by
  refine congrArg (Dialogue.bind (wholly (handle wcfg d))) (funext fun r => ?_)
  cases r <;> rfl

def left (cfg : Nat → Config) (s : Batches) (w : Nat) : LoopTalk Unit :=
  match s.workers w with
  | none => handleEach (cfg w) (s.later w)
  | some g => (wholly g.rest).bind (afterEach (cfg w) g.delivery (s.later w))

theorem left_eq {s s' : Batches} (workers : s'.workers w = s.workers w)
    (later : s'.later w = s.later w) : left cfg s' w = left cfg s w := by
  unfold left
  rw [workers, later]

/-- How a worker gets on with what it has left of its batch, question by question. It fetches when
nothing is left, and between two deliveries it reports an error if there was one. -/
inductive GetsOn (cfg : Nat → Config) (w : Nat) (s : Batches) : Move → Batches → Prop
  | waits {m : Move} {s' : Batches} (same : left cfg s' w = left cfg s w) : GetsOn cfg w s m s'
  | fetches {batch : List Delivery} {s' : Batches} (handled : left cfg s w = .done ())
      (all : left cfg s' w = handleEach (cfg w) batch) : GetsOn cfg w s (.fetch w batch) s'
  | asks {c : Call} {r : c.Reply} {k : c.Reply → LoopTalk Unit} {s' : Batches}
      (asking : left cfg s w = .ask (.work c) k) (on : left cfg s' w = k r) :
      GetsOn cfg w s (.work (.answer w c r)) s'
  | finishes {d : Delivery} {result : Except WorkerError Outcome} {s' : Batches}
      (ended : left cfg s w = afterEach (cfg w) d (s.later w) result)
      (others : left cfg s' w = handleEach (cfg w) (s.later w)) :
      GetsOn cfg w s (.work (.finish w result)) s'
  | crashes {s' : Batches} (nothing : left cfg s' w = .done ()) :
      GetsOn cfg w s (.work (.crash w)) s'

theorem Step.getsOn (step : Step cfg timeout s m s') (w : Nat) : GetsOn cfg w s m s' := by
  cases step with
  | @fetch v batch free handled given =>
      by_cases hv : w = v
      · subst hv
        refine .fetches ?_ ?_
        · simp only [left, free, handled]
          rfl
        · simp only [left, free, Function.update_self]
      · refine .waits (left_eq rfl ?_)
        simp only [Function.update_of_ne hv]
  | @work m crew step orderly =>
      cases step with
      | @take v d free mem =>
          refine .waits ?_
          by_cases hv : w = v
          · subst hv
            have next := orderly.next rfl
            unfold left
            simp only [restAfter, Function.update_self, free]
            rw [next, handleEach_cons, List.tail_cons]
          · refine left_eq ?_ ?_ <;> simp only [restAfter, Function.update_of_ne hv]
      | @answer v d c k since r markers acknowledged asking effect =>
          by_cases hv : w = v
          · subst hv
            refine .asks (k := fun r => (wholly (k r)).bind (afterEach (cfg w) d (s.later w))) ?_ ?_
            · simp only [left, asking]
              rfl
            · simp only [left, restAfter, Function.update_self]
          · exact .waits (left_eq (by simp only [Function.update_of_ne hv]) rfl)
      | @finish v d result since done =>
          by_cases hv : w = v
          · subst hv
            refine .finishes (d := d) ?_ ?_
            · simp only [left, done]
              rfl
            · simp only [left, restAfter, Function.update_self]
          · exact .waits (left_eq (by simp only [Function.update_of_ne hv]) rfl)
      | @crash v =>
          by_cases hv : w = v
          · subst hv
            refine .crashes ?_
            simp only [left, restAfter, Function.update_self]
            rfl
          · refine .waits (left_eq ?_ ?_) <;> simp only [restAfter, Function.update_of_ne hv]
      | append | lapse | advance => exact .waits (left_eq rfl rfl)

/-- In every transition of a run every worker gets on with what it has left of its batch. -/
def EachInTurn (cfg : Nat → Config) (trace : Trace) : Prop :=
  ∀ t ∈ trace, ∀ w, GetsOn cfg w t.before t.move t.after

theorem eachInTurn_of_run {s₀ : Batches} {trace : Trace} (run : Run (Step cfg timeout) s₀ trace s) :
    EachInTurn cfg trace := by
  intro t ht w
  obtain ⟨_, _, _, _, step⟩ := run.of_mem ht
  exact step.getsOn w

end Batches

end Courier.Dispatch
