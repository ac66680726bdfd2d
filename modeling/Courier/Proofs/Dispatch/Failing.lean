import Courier.Proofs.Dispatch.Batches
import Mathlib.Algebra.Group.Nat.Defs

/-! # Batches whose POSTs fail

A worker goes on to the next delivery of its batch whenever a POST fails. It may wait for each POST
as long as the timeout, so that it comes to the last delivery of a batch as late as that adds up to.
All other workers are free meanwhile.
-/

namespace Courier.Dispatch.Batches

open Courier.Stream

def withWorker (s : Batches) (w : Nat) (g : Option Handling) : Batches :=
  { s with workers := Function.update s.workers w g }

def IdleBut (s : Batches) (w : Nat) : Prop := ∀ v, v ≠ w → s.workers v = none ∧ s.later v = []

variable (cfg : Nat → Config) (timeout : Span) {s : Batches} {w : Nat} {d : Delivery}
  {ds : List Delivery} {m : Message} {event : Check.Completed} {since : Option Int}

theorem IdleBut.goesOn (idle : s.IdleBut w) (ds : List Delivery) (clock : Int)
    (markers : Marker.Store) :
    IdleBut { s with clock, markers, later := Function.update s.later w ds } w :=
  fun v hv => ⟨(idle v hv).1, (Function.update_of_ne hv _ _).trans (idle v hv).2⟩

theorem withWorker_none (free : s.workers w = none) : s.withWorker w none = s := by
  unfold withWorker
  rw [← free, Function.update_eq_self]

/-! ## One step of a worker -/

theorem step_take (free : s.workers w = none) (next : s.later w = d :: ds) (mem : d ∈ s.entries) :
    Step cfg timeout s (.work (.take w d))
      ({ s with later := Function.update s.later w ds }.withWorker w
        (some ⟨d, handle (cfg w) d, none⟩)) := by
  have first : (s.later w).head? = some d := by rw [next, List.head?_cons]
  have step : Step cfg timeout s (.work (.take w d)) _ := .work (.take free mem) first
  simpa only [withWorker, restAfter, next, List.tail_cons] using step

theorem step_answer {c : Call} {k : c.Reply → Talk (Except WorkerError Outcome)} {r : c.Reply}
    {markers : Marker.Store} {ids : List String}
    (effect : Crew.Effect (s.withWorker w (some ⟨d, .ask c k, since⟩)).toCrew c r markers ids) :
    Step cfg timeout (s.withWorker w (some ⟨d, .ask c k, since⟩)) (.work (.answer w c r))
      ({ s with markers, acknowledged := ids }.withWorker w
        (some ⟨d, k r, Crew.sinceAfter s.clock since c r⟩)) := by
  have step : Step cfg timeout _ (.work (.answer w c r)) _ :=
    .work (.answer (Function.update_self ..) effect) trivial
  simpa only [withWorker, restAfter, Function.update_idem] using step

theorem step_finish {r : Except WorkerError Outcome} :
    Step cfg timeout (s.withWorker w (some ⟨d, .done r, since⟩)) (.work (.finish w r))
      (s.withWorker w none) := by
  have step : Step cfg timeout (s.withWorker w (some ⟨d, .done r, since⟩))
      (.work (.finish w r)) _ := .work (.finish (Function.update_self ..)) trivial
  simpa only [withWorker, restAfter, Function.update_idem] using step

theorem step_wait {talk : Talk (Except WorkerError Outcome)} {request : Webhook.Request}
    {start clock : Int} (idle : s.IdleBut w) (next : upcoming talk = some (.send request))
    (after : s.clock ≤ clock) (within : clock ≤ start + timeout.nanos) :
    Step cfg timeout (s.withWorker w (some ⟨d, talk, some start⟩)) (.work (.advance clock))
      ({ s with clock }.withWorker w (some ⟨d, talk, some start⟩)) := by
  refine Step.work .advance ⟨after, fun v => ?_⟩
  by_cases hv : v = w
  · subst hv
    simp only [Waits, withWorker, Function.update_self]
    exact ⟨⟨request, next⟩, by simpa using within⟩
  · simp only [Waits, withWorker, Function.update_of_ne hv, (idle v hv).1]
    exact (idle v hv).2

/-- What a worker is answered that asks for the marker of a message. -/
def answerAbout (s : Batches) (w : Nat) (m : Message) : Option Marker :=
  (s.markers.tryBegin (Marker.key m.outboxId) (Crew.lifetime (cfg w).inFlightTtl) s.now).2

def markersAfter (s : Batches) (w : Nat) (m : Message) : Marker.Store :=
  (s.markers.tryBegin (Marker.key m.outboxId) (Crew.lifetime (cfg w).inFlightTtl) s.now).1

theorem step_ask (carries : Carries d m event) {marker : Option Marker}
    (told : answerAbout cfg s w m = marker) :
    ∃ k : Except Marker.StoreError (Option Marker) → Talk (Except WorkerError Outcome),
      k (.ok none) = post (cfg w) d m event.idempotencyKey ∧
      Step cfg timeout (s.withWorker w (some ⟨d, handle (cfg w) d, none⟩))
        (.work (.answer w (.tryBegin (Marker.key m.outboxId) (cfg w).inFlightTtl) (.ok marker)))
        ({ s with markers := markersAfter cfg s w m }.withWorker w
          (some ⟨d, k (.ok marker), Crew.sinceAfter s.clock none
            (.tryBegin (Marker.key m.outboxId) (cfg w).inFlightTtl) (.ok marker)⟩)) := by
  obtain ⟨k, hhandle, hk⟩ := Crew.handle_of_carries (cfg w) carries
  refine ⟨k, hk, ?_⟩
  rw [hhandle]
  have effect (g : Option Handling) : Crew.Effect (s.withWorker w g).toCrew
      (.tryBegin (Marker.key m.outboxId) (cfg w).inFlightTtl)
      (Except.ok (answerAbout cfg s w m) : Except Marker.StoreError _) (markersAfter cfg s w m)
      s.acknowledged := .begin _ _
  rw [told] at effect
  exact step_answer cfg timeout (effect _)

theorem step_pass {c : Int} (nothing : ∀ v, s.workers v = none ∧ s.later v = [])
    (after : s.clock ≤ c) : Step cfg timeout s (.work (.advance c)) { s with clock := c } := by
  refine .work .advance ⟨after, fun v => ?_⟩
  simp only [Waits, (nothing v).1]
  exact (nothing v).2

/-! ## A POST that fails -/

theorem step_report {r : Report} {k : Unit → Talk (Except WorkerError Outcome)} :
    Step cfg timeout (s.withWorker w (some ⟨d, .ask (.report r) k, since⟩))
      (.work (.answer w (.report r) ())) (s.withWorker w (some ⟨d, k (), since⟩)) :=
  step_answer cfg timeout (.report r ())

theorem step_refused {request : Webhook.Request} {e : Webhook.SendError}
    {k : Except Webhook.SendError Nat → Talk (Except WorkerError Outcome)} :
    Step cfg timeout (s.withWorker w (some ⟨d, .ask (.send request) k, since⟩))
      (.work (.answer w (.send request) (.error e)))
      (s.withWorker w (some ⟨d, k (.error e), since⟩)) :=
  step_answer cfg timeout (.sendFailed request e)

/-- A POST that fails is reported, and the handling is over. -/
theorem post_eq (wcfg : Config) (d : Delivery) (m : Message) (key : String) :
    ∃ first request k, post wcfg d m key = .ask (.report first) (fun _ => .ask (.send request) k) ∧
      ∀ e, ∃ r r' r'', k (.error e) = .ask (.report r) fun _ => .ask (.report r') fun _ =>
        .ask (.report r'') fun _ => .done (.ok .failed) :=
  ⟨_, _, _, rfl, fun _ => ⟨_, _, _, rfl⟩⟩

/-- A POST may fail after any time up to the timeout. -/
theorem run_post {k : String} {wait : Nat} (free : s.workers w = none) (idle : s.IdleBut w)
    (within : wait ≤ timeout.nanos) :
    ∃ trace, Run (Step cfg timeout)
        (s.withWorker w (some ⟨d, post (cfg w) d m k, some s.clock⟩)) trace
        { s with clock := s.clock + wait } ∧ ∃ failed ∈ trace, Fails failed w d := by
  obtain ⟨first, request, ends, posts, refused⟩ := post_eq (cfg w) d m k
  obtain ⟨r, r', r'', said⟩ := refused (.status 500)
  let later : Batches := { s with clock := s.clock + wait }
  have waits : Step cfg timeout
      (s.withWorker w (some ⟨d, .ask (.send request) ends, some s.clock⟩)) _
      (later.withWorker w (some ⟨d, .ask (.send request) ends, some s.clock⟩)) :=
    step_wait cfg timeout idle rfl (by omega) (by omega)
  have refusal : Step cfg timeout
      (later.withWorker w (some ⟨d, .ask (.send request) ends, some s.clock⟩))
      (.work (.answer w (.send request) (.error (.status 500)))) _ := step_refused cfg timeout
  have finish : Step cfg timeout
      (later.withWorker w (some ⟨d, .done (.ok .failed), some s.clock⟩)) _ _ :=
    step_finish cfg timeout
  have ended : later.withWorker w none = later := withWorker_none free
  rw [said] at refusal
  rw [ended] at finish
  rw [posts]
  refine ⟨_, .head (step_report ..) (.head waits (.head refusal (.head (step_report ..)
    (.head (step_report ..) (.head (step_report ..) (.head finish .refl)))))), ?_⟩
  refine ⟨_, List.mem_cons_of_mem _ (List.mem_cons_of_mem _ List.mem_cons_self), ?_⟩
  exact ⟨_, request, .status 500, Function.update_self .., rfl, rfl⟩

/-- After the POST the worker goes on with its batch. The marker of the message stays. -/
theorem run_failure (free : s.workers w = none) (next : s.later w = d :: ds) (mem : d ∈ s.entries)
    (carries : Carries d m event) (idle : s.IdleBut w)
    (granted : answerAbout cfg s w m = none)
    {wait : Nat} (within : wait ≤ timeout.nanos) :
    ∃ t asked posting, Run (Step cfg timeout) s (t :: asked :: posting)
        { s with
          clock := s.clock + wait
          markers := markersAfter cfg s w m
          later := Function.update s.later w ds } ∧
      asked.before.clock = s.clock ∧ Asked asked w d (Marker.key m.outboxId) (.ok none) ∧
      ∃ failed ∈ posting, Fails failed w d := by
  let taken : Batches := { s with later := Function.update s.later w ds }
  let begun : Batches := { taken with markers := markersAfter cfg s w m }
  have take := step_take cfg timeout free next mem
  obtain ⟨k, hk, ask⟩ := step_ask cfg timeout (s := taken) (w := w) carries granted
  obtain ⟨posting, run, failed⟩ := run_post cfg timeout (s := begun) (d := d) (m := m)
    (k := event.idempotencyKey) free (idle.goesOn ds _ _) within
  rw [hk] at ask
  refine ⟨_, _, posting, .head take (.head ask run), rfl, ?_, failed⟩
  exact ⟨_, _, Function.update_self .., rfl, rfl⟩

/-! ## One POST after another -/

def sample (n : Nat) : Message := { Crew.sampleMessage with outboxId := n }

def numbered (n : Nat) : Delivery := .ofMessage (Marker.key n) (sample n)

theorem carries_numbered {n : Nat} (h : n < 2 ^ 63) :
    ∃ event, Carries (numbered n) (sample n) event := by
  obtain ⟨event, carries⟩ := Crew.exists_carries_sample
  have word : Text.InWord (sample n).outboxId := by
    simp only [Text.InWord, sample]
    omega
  exact ⟨event, carries_ofMessage _ word carries.known carries.spells⟩

theorem key_ne {n n' : Nat} (h : n ≠ n') : Marker.key n ≠ Marker.key n' := by
  intro same
  have := Marker.key_injective same
  omega

/-- A worker is free to handle messages of different events, of which none has a marker. -/
structure Ready (s : Batches) (w : Nat) (ns : List Nat) : Prop where
  free : s.workers w = none
  idle : s.IdleBut w
  mem : ∀ n ∈ ns, numbered n ∈ s.entries
  words : ∀ n ∈ ns, n < 2 ^ 63
  distinct : ns.Nodup
  unmarked : ∀ n ∈ ns, s.markers.entries.lookup (Marker.key n) = none

theorem Ready.tail {n : Nat} {ns : List Nat} (ready : s.Ready w (n :: ns)) (clock : Int) :
    Ready { s with
      clock
      markers := markersAfter cfg s w (sample n)
      later := Function.update s.later w ds } w ns where
  free := ready.free
  idle := ready.idle.goesOn ds _ _
  mem k hk := ready.mem k (List.mem_cons_of_mem _ hk)
  words k hk := ready.words k (List.mem_cons_of_mem _ hk)
  distinct := (List.nodup_cons.1 ready.distinct).2
  unmarked k hk := by
    have other : k ≠ n := by
      rintro rfl
      exact (List.nodup_cons.1 ready.distinct).1 hk
    exact (Marker.Store.lookup_tryBegin_of_ne (key_ne other)).trans
      (ready.unmarked k (List.mem_cons_of_mem _ hk))

/-- A worker whose POSTs all take as long as they may. Markers of other events stay as they are. -/
theorem run_failures {ns : List Nat} (ready : s.Ready w ns)
    (next : s.later w = ns.map numbered ++ ds) :
    ∃ trace markers, Run (Step cfg timeout) s trace
        { s with
          clock := s.clock + (ns.length * timeout.nanos : Nat)
          markers := markers
          later := Function.update s.later w ds } ∧
      ∀ n : Nat, n ∉ ns → markers.entries.lookup (Marker.key n) =
        s.markers.entries.lookup (Marker.key n) := by
  induction ns generalizing s with
  | nil =>
      refine ⟨[], s.markers, ?_, fun _ _ => rfl⟩
      have same : Function.update s.later w ds = s.later := by
        rw [Function.update_eq_self_iff, next]
        rfl
      simpa [same] using Run.refl
  | cons n ns ih =>
      obtain ⟨event, carries⟩ := carries_numbered (ready.words n List.mem_cons_self)
      have granted : answerAbout cfg s w (sample n) = none :=
        Marker.Store.tryBegin_of_unmarked (ready.unmarked n List.mem_cons_self)
      obtain ⟨_, _, _, first, _⟩ := run_failure cfg timeout ready.free next
        (ready.mem n List.mem_cons_self) carries ready.idle granted (Nat.le_refl _)
      obtain ⟨_, markers, others, same⟩ := ih (ready.tail cfg (s.clock + timeout.nanos))
        (Function.update_self ..)
      have clock : s.clock + timeout.nanos + (ns.length * timeout.nanos : Nat) =
          s.clock + ((n :: ns).length * timeout.nanos : Nat) := by
        rw [List.length_cons, Nat.succ_mul]
        omega
      have run := first.trans others
      simp only [Function.update_idem, clock] at run
      refine ⟨_, markers, run, fun k hk => ?_⟩
      rw [List.mem_cons, not_or] at hk
      obtain ⟨other, rest⟩ := hk
      exact (same k rest).trans (Marker.Store.lookup_tryBegin_of_ne (key_ne other))

/-! ## A message that comes again -/

theorem told_new {wcfg : Config} (few : ds.length ≤ wcfg.readCount) (once : (ds.map (·.id)).Nodup)
    (new : ∀ d ∈ ds, d ∈ s.entries ∧ s.handed d.id = none) :
    (fetch wcfg).Told (Hands s) (.ok ds) := by
  have nothing : Hands s (.reclaim wcfg.consumer wcfg.reclaimIdle wcfg.readCount)
      (Except.ok [] : Except BrokerError _) := .reclaim (Nat.zero_le _) List.nodup_nil nofun
  exact .ask _ nothing (.ask _ (.read few once new) (.done _))

theorem told_again {wcfg : Config} {last : Int} (reads : 0 < wcfg.readCount) (mem : d ∈ s.entries)
    (handed : s.handed d.id = some last) (idle : last + wcfg.reclaimIdle.nanos ≤ s.clock) :
    (fetch wcfg).Told (Hands s) (.ok [d]) := by
  have again : Hands s (.reclaim wcfg.consumer wcfg.reclaimIdle wcfg.readCount)
      (Except.ok [d] : Except BrokerError _) := by
    refine .reclaim reads (List.pairwise_singleton _ _) fun e he => ?_
    obtain rfl := List.mem_singleton.1 he
    exact ⟨mem, last, handed, idle⟩
  exact .ask _ again (.ask () (.report _ ()) (.done _))

/-- A worker is given the marker of a message and its POST fails; then the message is handed out to
it again, and it is told a marker when it asks after some time. -/
def ComesAgain (trace : Trace) (w : Nat) (d : Delivery) (key : String) (after : Int)
    (marker : Option Marker) : Prop :=
  ∃ (before posting waiting rest : Trace) (first failed fetched again : Transition Batches Move)
    (batch : List Delivery),
    trace = before ++ first :: posting ++ fetched :: waiting ++ again :: rest ∧
    Asked first w d key (.ok none) ∧ failed ∈ posting ∧ Fails failed w d ∧
    fetched.move = .fetch w batch ∧ d ∈ batch ∧ Asked again w d key (.ok marker) ∧
    again.before.clock = first.before.clock + after

theorem ComesAgain.later {trace : Trace} {key : String} {after : Int} {marker : Option Marker}
    (h : ComesAgain trace w d key after marker) (earlier : Trace) :
    ComesAgain (earlier ++ trace) w d key after marker := by
  obtain ⟨before, posting, waiting, rest, first, failed, fetched, again, batch, rfl, h⟩ := h
  exact ⟨earlier ++ before, posting, waiting, rest, first, failed, fetched, again, batch, by simp,
    h⟩

/-- A message that waited long enough is handed out again, and its marker is asked for. -/
theorem run_asked {last : Int} {marker : Option Marker}
    (reads : 0 < (cfg w).readCount) (free : s.workers w = none) (handled : s.later w = [])
    (mem : d ∈ s.entries) (carries : Carries d m event) (handed : s.handed d.id = some last)
    (lapsed : last + (cfg w).reclaimIdle.nanos ≤ s.clock)
    (told : answerAbout cfg s w m = marker) :
    ∃ fetched taken again s', Run (Step cfg timeout) s [fetched, taken, again] s' ∧
      fetched.move = .fetch w [d] ∧ Asked again w d (Marker.key m.outboxId) (.ok marker) ∧
      again.before.clock = s.clock := by
  let given : Batches := { s with
    later := Function.update s.later w [d]
    fetched := Function.update s.fetched w s.clock
    handed := s.handOut [d] }
  let taken : Batches := { given with later := Function.update given.later w [] }
  have fetch : Step cfg timeout s (.fetch w [d]) given :=
    .fetch free handled (told_again reads mem handed lapsed)
  have take : Step cfg timeout given _ (taken.withWorker w _) :=
    step_take cfg timeout free (Function.update_self ..) mem
  obtain ⟨_, _, ask⟩ := step_ask cfg timeout (s := taken) (w := w) carries told
  refine ⟨_, _, _, _, .head fetch (.head take (.head ask .refl)), rfl, ?_, rfl⟩
  exact ⟨_, _, Function.update_self .., rfl, rfl⟩

/-- The last message of a batch comes again after some time that the stream allows. -/
theorem run_again {last c : Int} (reads : 0 < (cfg w).readCount) (free : s.workers w = none)
    (idle : s.IdleBut w) (next : s.later w = [d]) (mem : d ∈ s.entries)
    (carries : Carries d m event)
    (unmarked : s.markers.entries.lookup (Marker.key m.outboxId) = none)
    (handed : s.handed d.id = some last) (lapsed : last + (cfg w).reclaimIdle.nanos ≤ c)
    (late : s.clock ≤ c) :
    ∃ trace s', Run (Step cfg timeout) s trace s' ∧
      ComesAgain trace w d (Marker.key m.outboxId) (c - s.clock)
        (if c < s.clock + (Crew.lifetime (cfg w).inFlightTtl).nanos then some .inFlight
          else none) := by
  have granted : answerAbout cfg s w m = none := Marker.Store.tryBegin_of_unmarked unmarked
  obtain ⟨take, first, posting, run, before, asked, failed, posted, fails⟩ :=
    run_failure cfg timeout free next mem carries idle granted (Nat.zero_le _)
  let ended : Batches := { s with
    clock := s.clock + (0 : Nat)
    markers := markersAfter cfg s w m
    later := Function.update s.later w [] }
  have nothing (v : Nat) : ended.workers v = none ∧ ended.later v = [] := by
    by_cases hv : v = w
    · subst hv
      exact ⟨free, Function.update_self ..⟩
    · exact idle.goesOn [] _ _ v hv
  have wait := step_pass cfg timeout nothing (c := c) (by simpa [ended] using late)
  have told : answerAbout cfg { ended with clock := c } w m =
      if c < s.clock + (Crew.lifetime (cfg w).inFlightTtl).nanos then some .inFlight
        else none := Marker.Store.tryBegin_again granted
  obtain ⟨fetched, taken, again, s', rest, hfetched, hagain, after⟩ :=
    run_asked cfg timeout (s := { ended with clock := c }) reads free (nothing w).2 mem carries
      handed lapsed told
  refine ⟨_, s', run.trans (.head wait rest), [take],
    posting ++ [⟨ended, .work (.advance c), { ended with clock := c }⟩], [taken], [], first, failed,
    fetched, again, [d], ?_, asked, List.mem_append_left _ posted, fails, hfetched,
    List.mem_cons_self, hagain, ?_⟩
  · simp [ended]
  · rw [after, before]
    dsimp only
    omega

def batchOf (count : Nat) : List Delivery := (List.range count).map numbered

/-- Workers with nothing in hand, and so many messages on the stream. -/
def stocked (count : Nat) : Batches where
  clock := 0
  markers := .empty
  entries := batchOf count
  acknowledged := []
  workers _ := none
  later _ := []
  fetched _ := 0
  handed _ := none

def supplied (count : Nat) : Batches :=
  { stocked count with
    later := Function.update (fun _ => []) 0 (batchOf count)
    fetched := Function.update (fun _ => 0) 0 0
    handed := (stocked count).handOut (batchOf count) }

theorem fresh_stocked (count : Nat) : (stocked count).Fresh :=
  ⟨fun _ => rfl, fun _ => rfl, fun _ => rfl, rfl⟩

theorem numbered_mem_batchOf {n count : Nat} (hn : n < count) : numbered n ∈ batchOf count :=
  List.mem_map_of_mem (List.mem_range.2 hn)

theorem step_supply {count : Nat} (reads : (cfg 0).readCount = count) :
    Step cfg timeout (stocked count) (.fetch 0 (batchOf count)) (supplied count) := by
  have few : (batchOf count).length ≤ (cfg 0).readCount := by simp [batchOf, reads]
  have once : ((batchOf count).map (·.id)).Nodup := by
    rw [batchOf, List.map_map]
    exact List.Pairwise.map _ (fun a b other => key_ne other) List.nodup_range
  exact .fetch rfl rfl (told_new few once fun d hd => ⟨hd, rfl⟩)

/-- The worker is free to handle all of them but the last one. -/
theorem ready_supplied {count : Nat} (words : count < 2 ^ 63) :
    (supplied (count + 1)).Ready 0 (List.range count) where
  free := rfl
  idle v hv := ⟨rfl, by simp [supplied, hv]⟩
  mem n hn := by
    have := List.mem_range.1 hn
    exact numbered_mem_batchOf (by omega)
  words n hn := by
    have := List.mem_range.1 hn
    omega
  distinct := List.nodup_range
  unmarked _ _ := rfl

/-- Where the POSTs for all messages before it in its batch took as long as they may, the last one
comes again after the rest of the time that the stream waits. -/
theorem exists_again {count : Nat} {c : Int} (reads : (cfg 0).readCount = count + 1)
    (words : count < 2 ^ 63) (lapsed : (cfg 0).reclaimIdle.nanos ≤ c)
    (late : (count * timeout.nanos : Nat) ≤ c) :
    ∃ trace s, Run (Step cfg timeout) (stocked (count + 1)) trace s ∧
      ComesAgain trace 0 (numbered count) (Marker.key count) (c - (count * timeout.nanos : Nat))
        (if c < (count * timeout.nanos : Nat) + (Crew.lifetime (cfg 0).inFlightTtl).nanos then
          some .inFlight else none) := by
  have ready := ready_supplied words
  have next : (supplied (count + 1)).later 0 =
      (List.range count).map numbered ++ [numbered count] := by
    simp [supplied, batchOf, List.range_succ]
  obtain ⟨failures, markers, run, unmarked⟩ := run_failures cfg timeout ready next
  -- the worker comes to the last message
  let reached : Batches := { supplied (count + 1) with
    clock := (supplied (count + 1)).clock + ((List.range count).length * timeout.nanos : Nat)
    markers
    later := Function.update (supplied (count + 1)).later 0 [numbered count] }
  have start : reached.clock = (count * timeout.nanos : Nat) := by
    simp [reached, supplied, stocked]
  have last : reached.later 0 = [numbered count] := by simp [reached]
  have mem : numbered count ∈ batchOf (count + 1) := numbered_mem_batchOf (by omega)
  have handed : reached.handed (numbered count).id = some 0 := handOut_of_mem mem
  obtain ⟨event, carries⟩ := carries_numbered words
  obtain ⟨trace, s, rest, again⟩ := run_again cfg timeout (s := reached) (w := 0)
    (d := numbered count) (by omega) rfl (ready.idle.goesOn _ _ _) last mem carries
    (unmarked count (by simp)) handed (c := c) (by omega) (by omega)
  rw [start] at again
  have whole := (run.trans rest).head (step_supply cfg timeout reads)
  exact ⟨_, s, whole, again.later (_ :: failures)⟩

end Courier.Dispatch.Batches
