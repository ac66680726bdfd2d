import Courier.Dispatch.Handling
import Courier.Proofs.Stream.Codec
import Courier.Proofs.Transcript

/-! # Taking over what waits

A server looks for overdue messages from some place of its list of waiting messages on. It gives up
after ten times as many entries as it may hand out, and says where. The stream asks once, from the
front of the list, and does not look at what the server says: it takes over what is overdue near the
front. Whatever waits further behind is overlooked, however long it has waited, and a worker that is
given nothing goes on to new messages.
-/

namespace Courier.Stream

open Courier.Redis (Call Reply)
open Courier.Redis.Broker (Fetched Names decimal)

/-! ## The search of a server -/

/-- The id of an entry: the millisecond in which it was added, and a number. -/
structure EntryId where
  millis : Nat
  number : Nat
  deriving DecidableEq, Repr

namespace EntryId

/-- The least id. As the place where a search stopped it says that nothing was left. -/
def first : EntryId := ⟨0, 0⟩

def text (i : EntryId) : String := decimal i.millis ++ "-" ++ decimal i.number

instance : LE EntryId :=
  ⟨fun i j => i.millis < j.millis ∨ (i.millis = j.millis ∧ i.number ≤ j.number)⟩

instance (i j : EntryId) : Decidable (i ≤ j) :=
  inferInstanceAs (Decidable (_ ∨ _))

theorem first_le (i : EntryId) : first ≤ i := by
  rcases Nat.eq_zero_or_pos i.millis with zero | pos
  · exact Or.inr ⟨zero.symm, Nat.zero_le _⟩
  · exact Or.inl pos

theorem text_first : first.text = "0-0" := by
  have zero : decimal 0 = "0" := by
    rw [decimal, Text.digits]
    rfl
  rw [text, first, zero]
  rfl

end EntryId

/-- A message that waits for its acknowledgement, and for how many whole milliseconds. -/
structure Pending where
  id : EntryId
  fields : List (String × String)
  idle : Nat
  deriving DecidableEq, Repr

namespace Pending

def Overdue (minIdle : Span) (w : Pending) : Prop := minIdle.millis ≤ w.idle

instance (minIdle : Span) (w : Pending) : Decidable (w.Overdue minIdle) :=
  inferInstanceAs (Decidable (_ ≤ _))

def reply (w : Pending) : Reply := told w.id.text w.fields

def entry (w : Pending) : Redis.Broker.Entry := entryOf w.id.text w.fields

end Pending

/-- What a search comes to: the messages that it takes over, the list as it is afterwards, and where
it stopped. -/
structure Search where
  claimed : List Pending
  left : List Pending
  stop : EntryId
  deriving DecidableEq, Repr

/-- A search for overdue messages, of at most so many and among at most so many entries. Whatever it
takes over has not waited any more. -/
def search (minIdle : Nat) : Nat → Nat → List Pending → Search
  | _, _, [] => ⟨[], [], .first⟩
  | 0, _, w :: ws => ⟨[], w :: ws, w.id⟩
  | _ + 1, 0, w :: ws => ⟨[], w :: ws, w.id⟩
  | claims + 1, steps + 1, w :: ws =>
    if minIdle ≤ w.idle then
      let rest := search minIdle claims steps ws
      ⟨w :: rest.claimed, { w with idle := 0 } :: rest.left, rest.stop⟩
    else
      let rest := search minIdle (claims + 1) steps ws
      ⟨rest.claimed, w :: rest.left, rest.stop⟩

def searchFrom (start : EntryId) (minIdle count : Nat) (ws : List Pending) : Search :=
  let found := search minIdle count (10 * count) (ws.dropWhile fun w => ¬ start ≤ w.id)
  { found with left := ws.takeWhile (fun w => ¬ start ≤ w.id) ++ found.left }

/-- A search takes over the first overdue messages among those that it looks at. -/
theorem search_claimed (minIdle claims steps : Nat) (ws : List Pending) :
    (search minIdle claims steps ws).claimed =
      ((ws.take steps).filter fun w => minIdle ≤ w.idle).take claims := by
  -- One case for each way in which a search ends or goes on.
  fun_induction search minIdle claims steps ws with
  | case1 claims steps => simp
  | case2 steps w ws => simp
  | case3 claims w ws => simp
  | case4 claims steps w ws overdue rest ih => simp [overdue, rest, ih]
  | case5 claims steps w ws fresh rest ih => simp [fresh, rest, ih]

/-- What a search does not look at stays as it is. -/
theorem search_left_drop (minIdle claims steps : Nat) (ws : List Pending) :
    (search minIdle claims steps ws).left.drop steps = ws.drop steps := by
  fun_induction search minIdle claims steps ws with
  | case1 claims steps => rfl
  | case2 steps w ws => rfl
  | case3 claims w ws => rfl
  | case4 claims steps w ws overdue rest ih => exact ih
  | case5 claims steps w ws fresh rest ih => exact ih

theorem searchFrom_first (minIdle count : Nat) (ws : List Pending) :
    searchFrom .first minIdle count ws = search minIdle count (10 * count) ws := by
  cases ws with
  | nil => simp [searchFrom]
  | cons w ws => simp [searchFrom, EntryId.first_le]

/-! ## The stream on such a server -/

variable {σ : Type} {n : Names} {waiting : σ → List Pending}
variable {answer : (c : Redis.line.Call) → StateM σ (Redis.line.Reply c)}

def searchWords (n : Names) (consumer : String) (minIdle : Nat) (start : EntryId) (count : Nat) :
    List String :=
  ["XAUTOCLAIM", n.stream, n.group, consumer, decimal minIdle, start.text, "COUNT", decimal count]

/-- A server does as that command says: its list of waiting messages is searched from the place that
is asked for on, and it tells where the search stopped, what was taken over, and perhaps more. -/
def Searching (n : Names) (answer : (c : Redis.line.Call) → StateM σ (Redis.line.Reply c))
    (waiting : σ → List Pending) : Prop :=
  ∀ s consumer minIdle start count, 0 < count → ∃ rest s',
    (answer (Call.command (searchWords n consumer minIdle start count)) :
        StateM σ (Option Reply)).run s =
      (some (.list (.text (searchFrom start minIdle count (waiting s)).stop.text ::
        .list ((searchFrom start minIdle count (waiting s)).claimed.map Pending.reply) :: rest)),
        s') ∧
    waiting s' = (searchFrom start minIdle count (waiting s)).left

/-- What the stream answers a worker that asks for what waits too long, and what becomes of the
server. -/
def reclaimed (n : Names) (answer : (c : Redis.line.Call) → StateM σ (Redis.line.Reply c))
    (cfg : Dispatch.Config) (s : σ) : Except Redis.Error Fetched × σ :=
  ((Redis.Broker.reclaim n cfg.consumer cfg.reclaimIdle cfg.readCount).run answer).run s

def answered : Except Redis.Error Fetched → Except BrokerError (List Delivery)
  | .ok (ds, _) => .ok ds
  | .error e => .error e.toBrokerError

/-- A worker that asked for what waits too long asks for new messages next. -/
def ReadsNext (cfg : Dispatch.Config) (reply : Except BrokerError (List Delivery)) : Prop :=
  ∃ k, (Dispatch.fetch cfg).Leads
    [⟨.reclaim cfg.consumer cfg.reclaimIdle cfg.readCount, reply⟩]
    (.ask (.read cfg.consumer cfg.readCount cfg.block) k)

theorem readsNext_iff {cfg : Dispatch.Config} {reply : Except BrokerError (List Delivery)} :
    ReadsNext cfg reply ↔ reply = .ok [] := by
  constructor
  · rintro ⟨k, leads⟩
    -- After any other answer the talk is over, and asks for nothing.
    match reply, leads with
    | .ok [], _ => rfl
    | .ok (d :: ds), .asked _ more => cases more
    | .error e, .asked _ more => cases more
  · rintro rfl
    exact ⟨_, .asked _ (.here _)⟩

/-- The waiting messages that a search from the front looks at. -/
def near (count : Nat) (ws : List Pending) : List Pending := ws.take (10 * count)

def takenOver (minIdle : Span) (count : Nat) (ws : List Pending) : List Pending :=
  ((near count ws).filter fun w => w.Overdue minIdle).take count

theorem takenOver_eq_nil_iff {minIdle : Span} {count : Nat} {ws : List Pending} (pos : 0 < count) :
    takenOver minIdle count ws = [] ↔ ∀ w ∈ near count ws, ¬ w.Overdue minIdle := by
  simp [takenOver, List.take_eq_nil_iff, List.filter_eq_nil_iff, Nat.ne_of_gt pos]

theorem run_command {words : List String} {items : List Reply} {s s' : σ}
    (replied : (answer (Call.command words)).run s = (some (.list items), s')) :
    ((Redis.command words).run answer).run s = (.ok (.list items), s') :=
  (Dialogue.run_ask_of replied).trans rfl

theorem run_commandAs {α : Type} {read : Reply → Option α} {words : List String}
    {items : List Reply} {a : α} {s s' : σ}
    (replied : (answer (Call.command words)).run s = (some (.list items), s'))
    (readable : read (.list items) = some a) :
    ((Redis.commandAs read words).run answer).run s = (.ok a, s') := by
  refine (Dialogue.run_bind_of (run_command replied)).trans ?_
  simp only [readable]
  rfl

theorem reclaimed_eq (searching : Searching n answer waiting) {cfg : Dispatch.Config}
    (pos : 0 < cfg.readCount) (s : σ) : ∃ s',
    reclaimed n answer cfg s = (.ok (Redis.Broker.fetched
      ((takenOver cfg.reclaimIdle cfg.readCount (waiting s)).map Pending.entry)), s') ∧
    waiting s' = (search cfg.reclaimIdle.millis cfg.readCount (10 * cfg.readCount)
      (waiting s)).left := by
  obtain ⟨rest, s', replied, left⟩ :=
    searching s cfg.consumer cfg.reclaimIdle.millis .first cfg.readCount pos
  rw [searchFrom_first] at replied left
  refine ⟨s', ?_, left⟩
  have claimed : (search cfg.reclaimIdle.millis cfg.readCount (10 * cfg.readCount)
      (waiting s)).claimed = takenOver cfg.reclaimIdle cfg.readCount (waiting s) :=
    search_claimed ..
  rw [claimed, searchWords, EntryId.text_first] at replied
  -- The place where the search stopped is read and dropped.
  have talk := run_commandAs replied (claimedEntries?_told (fun w : Pending => w.id.text)
    (fun w => w.fields) _ _ rest)
  exact Dialogue.run_bind_of talk

/-- What a worker gets that asks for what waits too long.

* `handed`: the first overdue messages near the front, in their order and as many as it asks for.
* `beyond`: the list behind these is left as it is, overdue or not.
* `found`: so the worker gets something exactly if some message near the front is overdue.
* `short`: if all waiting messages are near the front, that is if some message is overdue at all.
* `reads`: the worker goes on to new messages exactly if no message near the front is overdue. -/
structure TakesOver (n : Names) (answer : (c : Redis.line.Call) → StateM σ (Redis.line.Reply c))
    (waiting : σ → List Pending) (cfg : Dispatch.Config) (s : σ) : Prop where
  handed : (reclaimed n answer cfg s).1 = .ok (Redis.Broker.fetched
    ((takenOver cfg.reclaimIdle cfg.readCount (waiting s)).map Pending.entry))
  beyond : (waiting (reclaimed n answer cfg s).2).drop (10 * cfg.readCount) =
    (waiting s).drop (10 * cfg.readCount)
  found : ∀ ds reports, (reclaimed n answer cfg s).1 = .ok (ds, reports) →
    (ds ≠ [] ↔ ∃ w ∈ near cfg.readCount (waiting s), w.Overdue cfg.reclaimIdle)
  short : (waiting s).length ≤ 10 * cfg.readCount → ∀ ds reports,
    (reclaimed n answer cfg s).1 = .ok (ds, reports) →
    (ds ≠ [] ↔ ∃ w ∈ waiting s, w.Overdue cfg.reclaimIdle)
  reads : ReadsNext cfg (answered (reclaimed n answer cfg s).1) ↔
    ∀ w ∈ near cfg.readCount (waiting s), ¬ w.Overdue cfg.reclaimIdle

/-- A worker gets what is overdue near the front of the list, on every server that searches. -/
theorem takes_over_near (searching : Searching n answer waiting) {cfg : Dispatch.Config}
    (pos : 0 < cfg.readCount) (s : σ) : TakesOver n answer waiting cfg s := by
  obtain ⟨s', handed, left⟩ := reclaimed_eq searching pos s
  have found (ds : List Delivery) (reports : List Report)
      (told : (reclaimed n answer cfg s).1 = .ok (ds, reports)) :
      ds ≠ [] ↔ ∃ w ∈ near cfg.readCount (waiting s), w.Overdue cfg.reclaimIdle := by
    rw [handed] at told
    obtain ⟨rfl, _⟩ := Prod.mk.inj (Except.ok.inj told)
    simp only [ne_eq, List.map_eq_nil_iff, takenOver_eq_nil_iff pos, not_forall, not_not,
      exists_prop]
  constructor
  case handed => rw [handed]
  case beyond =>
    rw [handed, left]
    exact search_left_drop ..
  case found => exact found
  case short =>
    intro all ds reports told
    rw [found ds reports told, near, List.take_of_length_le all]
  case reads =>
    rw [readsNext_iff, handed, ← takenOver_eq_nil_iff pos]
    simp [answered, Redis.Broker.fetched]

/-! ### A server that searches -/

namespace EntryId

def ofText? (s : String) : Option EntryId :=
  match Text.number? (s.toList.takeWhile (· != '-')),
    Text.number? ((s.toList.dropWhile (· != '-')).drop 1) with
  | some millis, some number => some ⟨millis, number⟩
  | _, _ => none

theorem ne_dash_of_mem_digits {k : Nat} {c : Char} (hc : c ∈ Text.digits k) : (c != '-') = true := by
  have digit := (Text.natural?_eq_some_iff.1 (Text.natural?_digits k)).1 c hc
  rw [bne_iff_ne]
  rintro rfl
  exact absurd digit.1 (by decide)

theorem ofText?_text (i : EntryId) : ofText? i.text = some i := by
  have spelled : i.text.toList = Text.digits i.millis ++ '-' :: Text.digits i.number := by
    simp [text, decimal]
  have before : i.text.toList.takeWhile (· != '-') = Text.digits i.millis := by
    rw [spelled, List.takeWhile_append_of_pos fun c hc => ne_dash_of_mem_digits hc]
    simp
  have behind : (i.text.toList.dropWhile (· != '-')).drop 1 = Text.digits i.number := by
    rw [spelled, List.dropWhile_append_of_pos fun c hc => ne_dash_of_mem_digits hc]
    simp
  rw [ofText?, before, behind, Text.number?_digits, Text.number?_digits]

end EntryId

def searcher (n : Names) : (c : Redis.line.Call) → StateM (List Pending) (Redis.line.Reply c)
  | .connect => fun ws => (true, ws)
  | .command words => fun ws =>
    match words with
    | ["XAUTOCLAIM", stream, group, _, minIdle, start, "COUNT", count] =>
      if stream = n.stream ∧ group = n.group then
        match Text.number? minIdle.toList, EntryId.ofText? start, Text.number? count.toList with
        | some minIdle, some start, some count =>
          let found := searchFrom start minIdle count ws
          (some (.list [.text found.stop.text, .list (found.claimed.map Pending.reply), .list []]),
            found.left)
        | _, _, _ => (some (.failure "ERR value is not an integer or out of range"), ws)
      else (some (.failure "NOGROUP No such key or consumer group"), ws)
    | _ => (some (.failure "ERR unknown command"), ws)

theorem searching_searcher (n : Names) : Searching n (searcher n) id := by
  intro s consumer minIdle start count _
  have number (k : Nat) : Text.number? (decimal k).toList = some k := by
    rw [decimal, String.toList_ofList, Text.number?_digits]
  refine ⟨[.list []], _, ?_, rfl⟩
  simp only [searcher, searchWords, number, EntryId.ofText?_text, and_self, if_true]
  rfl

def plainWorker : Dispatch.Config :=
  ⟨"worker-0", 1, .ofMillis 2000, .ofMillis 60000, .ofSeconds 30, .ofSeconds 86400⟩

def plainNames : Names := ⟨"webhook_events", "webhook_workers"⟩

def waitingFor (number idle : Nat) : Pending :=
  ⟨⟨number, 0⟩, [("type", "location_check"), ("body", ""), ("outbox_id", "1")], idle⟩

/-- The first and the third of four messages are overdue. Only the first is asked for. -/
theorem takes_over_near_plain :
    TakesOver plainNames (searcher plainNames) id plainWorker
      [waitingFor 1 60000, waitingFor 2 0, waitingFor 3 60001, waitingFor 4 59999] ∧
    takenOver plainWorker.reclaimIdle plainWorker.readCount
      [waitingFor 1 60000, waitingFor 2 0, waitingFor 3 60001, waitingFor 4 59999] =
        [waitingFor 1 60000] :=
  ⟨takes_over_near (searching_searcher plainNames) (by decide) _, by decide⟩

/-- Ten messages that were given out just now, and one behind them that waits for an hour. -/
def crowded : List Pending :=
  ((List.range 10).map fun k => waitingFor (k + 1) 0) ++ [waitingFor 11 3600000]

/-- The server searches as it should and a message is overdue, but the worker is given none and goes
on to new messages. -/
theorem overdue_overlooked :
    Searching plainNames (searcher plainNames) id ∧
    (∃ w ∈ crowded, w.Overdue plainWorker.reclaimIdle) ∧
    (reclaimed plainNames (searcher plainNames) plainWorker crowded).1 = .ok ([], []) ∧
    ReadsNext plainWorker
      (answered (reclaimed plainNames (searcher plainNames) plainWorker crowded).1) := by
  have searching := searching_searcher plainNames
  obtain ⟨s', handed, _⟩ := reclaimed_eq searching (show 0 < plainWorker.readCount by decide) crowded
  have none : takenOver plainWorker.reclaimIdle plainWorker.readCount crowded = [] := by decide
  refine ⟨searching, ⟨waitingFor 11 3600000, by decide, by decide⟩, ?_, readsNext_iff.2 ?_⟩
  · rw [handed, id, none]
    rfl
  · rw [handed, id, none]
    rfl

end Courier.Stream
