import Courier.Proofs.Dispatch.Protocol
import Courier.Proofs.Marker
import Courier.Proofs.Text.Word
import Courier.Redis.Broker

/-! # Messages through the stream

A message is written as the words of one command, kept by the server as words, told again as the
fields of an entry, and read from the fields of a delivery. Nothing is lost on the way: the delivery
of an entry is the delivery that the message has without any server, and the message is read from
it. Reading looks at three fields only. One of them is the text of a number, which may be spelled in
more than one way, so that deliveries of one event have one marker however they spell it.
-/

namespace Courier.Stream

open Courier.Dispatch (field_eq_ok_iff outboxId_eq_ok_iff message_eq_ok_iff)
open Courier.Redis (Call Reply Talk)
open Courier.Redis.Broker (Fetched Names append publish)

/-! ## What a batch is written by -/

def Turn (left : List (List String)) (c : Call) (_ : c.Reply) (left' : List (List String)) : Prop :=
  ∃ words, c = .command words ∧ left = words :: left'

def Ending {α : Type} (left : List (List String)) (result : Except Redis.Error α) : Prop :=
  ∀ a, result = .ok a → left = []

/-- A talk gives the commands of a script one after another, and succeeds only with the last one. -/
def Says {α : Type} (d : Talk (Except Redis.Error α)) (script : List (List String)) : Prop :=
  d.Follows Turn Ending script

section Says

variable {α β : Type} {script script' : List (List String)}

/-- Two talks in a row give two scripts in a row, where the second one is left out after an error. -/
theorem Says.bind {d : Talk (Except Redis.Error α)}
    {f : Except Redis.Error α → Talk (Except Redis.Error β)} (first : Says d script)
    (second : ∀ a, Says (f (.ok a)) script') (stop : ∀ e, ∃ e', f (.error e) = .done (.error e')) :
    Says (d.bind f) (script ++ script') := by
  -- The script of the first talk shrinks with every command that it gives.
  induction d generalizing script with
  | done result =>
      cases result with
      | error e =>
          obtain ⟨e', same⟩ := stop e
          rw [Dialogue.done_bind, same]
          exact nofun
      | ok a =>
          obtain rfl : script = [] := first a rfl
          exact second a
  | ask c k ih =>
      intro r
      obtain ⟨left, ⟨words, rfl, rfl⟩, rest⟩ := first r
      exact ⟨left ++ script', ⟨words, rfl, rfl⟩, ih r rest⟩

theorem Says.ending {d : Talk (Except Redis.Error α)}
    {f : Except Redis.Error α → Talk (Except Redis.Error β)} (first : Says d script)
    (second : ∀ a, ∃ result, f (.ok a) = .done result)
    (stop : ∀ e, ∃ e', f (.error e) = .done (.error e')) : Says (d.bind f) script := by
  rw [← List.append_nil script]
  refine first.bind (fun a => ?_) stop
  obtain ⟨result, same⟩ := second a
  rw [same]
  exact fun _ _ => rfl

theorem says_command (words : List String) : Says (Redis.command words) [words] := by
  intro r
  refine ⟨[], ⟨words, rfl, rfl⟩, ?_⟩
  dsimp only [Dialogue.bind]
  split
  · exact nofun
  · exact nofun
  · exact fun _ _ => rfl

theorem says_commandAs (read : Reply → Option α) (words : List String) :
    Says (Redis.commandAs read words) [words] := by
  refine (says_command words).ending (fun r => ?_) fun e => ⟨e, rfl⟩
  cases h : read r with
  | none => exact ⟨.error .unexpected, by simp [h]⟩
  | some a => exact ⟨.ok a, by simp [h]⟩

theorem says_commands (script : List (List String)) : Says (Redis.commands script) script := by
  induction script with
  | nil => exact fun _ _ => rfl
  | cons words rest ih => exact (says_command words).bind (fun _ => ih) fun e => ⟨e, rfl⟩

theorem says_commit : Says Redis.Broker.commit [["EXEC"]] := by
  refine (says_commandAs _ _).ending (fun a => ⟨.ok a, rfl⟩) fun e => ?_
  cases e with
  | refused text => exact ⟨.unexpected, rfl⟩
  | disconnected => exact ⟨.disconnected, rfl⟩
  | unexpected => exact ⟨.unexpected, rfl⟩

end Says

def script (n : Names) (batch : List Message) : List (List String) :=
  if batch = [] then [] else (["MULTI"] :: batch.map (append n.stream)) ++ [["EXEC"]]

theorem says_publish (n : Names) (batch : List Message) :
    Says (publish n batch) (script n batch) := by
  cases batch with
  | nil => exact fun _ _ => rfl
  | cons m batch =>
      refine (says_commands _).bind (fun _ => ?_) fun e => ⟨e, rfl⟩
      exact says_commit.ending (fun _ => ⟨_, rfl⟩) fun e => ⟨e, rfl⟩

theorem commands_yields_ok (script : List (List String)) :
    (Redis.commands script).Yields (.ok ()) := by
  induction script with
  | nil => exact .done _
  | cons words script ih =>
      have taken : (Redis.command words).Yields (.ok (.status "QUEUED")) :=
        .ask (some (.status "QUEUED")) (.done _)
      exact taken.bind ih

theorem commit_yields_ok : Redis.Broker.commit.Yields (.ok ()) :=
  .ask (some .nothing) (.done _)

theorem publish_yields_ok (n : Names) (batch : List Message) :
    ∃ reports, (publish n batch).Yields (.ok reports) := by
  cases batch with
  | nil => exact ⟨_, .done _⟩
  | cons m batch => exact ⟨_, (commands_yields_ok _).bind (commit_yields_ok.bind (.done _))⟩

/-! ## What the server keeps -/

/-- How a server tells of an entry: by its id and the names and texts of its fields. -/
def told (id : String) (fields : List (String × String)) : Reply :=
  .list [.text id, .list ((fields.flatMap fun (name, text) => [name, text]).map .text)]

def entryOf (id : String) (fields : List (String × String)) : Redis.Broker.Entry :=
  ⟨id, fields.map fun (name, text) => (name, some text)⟩

theorem entry?_told (id : String) (fields : List (String × String)) :
    Redis.Broker.entry? (told id fields) = some (entryOf id fields) := by
  have texts : Redis.Broker.fields?
      ((fields.flatMap fun (name, text) => [name, text]).map .text) =
      some (fields.map fun (name, text) => (name, some text)) := by
    induction fields with
    | nil => rfl
    | cons x fields ih =>
        simp only [List.flatMap_cons, List.map_cons, List.cons_append, List.nil_append,
          Redis.Broker.fields?, Reply.text?, ih]
  simp only [told, Redis.Broker.entry?, Redis.Broker.body?, Reply.text?, texts, entryOf]

theorem mapM_entry?_told {α : Type} (id : α → String) (fields : α → List (String × String))
    (xs : List α) : (xs.map fun x => told (id x) (fields x)).mapM Redis.Broker.entry? =
      some (xs.map fun x => entryOf (id x) (fields x)) := by
  induction xs with
  | nil => rfl
  | cons x xs ih =>
      rw [List.map_cons, List.mapM_cons, entry?_told, ih]
      rfl

theorem filter_isPresent_told {α : Type} (id : α → String) (fields : α → List (String × String))
    (xs : List α) : (xs.map fun x => told (id x) (fields x)).filter Redis.Broker.isPresent =
      xs.map fun x => told (id x) (fields x) :=
  List.filter_eq_self.2 fun r hr => by
    obtain ⟨x, _, rfl⟩ := List.mem_map.1 hr
    rfl

/-- What a claim tells of is read whole, wherever its search stopped. -/
theorem claimedEntries?_told {α : Type} (id : α → String) (fields : α → List (String × String))
    (cursor : String) (xs : List α) (rest : List Reply) :
    Redis.Broker.claimedEntries?
      (.list (.text cursor :: .list (xs.map fun x => told (id x) (fields x)) :: rest)) =
      some (xs.map fun x => entryOf (id x) (fields x)) := by
  simp only [Redis.Broker.claimedEntries?, Reply.text?, Option.isSome_some, if_true,
    filter_isPresent_told, mapM_entry?_told]

/-- The entry of a message, when the server keeps the fields in the words of a command as they came
and gives them an id. -/
def kept (n : Names) (x : String × Message) : Reply :=
  .list [.text x.1, .list (((append n.stream x.2).drop 3).map .text)]

/-- The deliveries of messages without any server, and nothing to report about them. -/
def delivered (xs : List (String × Message)) : Fetched :=
  (xs.map fun (id, m) => .ofMessage id m, [])

theorem map_kept (n : Names) (xs : List (String × Message)) :
    xs.map (kept n) = xs.map fun x => told x.1 x.2.fields := rfl

theorem fetched_entryOf (xs : List (String × Message)) :
    Redis.Broker.fetched (xs.map fun x => entryOf x.1 x.2.fields) = delivered xs := by
  induction xs with
  | nil => rfl
  | cons x xs ih =>
      have deliveries := congrArg Prod.fst ih
      have warnings := congrArg Prod.snd ih
      exact Prod.ext (congrArg (Delivery.ofMessage x.1 x.2 :: ·) deliveries) warnings

variable (n : Names) (xs : List (String × Message))

/-- A read of kept messages brings the deliveries that they have without a server. -/
theorem readEntries?_kept :
    (Redis.Broker.readEntries? (.list [.list [.text n.stream, .list (xs.map (kept n))]])).map
      Redis.Broker.fetched = some (delivered xs) := by
  have one : Redis.Broker.streamEntries? (.list [.text n.stream, .list (xs.map (kept n))]) =
      some (xs.map fun x => entryOf x.1 x.2.fields) := by
    rw [map_kept]
    exact mapM_entry?_told Prod.fst (fun x => x.2.fields) xs
  rw [← fetched_entryOf]
  simp [Redis.Broker.readEntries?, one]

theorem claimedEntries?_kept (cursor : String) (rest : List Reply) :
    (Redis.Broker.claimedEntries? (.list (.text cursor :: .list (xs.map (kept n)) :: rest))).map
      Redis.Broker.fetched = some (delivered xs) := by
  have entries := claimedEntries?_told Prod.fst (fun x => x.2.fields) cursor xs rest
  rw [map_kept, ← fetched_entryOf]
  exact congrArg (Option.map Redis.Broker.fetched) entries

/-! ## What is read from a delivery -/

structure Bears (d : Delivery) (m : Message) : Prop where
  outboxId : ∃ text, d.fields.lookup Message.outboxIdField = some text ∧
    Text.Denotes text.toList m.outboxId
  word : Text.InWord m.outboxId
  eventType : d.fields.lookup Message.typeField = some m.eventType
  body : d.fields.lookup Message.bodyField = some m.body

/-- A delivery that can be read: a type, a body, and a number of an outbox event that is a word. -/
structure Legible (d : Delivery) : Prop where
  outboxId : ∃ text n, d.fields.lookup Message.outboxIdField = some text ∧
    Text.Denotes text.toList n ∧ Text.InWord n
  eventType : ∃ text, d.fields.lookup Message.typeField = some text
  body : ∃ text, d.fields.lookup Message.bodyField = some text

/-- What is wrong with a delivery that cannot be read: a field is missing, or the one for the number
denotes none that fits. -/
inductive Fault (d : Delivery) : DecodeError → Prop
  | missing {name : String}
      (needed : name ∈ [Message.outboxIdField, Message.typeField, Message.bodyField])
      (absent : d.fields.lookup name = none) : Fault d (.missingField name)
  | invalid {text : String} (found : d.fields.lookup Message.outboxIdField = some text)
      (noWord : ∀ n, Text.Denotes text.toList n → ¬ Text.InWord n) : Fault d (.invalidOutboxId text)

variable {d d' : Delivery} {m m' : Message} {e : DecodeError}

theorem message_eq_ok_iff_bears : d.message = .ok m ↔ Bears d m := by
  rw [message_eq_ok_iff, outboxId_eq_ok_iff, field_eq_ok_iff, field_eq_ok_iff]
  simp only [Text.word?_eq_some_iff]
  constructor
  · rintro ⟨⟨text, found, denotes, word⟩, eventType, body⟩
    exact ⟨⟨text, found, denotes⟩, word, eventType, body⟩
  · rintro ⟨⟨text, found, denotes⟩, word, eventType, body⟩
    exact ⟨⟨text, found, denotes, word⟩, eventType, body⟩

theorem message_ofMessage (id : String) (word : Text.InWord m.outboxId) :
    (Delivery.ofMessage id m).message = .ok m := by
  have denotes := Text.word?_eq_some_iff.1 (Text.word?_integer word)
  exact message_eq_ok_iff_bears.2 ⟨⟨_, rfl, denotes.1⟩, word, rfl, rfl⟩

/-- What fails in two steps fails in the first one, or in the second one after the first. -/
theorem bind_eq_error {ε α β : Type} {x : Except ε α} {f : α → Except ε β} {e : ε}
    (h : (x >>= f) = .error e) : x = .error e ∨ ∃ a, x = .ok a ∧ f a = .error e := by
  cases x with
  | error e' =>
      cases h
      exact Or.inl rfl
  | ok a => exact Or.inr ⟨a, rfl, h⟩

theorem Fault.of_field {name : String}
    (needed : name ∈ [Message.outboxIdField, Message.typeField, Message.bodyField])
    (h : d.field name = .error e) : Fault d e := by
  unfold Delivery.field at h
  split at h
  · cases h
  · rename_i absent
    cases h
    exact .missing needed absent

theorem Fault.of_outboxId (h : d.outboxId = .error e) : Fault d e := by
  rcases bind_eq_error h with absent | ⟨text, found, h⟩
  · exact .of_field (by simp) absent
  split at h
  · cases h
  · rename_i noWord
    cases h
    refine .invalid (field_eq_ok_iff.1 found) fun n denotes fits => ?_
    exact nomatch noWord.symm.trans (Text.word?_eq_some_iff.2 ⟨denotes, fits⟩)

/-- Whatever is told about a delivery that cannot be read is so. -/
theorem Fault.of_message (h : d.message = .error e) : Fault d e := by
  rcases bind_eq_error h with number | ⟨outboxId, _, h⟩
  · exact .of_outboxId number
  rcases bind_eq_error h with named | ⟨eventType, _, h⟩
  · exact .of_field (by simp) named
  rcases bind_eq_error h with told | ⟨body, _, h⟩
  · exact .of_field (by simp) told
  · cases h

theorem message_eq_ok_iff_legible : (∃ m, d.message = .ok m) ↔ Legible d := by
  simp only [message_eq_ok_iff_bears]
  constructor
  · rintro ⟨m, ⟨text, found, denotes⟩, word, eventType, body⟩
    exact ⟨⟨text, m.outboxId, found, denotes, word⟩, ⟨_, eventType⟩, ⟨_, body⟩⟩
  · rintro ⟨⟨text, n, found, denotes, word⟩, ⟨eventType, named⟩, ⟨body, told⟩⟩
    exact ⟨⟨eventType, body, n⟩, ⟨text, found, denotes⟩, word, named, told⟩

/-- Nothing but the three fields is looked at. -/
theorem message_congr (same : ∀ name ∈ [Message.outboxIdField, Message.typeField,
    Message.bodyField], d.fields.lookup name = d'.fields.lookup name) : d.message = d'.message := by
  simp only [List.forall_mem_cons, List.not_mem_nil, false_implies, implies_true, and_true] at same
  obtain ⟨outboxId, eventType, body⟩ := same
  simp only [Delivery.message, Delivery.outboxId, Delivery.field, outboxId, eventType, body]

/-- The number of a message that is read is the one that its text denotes. -/
theorem denotes_of_message (h : d.message = .ok m) {text : String}
    (found : d.fields.lookup Message.outboxIdField = some text) :
    Text.Denotes text.toList m.outboxId := by
  obtain ⟨text', found', denotes⟩ := (message_eq_ok_iff_bears.1 h).outboxId
  obtain rfl := Option.some.inj (found.symm.trans found')
  exact denotes

/-! ## The codec -/

/-- What the stream does with messages.

* `written`: a batch is written by a script of commands, one for each message, given in order; it
  counts as published only after the last one, and a server that takes them all lets it be.
* `read`, `claimed`: where the server keeps the fields of these commands as they came, a read and a
  claim bring the deliveries that the messages have without a server, and report nothing.
* `decoded`: the message is read from its delivery, for every number that is a word.
* `bears`: a message is read from exactly the deliveries that have its fields, whichever way its
  number is spelled.
* `legible`: so some message is read from exactly the deliveries that have a type, a body, and a
  text that denotes a word.
* `others`: no other field matters.
* `fault`: the error that is told otherwise is so.
* `keyed`: two deliveries that are read have one marker exactly if their texts denote one number. -/
structure Codec (n : Names) : Prop where
  written : ∀ batch, Says (publish n batch) (script n batch) ∧
    ∃ reports, (publish n batch).Yields (.ok reports)
  read : ∀ xs, (Redis.Broker.readEntries?
    (.list [.list [.text n.stream, .list (xs.map (kept n))]])).map Redis.Broker.fetched =
      some (delivered xs)
  claimed : ∀ cursor xs rest, (Redis.Broker.claimedEntries?
    (.list (.text cursor :: .list (xs.map (kept n)) :: rest))).map Redis.Broker.fetched =
      some (delivered xs)
  decoded : ∀ id m, Text.InWord m.outboxId → (Delivery.ofMessage id m).message = .ok m
  bears : ∀ (d : Delivery) m, d.message = .ok m ↔ Bears d m
  legible : ∀ d : Delivery, (∃ m, d.message = .ok m) ↔ Legible d
  others : ∀ d d' : Delivery, (∀ name ∈ [Message.outboxIdField, Message.typeField,
    Message.bodyField], d.fields.lookup name = d'.fields.lookup name) → d.message = d'.message
  fault : ∀ (d : Delivery) e, d.message = .error e → Fault d e
  keyed : ∀ (d d' : Delivery) m m' text text', d.message = .ok m → d'.message = .ok m' →
    d.fields.lookup Message.outboxIdField = some text →
    d'.fields.lookup Message.outboxIdField = some text' →
    (Marker.key m.outboxId = Marker.key m'.outboxId ↔
      ∃ k, Text.Denotes text.toList k ∧ Text.Denotes text'.toList k)

/-- Messages come through the stream as they are, under every name of the stream and the group. -/
theorem message_codec (n : Names) : Codec n where
  written batch := ⟨says_publish n batch, publish_yields_ok n batch⟩
  read := readEntries?_kept n
  claimed cursor xs rest := claimedEntries?_kept n xs cursor rest
  decoded id _ word := message_ofMessage id word
  bears _ _ := message_eq_ok_iff_bears
  legible _ := message_eq_ok_iff_legible
  others _ _ := message_congr
  fault _ _ := .of_message
  keyed := by
    intro d d' m m' text text' read read' found found'
    have denotes := denotes_of_message read found
    have denotes' := denotes_of_message read' found'
    constructor
    · intro same
      exact ⟨m.outboxId, denotes, Marker.key_injective same ▸ denotes'⟩
    · rintro ⟨k, here, there⟩
      rw [denotes.unique here, denotes'.unique there]

/-- A delivery that spells its number in an unusual way and has a field more. -/
def spelled (text : String) : Delivery :=
  .ofFields "1-0" [("outbox_id", text), ("trace", "x"), ("body", ""), ("type", "")]

/-- The least and the greatest number come through, and one number spelled in two ways has one
marker. -/
theorem message_codec_extremes :
    (Delivery.ofMessage "1-0" ⟨"", "a b", -9223372036854775808⟩).message =
        .ok ⟨"", "a b", -9223372036854775808⟩ ∧
      (Delivery.ofMessage "" ⟨"", "", 9223372036854775807⟩).message =
        .ok ⟨"", "", 9223372036854775807⟩ ∧
      (∃ k, Text.Denotes "+007".toList k ∧ Text.Denotes "7".toList k) := by
  have codec := message_codec ⟨"webhook_events", "webhook_workers"⟩
  refine ⟨codec.decoded _ _ (by decide), codec.decoded _ _ (by decide), ?_⟩
  exact (codec.keyed (spelled "+007") (spelled "7") ⟨"", "", 7⟩ ⟨"", "", 7⟩ _ _ rfl rfl rfl rfl).1 rfl

end Courier.Stream
