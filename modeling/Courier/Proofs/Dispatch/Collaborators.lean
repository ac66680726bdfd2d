import Courier.Proofs.Dispatch.Crew
import Courier.Proofs.Webhook.Redirects
import Courier.Redis.Markers

/-! # The collaborators of a crew

A crew takes it that a success comes with the status of one, that the store of markers answers all at
once, that it keeps a marker for whole seconds, and that an error may hide an effect. That is what the
sender gives, and the client of a server that carries out every command it takes all at once, may
refuse any, and may be lost before a reply arrives.
-/

namespace Courier.Redis.Markers

open Dialogue

/-- What a server does with a command that it takes: its reply, and the markers it is left with. A
command that never arrives has the effect of one that is refused. -/
inductive Does (now : Instant) (s : Marker.Store) : List String → Reply → Marker.Store → Prop
  | refuses (words : List String) (text : String) : Does now s words (.failure text) s
  | keepsScript (text name : String) : Does now s ["SCRIPT", "LOAD", text] (.text name) s
  | finds {key text secs : String} {e : Marker.Entry} (live : s.live? key now = some e) :
      Does now s ["EVALSHA", digest script, "1", key, text, secs] (.text e.text) s
  | begins {key text secs : String} {n : Nat} (free : s.live? key now = none)
      (lasts : Text.number? secs.toList = some n) :
      Does now s ["EVALSHA", digest script, "1", key, text, secs] .nothing
        (s.set key text (.ofSeconds n) now)
  | sets {key text secs : String} {n : Nat} (lasts : Text.number? secs.toList = some n) :
      Does now s ["SETEX", key, secs, text] (.status "OK") (s.set key text (.ofSeconds n) now)

/-- How a server answers. The reply to a command may be lost. -/
inductive Answers (now : Instant) (s : Marker.Store) : (c : Call) → c.Reply → Marker.Store → Prop
  | connect (reached : Bool) : Answers now s .connect reached s
  | replies {words : List String} {r : Reply} {s' : Marker.Store} (does : Does now s words r s') :
      Answers now s (.command words) (some r) s'
  | loses {words : List String} {r : Reply} {s' : Marker.Store} (does : Does now s words r s') :
      Answers now s (.command words) none s'

inductive Serves (now : Instant) :
    Marker.Store → List (Exchange line) → Marker.Store → Prop
  | nil (s : Marker.Store) : Serves now s [] s
  | cons {s s' s'' : Marker.Store} {c : Call} {r : c.Reply} {xs : List (Exchange line)}
      (first : Answers now s c r s') (rest : Serves now s' xs s'') : Serves now s (⟨c, r⟩ :: xs) s''

variable {now : Instant} {s s' : Marker.Store} {key text : String} {ttl : Span} {r : Reply}
  {words : List String} {α : Type} {a : α}

def outcome : Option Reply → Except Error Reply
  | none => .error .disconnected
  | some (.failure text) => .error (.refused text)
  | some r => .ok r

theorem number?_seconds (ttl : Span) :
    Text.number? (seconds ttl).toList = some (Nat.max 1 ttl.seconds) := by
  simp [seconds, Text.number?_digits]

/-- The script runs as the store that is asked for a marker, unless the server refuses it. -/
theorem does_script
    (h : Does now s ["EVALSHA", digest script, "1", key, Marker.inFlight.text, seconds ttl] r s') :
    (∃ refusal, r = .failure refusal ∧ s' = s) ∨
      (outcome (some r) = .ok r ∧
        marker? r = some (s.tryBegin key (Dispatch.Crew.lifetime ttl) now).2) ∧
      s' = (s.tryBegin key (Dispatch.Crew.lifetime ttl) now).1 := by
  generalize spelt : ["EVALSHA", digest script, "1", key, Marker.inFlight.text, seconds ttl] = words
    at h
  cases h with
  | refuses words refusal => exact Or.inl ⟨refusal, rfl, rfl⟩
  | keepsScript => simp at spelt
  | finds live =>
      simp only [List.cons.injEq, true_and, and_true] at spelt
      obtain ⟨rfl, -, -⟩ := spelt
      simp [Marker.Store.tryBegin, live, marker?, Reply.text?, outcome]
  | begins free lasts =>
      simp only [List.cons.injEq, true_and, and_true] at spelt
      obtain ⟨rfl, rfl, rfl⟩ := spelt
      obtain rfl := Option.some.inj ((number?_seconds ttl).symm.trans lasts)
      simp [Marker.Store.tryBegin, free, marker?, Dispatch.Crew.lifetime, outcome]
  | sets => simp at spelt

theorem does_setex (h : Does now s ["SETEX", key, seconds ttl, Marker.delivered.text] r s') :
    (∃ refusal, r = .failure refusal ∧ s' = s) ∨
      outcome (some r) = .ok r ∧ s' = s.markDelivered key (Dispatch.Crew.lifetime ttl) now := by
  generalize spelt : ["SETEX", key, seconds ttl, Marker.delivered.text] = words at h
  cases h with
  | refuses words refusal => exact Or.inl ⟨refusal, rfl, rfl⟩
  | sets lasts =>
      simp only [List.cons.injEq, true_and, and_true] at spelt
      obtain ⟨rfl, rfl, rfl⟩ := spelt
      obtain rfl := Option.some.inj ((number?_seconds ttl).symm.trans lasts)
      simp [Marker.Store.markDelivered, Dispatch.Crew.lifetime, outcome]
  | _ => simp at spelt

/-! ## What a client makes of it -/

theorem command_eq (words : List String) :
    command words = .ask (.command words) fun r => .done (outcome r) := by
  refine congrArg (Dialogue.ask (I := line) (Call.command words)) (funext fun r => ?_)
  match r with
  | none => rfl
  | some (.failure _) | some .nothing | some (.number _) | some (.text _) | some (.status _)
  | some (.list _) => rfl

/-- Served by a server with the markers of `s`, a talk comes to a result, and the markers to those of
`s'`. -/
def Ends (now : Instant) (s : Marker.Store) (d : Talk α) (a : α) (s' : Marker.Store) : Prop :=
  ∃ xs, Leads d xs (.done a) ∧ Serves now s xs s'

theorem ends_done {b : α} (h : Ends now s (.done b) a s') : a = b ∧ s' = s := by
  obtain ⟨xs, told, served⟩ := h
  obtain ⟨rfl, same⟩ := leads_done.1 told
  cases same
  cases served
  exact ⟨rfl, rfl⟩

theorem ends_ask {c : Call} {k : c.Reply → Talk α} (h : Ends now s (.ask c k) a s') :
    ∃ r s₁, Answers now s c r s₁ ∧ Ends now s₁ (k r) a s' := by
  obtain ⟨xs, told, served⟩ := h
  rcases leads_ask.1 told with ⟨_, unfinished⟩ | ⟨r, ys, rfl, more⟩
  · cases unfinished
  · cases served with
    | cons first rest => exact ⟨r, _, first, ys, more, rest⟩

theorem ends_bind {β : Type} {d : Talk β} {f : β → Talk α} (h : Ends now s (d.bind f) a s') :
    ∃ b s₁, Ends now s d b s₁ ∧ Ends now s₁ (f b) a s' := by
  induction d generalizing s with
  | done b => exact ⟨b, s, ⟨[], .here _, .nil s⟩, h⟩
  | ask c k ih =>
      obtain ⟨r, s₁, first, more⟩ := ends_ask h
      obtain ⟨b, s₂, ⟨ys, told, served⟩, rest⟩ := ih r more
      exact ⟨b, s₂, ⟨_, .asked r told, .cons first served⟩, rest⟩

theorem ends_command {result : Except Error Reply} (h : Ends now s (command words) result s') :
    ∃ r, Answers now s (.command words) r s' ∧ result = outcome r := by
  rw [command_eq] at h
  obtain ⟨r, s₁, answer, rest⟩ := ends_ask h
  obtain ⟨rfl, rfl⟩ := ends_done rest
  exact ⟨r, answer, rfl⟩

/-- Handing a script over changes no marker. -/
theorem answers_load {r : Option Reply} (h : Answers now s (.command ["SCRIPT", "LOAD", text]) r s') :
    s' = s := by
  generalize spelt : ["SCRIPT", "LOAD", text] = words at h
  cases h with
  | replies does | loses does =>
      cases does with
      | refuses | keepsScript => rfl
      | _ => simp at spelt

/-- Running the script comes down to the answer to one command, or to an error without an effect. -/
theorem ends_evaluate {result : Except Error Reply} (h : Ends now s (evaluate words) result s') :
    (∃ r, Answers now s (.command words) r s' ∧ result = outcome r) ∨
      (∃ e, result = .error e ∧ s' = s) := by
  obtain ⟨_, s₁, first, rest⟩ := ends_bind h
  obtain ⟨r, answer, rfl⟩ := ends_command first
  cases took : outcome r with
  | ok reply =>
      rw [took] at rest
      obtain ⟨rfl, rfl⟩ := ends_done rest
      exact Or.inl ⟨r, answer, took.symm⟩
  | error e =>
      rw [took] at rest
      dsimp only at rest
      split at rest
      · rename_i unknown
        -- Only a refusal has a code, so that nothing was done yet.
        have same : s₁ = s := by
          cases answer with
          | replies does =>
              cases does with
              | refuses => rfl
              | _ => cases took
          | loses => cases took; cases unknown
        subst same
        obtain ⟨_, s₂, load, more⟩ := ends_bind rest
        obtain ⟨_, loaded, rfl⟩ := ends_command load
        obtain rfl := answers_load loaded
        split at more
        · obtain ⟨rfl, rfl⟩ := ends_done more
          exact Or.inr ⟨_, rfl, rfl⟩
        · exact Or.inl (ends_command more)
      · obtain ⟨rfl, rfl⟩ := ends_done rest
        exact Or.inl ⟨r, answer, took.symm⟩

/-- Over a connection of its own something is done, or there is no connection. -/
theorem ends_connected {act : Talk (Except Error α)} {result : Except Marker.StoreError α}
    (h : Ends now s (connected act) result s') :
    (∃ e, result = .error e ∧ s' = s) ∨
      ∃ done, Ends now s act done s' ∧
        result = done.mapError fun e => .unavailable e.message := by
  obtain ⟨reached, s₁, answer, rest⟩ := ends_ask h
  cases answer
  cases reached with
  | false =>
      obtain ⟨rfl, rfl⟩ := ends_done rest
      exact Or.inl ⟨_, rfl, rfl⟩
  | true =>
      obtain ⟨_, s₂, reached, more⟩ := ends_bind rest
      obtain ⟨rfl, rfl⟩ := ends_done reached
      obtain ⟨done, s₃, acted, more⟩ := ends_bind more
      refine Or.inr ⟨done, ?_⟩
      cases done with
      | error e | ok a =>
          obtain ⟨rfl, rfl⟩ := ends_done more
          exact ⟨acted, rfl⟩

/-- A command that the server refuses or carries out ends in an error, which may hide that it was
carried out, or with its reply. -/
theorem outcome_cases {P : Reply → Prop} {after : Marker.Store} {answer : Option Reply}
    (h : Answers now s (.command words) answer s')
    (does : ∀ {r s'}, Does now s words r s' → (∃ refusal, r = .failure refusal ∧ s' = s) ∨
      (outcome (some r) = .ok r ∧ P r) ∧ s' = after) :
    (∃ e, outcome answer = .error e ∧ (s' = s ∨ s' = after)) ∨
      ∃ r, outcome answer = .ok r ∧ P r ∧ s' = after := by
  cases h with
  | loses done =>
      rcases does done with ⟨_, _, same⟩ | ⟨_, same⟩
      · exact Or.inl ⟨_, rfl, Or.inl same⟩
      · exact Or.inl ⟨_, rfl, Or.inr same⟩
  | replies done =>
      rcases does done with ⟨refusal, rfl, same⟩ | ⟨⟨taken, told⟩, same⟩
      · exact Or.inl ⟨_, rfl, Or.inl same⟩
      · exact Or.inr ⟨_, taken, told, same⟩

/-- The client answers as the store does, or with an error that may hide that the store did it. -/
theorem ends_tryBegin {result : Except Marker.StoreError (Option Marker)}
    (h : Ends now s (tryBegin key ttl) result s') :
    (∃ e, result = .error e ∧
      (s' = s ∨ s' = (s.tryBegin key (Dispatch.Crew.lifetime ttl) now).1)) ∨
    (result = .ok (s.tryBegin key (Dispatch.Crew.lifetime ttl) now).2 ∧
      s' = (s.tryBegin key (Dispatch.Crew.lifetime ttl) now).1) := by
  rcases ends_connected h with ⟨e, rfl, rfl⟩ | ⟨done, acted, rfl⟩
  · exact Or.inl ⟨e, rfl, Or.inl rfl⟩
  obtain ⟨ran, s₁, run, rest⟩ := ends_bind acted
  rcases ends_evaluate run with ⟨r, answer, rfl⟩ | ⟨e, rfl, rfl⟩
  · rcases outcome_cases answer does_script with ⟨e, failed, same⟩ | ⟨reply, taken, read, same⟩
    · rw [failed] at rest
      obtain ⟨rfl, rfl⟩ := ends_done rest
      exact Or.inl ⟨_, rfl, same⟩
    · rw [taken] at rest
      dsimp only at rest
      rw [read] at rest
      obtain ⟨rfl, rfl⟩ := ends_done rest
      exact Or.inr ⟨rfl, same⟩
  · obtain ⟨rfl, rfl⟩ := ends_done rest
    exact Or.inl ⟨_, rfl, Or.inl rfl⟩

theorem ends_markDelivered {result : Except Marker.StoreError Unit}
    (h : Ends now s (markDelivered key ttl) result s') :
    (∃ e, result = .error e ∧
      (s' = s ∨ s' = s.markDelivered key (Dispatch.Crew.lifetime ttl) now)) ∨
    (result = .ok () ∧ s' = s.markDelivered key (Dispatch.Crew.lifetime ttl) now) := by
  rcases ends_connected h with ⟨e, rfl, rfl⟩ | ⟨done, acted, rfl⟩
  · exact Or.inl ⟨e, rfl, Or.inl rfl⟩
  obtain ⟨_, s₁, set, rest⟩ := ends_bind acted
  obtain ⟨r, answer, rfl⟩ := ends_command set
  have taken := outcome_cases (P := fun _ => True) answer fun done =>
    (does_setex done).imp_right fun ⟨taken, same⟩ => ⟨⟨taken, trivial⟩, same⟩
  rcases taken with ⟨e, failed, same⟩ | ⟨reply, taken, _, same⟩
  · rw [failed] at rest
    obtain ⟨rfl, rfl⟩ := ends_done rest
    exact Or.inl ⟨_, rfl, same⟩
  · rw [taken] at rest
    obtain ⟨rfl, rfl⟩ := ends_done rest
    exact Or.inr ⟨rfl, same⟩

end Courier.Redis.Markers

namespace Courier.Dispatch.Crew

open Dialogue

/-- What the sender and the client of the server make of a question, and what it leaves of the
markers. -/
inductive Given (target : Webhook.Target) (s : Crew) : (c : Call) → c.Reply → Marker.Store → Prop
  | send {r : Webhook.Request} {xs : List (Exchange Webhook.network)}
      {result : Except Webhook.SendError Nat}
      (sent : (Webhook.send target r).Leads xs (.done result)) :
      Given target s (.send r) result s.markers
  | tryBegin {key : String} {ttl : Span} {result : Except Marker.StoreError (Option Marker)}
      {markers : Marker.Store}
      (ends : Redis.Markers.Ends s.now s.markers (Redis.Markers.tryBegin key ttl) result markers) :
      Given target s (.tryBegin key ttl) result markers
  | markDelivered {key : String} {ttl : Span} {result : Except Marker.StoreError Unit}
      {markers : Marker.Store}
      (ends : Redis.Markers.Ends s.now s.markers (Redis.Markers.markDelivered key ttl) result
        markers) :
      Given target s (.markDelivered key ttl) result markers

/-- What the sender and the client of the server make of a question is an effect that a crew reckons
with. -/
theorem Effect.of_given {target : Webhook.Target} {s : Crew} {c : Call} {r : c.Reply}
    {markers : Marker.Store} (given : Given target s c r markers) :
    Effect s c r markers s.acknowledged := by
  cases given with
  | @send request xs result sent =>
      cases result with
      | error e => exact .sendFailed request e
      | ok status =>
          rcases Webhook.send_cases sent with ⟨_, _, refused⟩ | ⟨p, _, way⟩
          · cases refused
          · obtain ⟨_, _, _, success⟩ := way.success
            exact .send request success
  | @tryBegin key ttl _ _ ends =>
      rcases Redis.Markers.ends_tryBegin ends with ⟨e, rfl, rfl | rfl⟩ | ⟨rfl, rfl⟩
      · exact .beginFailed key ttl e false
      · exact .beginFailed key ttl e true
      · exact .begin key ttl
  | @markDelivered key ttl _ _ ends =>
      rcases Redis.Markers.ends_markDelivered ends with ⟨e, rfl, rfl | rfl⟩ | ⟨rfl, rfl⟩
      · exact .markFailed key ttl e false
      · exact .markFailed key ttl e true
      · exact .mark key ttl

end Courier.Dispatch.Crew
