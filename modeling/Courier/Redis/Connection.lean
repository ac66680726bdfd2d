import Courier.Dialogue
import Courier.Redis.Reply

/-!
# Connections to a Redis server

A command is a list of words; the server answers each with a reply, unless the connection is lost.
-/

namespace Courier.Redis

inductive Call
  | connect
  | command (words : List String)
  deriving DecidableEq, Repr

def Call.Reply : Call → Type
  | connect => Bool
  | command _ => Option Redis.Reply

def line : Interface := ⟨Call, Call.Reply⟩

abbrev Talk (α : Type) := Dialogue line α

def connect : Talk (Except Error Unit) := do
  match ← (Dialogue.call (I := line) .connect : Talk Bool) with
  | true => return .ok ()
  | false => return .error .disconnected

/-- Gives a command. A refusal counts as an error. -/
def command (words : List String) : Talk (Except Error Reply) := do
  match ← (Dialogue.call (I := line) (.command words) : Talk (Option Reply)) with
  | none => return .error .disconnected
  | some (.failure text) => return .error (.refused text)
  | some r => return .ok r

def commandAs {α : Type} (read : Reply → Option α) (words : List String) :
    Talk (Except Error α) := do
  match ← command words with
  | .error e => return .error e
  | .ok r =>
    match read r with
    | some a => return .ok a
    | none => return .error .unexpected

/-- Gives commands whose replies say nothing but that they were taken; the first error counts. -/
def commands : List (List String) → Talk (Except Error Unit)
  | [] => return .ok ()
  | words :: rest => do
    match ← command words with
    | .error e => return .error e
    | .ok _ => commands rest

end Courier.Redis
