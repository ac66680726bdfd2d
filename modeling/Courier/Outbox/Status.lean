/-!
# The life of an outbox event

An event waits, is being processed under a lease, and ends dispatched or dead; only the second
state leads anywhere, and the last two lead nowhere.
-/

namespace Courier.Outbox

inductive Status
  | pending
  | processing
  | dispatched
  | dead
  deriving DecidableEq, Repr, Inhabited

namespace Status

def text : Status → String
  | pending => "pending"
  | processing => "processing"
  | dispatched => "dispatched"
  | dead => "dead"

/-- No event leaves this status. -/
def isTerminal : Status → Bool
  | dispatched | dead => true
  | _ => false

def initial : Status := .pending

def named? : String → Option Status
  | "pending" => some .pending
  | "processing" => some .processing
  | "dispatched" => some .dispatched
  | "dead" => some .dead
  | _ => none

/-- The status that a text in a table names; dispatched events of an earlier day are called
succeeded. -/
def stored? : String → Option Status
  | "succeeded" => some .dispatched
  | s => named? s

def unknownText (s : String) : String := "unknown outbox status: " ++ s

@[simp] theorem named?_text (s : Status) : named? s.text = some s := by cases s <;> rfl

@[simp] theorem stored?_text (s : Status) : stored? s.text = some s := by cases s <;> rfl

theorem text_injective {a b : Status} (h : a.text = b.text) : a = b := by
  simpa using congrArg named? h

end Status

end Courier.Outbox
