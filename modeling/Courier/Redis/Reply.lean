import Courier.Stream.Message

/-!
# Replies of a Redis server

What a server says to a command, and how it is read as a text or as a number.
-/

namespace Courier.Redis

inductive Reply
  | nothing
  | number (n : Int)
  | text (s : String)
  | status (s : String)
  | failure (s : String)
  | list (items : List Reply)

/-- Why a command has no result: the server refused it, the connection is no more, or the reply is
not of the kind that was expected. -/
inductive Error
  | refused (text : String)
  | disconnected
  | unexpected
  deriving DecidableEq, Repr

namespace Error

def code? : Error → Option String
  | refused text => some (String.ofList (text.toList.takeWhile (· != ' ')))
  | _ => none

def message : Error → String
  | refused text => text
  | disconnected => "connection lost"
  | unexpected => "unexpected reply"

def toBrokerError (e : Error) : Stream.BrokerError := .server e.code? e.message

end Error

namespace Reply

/-- The text of a reply: a number stands for its decimal. -/
def text? : Reply → Option String
  | .text s => some s
  | .status s => some s
  | .number n => some (String.ofList (Text.integer n))
  | _ => none

/-- The number of a reply: a text stands for the number that it spells. -/
def number? : Reply → Option Int
  | .number n => some n
  | .text s => Text.word? s
  | .status s => Text.word? s
  | _ => none

def isFailure : Reply → Bool
  | .failure _ => true
  | _ => false

end Reply

end Courier.Redis
