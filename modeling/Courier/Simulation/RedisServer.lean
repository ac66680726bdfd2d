import Courier.Redis.Connection

/-!
# A Redis server with prepared replies

A server that may be out of reach. It takes every command down and gives its prepared replies one
after another; when they are used up it hangs up. Inside a transaction it only says that a command
is queued, and it takes any script.
-/

namespace Courier.Simulation

open Courier.Redis (Reply Call)

/-- The server: whether it can be reached, the replies that are left, and what it was told. -/
structure RedisServer where
  reachable : Bool
  replies : List Reply
  commands : List (List String)
  inTransaction : Bool

namespace RedisServer

def prepared (reachable : Bool) (replies : List Reply) : RedisServer :=
  ⟨reachable, replies, [], false⟩

def next (s : RedisServer) : Option Reply × RedisServer :=
  match s.replies with
  | [] => (none, s)
  | r :: rs => (some r, { s with replies := rs })

def reply (s : RedisServer) (words : List String) : Option Reply × RedisServer :=
  match words with
  | ["MULTI"] => (some (.status "OK"), { s with inTransaction := true })
  | ["EXEC"] => { s with inTransaction := false }.next
  | "SCRIPT" :: _ => (some (.text ""), s)
  | _ => if s.inTransaction then (some (.status "QUEUED"), s) else s.next

def answer : (c : Call) → StateM RedisServer c.Reply
  | .connect => return (← get).reachable
  | .command words => do
    let s ← get
    let (r, s) := { s with commands := s.commands ++ [words] }.reply words
    set s
    return r

end RedisServer

end Courier.Simulation
