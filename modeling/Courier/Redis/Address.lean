import Courier.Url.Parts
import Courier.Url.Query

/-!
# Addresses of Redis servers

A server is found at a host and a port or at a socket in the file system. The URL may also choose a
database, a user and a version of the protocol. Encrypted connections are not offered.
-/

namespace Courier.Redis

inductive Place
  | host (host : Url.Host) (port : Nat)
  | socket (path : String)
  deriving DecidableEq, Repr

structure Address where
  place : Place
  database : Int
  user : Option String
  password : Option String
  deriving DecidableEq, Repr

namespace Address

def usualPort : Nat := 6379

def isProtocol (s : String) : Bool := ["2", "resp2", "3", "resp3"].contains s

def bare (path : String) : String :=
  let trim (cs : List Char) : List Char := cs.dropWhile (· == '/')
  String.ofList (trim (trim path.toList).reverse).reverse

/-- The number of a database; nothing written means the first. -/
def database? (s : String) : Option Int := if s.isEmpty then some 0 else Text.word? s

def part? (s : Option String) : Option (Option String) :=
  match s with
  | none => some none
  | some s => if s.isEmpty then some none else (Url.decode? s).map some

def ofHostUrl? (u : Url) : Option Address := do
  some ⟨.host (← u.host) (u.port.getD usualPort), ← database? (bare u.path), ← part? u.user,
    ← part? u.password⟩

def ofSocketUrl? (u : Url) (options : List (String × String)) : Option Address := do
  if u.host.any (· != .name "localhost") || u.path.toList.head? != some '/' then none
  else
    let database ← match Url.Query.value? "db" options with
      | none => some 0
      | some s => Text.word? s
    some ⟨.socket ((Url.decode? u.path).getD u.path), database, Url.Query.value? "user" options,
      Url.Query.value? "pass" options⟩

def ofText? (s : String) : Option Address :=
  match Url.ofText s with
  | .error _ => none
  | .ok u =>
    let options := Url.Query.pairs (u.query.getD "")
    if (Url.Query.value? "protocol" options).any (!isProtocol ·) then none
    else if u.scheme = "redis" ∨ u.scheme = "valkey" then ofHostUrl? u
    else if ["unix", "redis+unix", "valkey+unix"].contains u.scheme then ofSocketUrl? u options
    else none

end Address

end Courier.Redis
