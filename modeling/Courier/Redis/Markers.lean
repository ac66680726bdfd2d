import Courier.Digest.Sha1
import Courier.Marker
import Courier.Redis.Connection
import Courier.Text.Hex
import Courier.Url.Encoding

/-!
# Markers on a Redis server

The store of markers as commands to the server, each call over a connection of its own. The server
looks for a marker and sets one in a single step, which is a script that the server keeps and knows
by its digest; it is handed over when the server says that it does not know it.
-/

namespace Courier.Redis.Markers

/-- The script that answers with the marker under a key, or sets one and answers with nothing. -/
def script : String := "
local existing = redis.call('GET', KEYS[1])
if existing then
    return existing
end
redis.call('SET', KEYS[1], ARGV[1], 'EX', ARGV[2])
return false
"

def digest (text : String) : String := Text.hexBytes (Digest.Sha1.digest (Url.utf8 text))

/-- A span in whole seconds, at least one. -/
def seconds (ttl : Span) : String := String.ofList (Text.digits (Nat.max 1 ttl.seconds))

def marker? : Reply → Option (Option Marker)
  | .nothing => some none
  | r => r.text?.map fun s => some (Marker.ofText s)

/-- Runs the script, and hands it over first if the server does not know it. -/
def evaluate (words : List String) : Talk (Except Error Reply) := do
  match ← command words with
  | .error e =>
    if e.code? = some "NOSCRIPT" then
      match ← command ["SCRIPT", "LOAD", script] with
      | .error e => return .error e
      | .ok _ => command words
    else return .error e
  | .ok r => return .ok r

def connected {α : Type} (act : Talk (Except Error α)) : Talk (Except Marker.StoreError α) := do
  match ← connect with
  | .error e => return .error (.unavailable e.message)
  | .ok _ =>
    match ← act with
    | .error e => return .error (.unavailable e.message)
    | .ok a => return .ok a

def tryBegin (key : String) (ttl : Span) : Talk (Except Marker.StoreError (Option Marker)) :=
  connected do
    match ← evaluate ["EVALSHA", digest script, "1", key, Marker.inFlight.text, seconds ttl] with
    | .error e => return .error e
    | .ok r =>
      match marker? r with
      | some m => return .ok m
      | none => return .error .unexpected

def markDelivered (key : String) (ttl : Span) : Talk (Except Marker.StoreError Unit) :=
  connected do
    match ← command ["SETEX", key, seconds ttl, Marker.delivered.text] with
    | .error e => return .error e
    | .ok _ => return .ok ()

end Courier.Redis.Markers
