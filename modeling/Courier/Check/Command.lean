import Courier.Json.Fields
import Courier.Text.Blank

/-!
# Location checks asked for

A user, a point on the map and how many nearby incidents to report at most; and the rules that a
request has to keep. A coordinate that is no number breaks no rule, since it lies neither below nor
above the bounds.
-/

namespace Courier.Check

/-- A point on the map, in degrees. -/
structure Point where
  lat : Float
  lon : Float

structure Command where
  userId : String
  point : Point
  limit : Nat

def maxLimit : Nat := 500

def defaultLimit : Nat := 50

/-- A rule that a request breaks, with the offending value. -/
inductive Violation
  | blankUser (value : String)
  | latOutOfRange (value : Float)
  | lonOutOfRange (value : Float)
  | limitTooLarge (value : Nat)

namespace Violation

def field : Violation → String
  | blankUser _ => "user_id"
  | latOutOfRange _ => "lat"
  | lonOutOfRange _ => "lon"
  | limitTooLarge _ => "limit"

def path : Violation → String
  | latOutOfRange _ => "point.lat"
  | lonOutOfRange _ => "point.lon"
  | v => v.field

def code : Violation → String
  | blankUser _ => "blank"
  | _ => "range"

def message : Violation → String
  | blankUser _ => "is required"
  | latOutOfRange _ => "must be between -90 and 90"
  | lonOutOfRange _ => "must be between -180 and 180"
  | limitTooLarge _ => "must be <= 500"

def params : Violation → List (String × Json)
  | blankUser s => [("value", .string s)]
  | latOutOfRange x => [("max", .float 90.0), ("min", .float (-90.0)), ("value", .float x)]
  | lonOutOfRange x => [("max", .float 180.0), ("min", .float (-180.0)), ("value", .float x)]
  | limitTooLarge n => [("max", .int maxLimit), ("value", .int n)]

end Violation

def outside (low high x : Float) : Bool := x < low || high < x

namespace Point

def violations (p : Point) : List Violation :=
  (if outside (-90.0) 90.0 p.lat then [.latOutOfRange p.lat] else []) ++
    (if outside (-180.0) 180.0 p.lon then [.lonOutOfRange p.lon] else [])

def json (p : Point) : Json := .object [("lat", .float p.lat), ("lon", .float p.lon)]

def ofSource? (s : Json.Source) : Option Point := do
  match ← s.fields? ["lat", "lon"] with
  | [lat, lon] => some ⟨← lat.float?, ← lon.float?⟩
  | _ => none

end Point

namespace Command

def violations (c : Command) : List Violation :=
  (if Text.Blank c.userId then [.blankUser c.userId] else []) ++ c.point.violations ++
    (if maxLimit < c.limit then [.limitTooLarge c.limit] else [])

def effectiveLimit (c : Command) : Nat := if c.limit = 0 then defaultLimit else c.limit

def text (c : Command) : String :=
  (Json.object [("user_id", .string c.userId), ("point", c.point.json),
    ("limit", .int c.limit)]).text

def ofText? (s : String) : Option Command := do
  match ← (← Json.Source.ofText? s).fields? ["user_id", "point", "limit"] with
  | [userId, point, limit] =>
    some ⟨← userId.string?, ← Point.ofSource? point, ← limit.size?⟩
  | _ => none

end Command

end Courier.Check
