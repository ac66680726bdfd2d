import Courier.Time.Instant

/-!
# Written instants

The text of a moment after RFC 3339: the date, the time of day, the fraction with as many groups of
three digits as it needs, and the offset. Years beyond four digits carry a sign. Messages spell the
offset `Z`; the database column spells it `+00:00`, which keeps the byte order of texts the order of
moments in years 0 to 9999.
-/

namespace Courier.Instant

open Courier.Text

/-- A year: four digits, or a sign and at least four. -/
def yearText (year : Int) : List Char :=
  if 0 ≤ year ∧ year ≤ 9999 then padded 4 year.toNat
  else (if year < 0 then '-' else '+') :: padded 4 year.natAbs

/-- A fraction of a second: none, or three, six or nine digits, the fewest that lose nothing. -/
def fractionText (nano : Nat) : List Char :=
  if nano = 0 then []
  else if nano % 1000000 = 0 then '.' :: padded 3 (nano / 1000000)
  else if nano % 1000 = 0 then '.' :: padded 6 (nano / 1000)
  else '.' :: padded 9 nano

def date (t : Instant) : Date := Date.ofDays t.day

def secondText (t : Instant) : List Char :=
  padded 2 (t.secondOfDay % 60 + t.nano / 1000000000)

def localText (t : Instant) : List Char :=
  let d := t.date
  yearText d.year ++ '-' :: padded 2 d.month ++ '-' :: padded 2 d.day ++
    'T' :: padded 2 (t.secondOfDay / 3600) ++ ':' :: padded 2 (t.secondOfDay / 60 % 60) ++
    ':' :: t.secondText ++ fractionText (t.nano % 1000000000)

/-- The text of a moment in messages. -/
def text (t : Instant) : String := String.ofList (t.localText ++ ['Z'])

/-- The text of a moment in a database column. -/
def columnText (t : Instant) : String := String.ofList (t.localText ++ "+00:00".toList)

end Courier.Instant
