import Courier.Text.Blank
import Courier.Time.Written

/-!
# Instants from texts

Reads a date and time of day with an offset, somewhat more freely than they are written: numbers
need not be padded, white space may stand before every number and around the separators, a year may
carry a sign and then any number of digits, and the date and the time may be separated by a blank.
-/

namespace Courier.Instant

open Courier.Text

/-- At least one and at most `width` digits from the front, and the rest. -/
def digitsUpTo? (width : Nat) (cs : List Char) : Option (Nat × List Char) :=
  let ds := (cs.take width).takeWhile isDigit
  (number? ds).map fun n => (n, cs.drop ds.length)

/-- A number of at most `width` digits after white space. -/
def field? (width : Nat) (cs : List Char) : Option (Nat × List Char) :=
  digitsUpTo? width (trimStart cs)

/-- A year after white space: up to four digits, or a sign and any number of digits. -/
def year? (cs : List Char) : Option (Int × List Char) :=
  match trimStart cs with
  | '-' :: r => (digitsUpTo? r.length r).map fun (n, r) => (-(n : Int), r)
  | '+' :: r => (digitsUpTo? r.length r).map fun (n, r) => ((n : Int), r)
  | r => (digitsUpTo? 4 r).map fun (n, r) => ((n : Int), r)

def mark? (c : Char) (cs : List Char) : Option (List Char) :=
  match trimStart cs with
  | d :: r => if c = d then some r else none
  | [] => none

def date? (cs : List Char) : Option (Date × List Char) := do
  let (year, cs) ← year? cs
  let cs ← mark? '-' cs
  let (month, cs) ← field? 2 cs
  let cs ← mark? '-' cs
  let (day, cs) ← field? 2 cs
  let d : Date := ⟨year, month, day⟩
  if d.Valid then some (d, cs) else none

/-- A fraction of a second, in nanoseconds: digits beyond the ninth are dropped. -/
def fraction? : List Char → Option (Nat × List Char)
  | '.' :: cs =>
    let ds := cs.takeWhile isDigit
    (number? (ds.take 9)).map fun n => (n * Nat.pow 10 (9 - (ds.take 9).length), cs.drop ds.length)
  | cs => some (0, cs)

def clock? (cs : List Char) : Option (Nat × Nat × List Char) := do
  let (hour, cs) ← field? 2 cs
  let cs ← mark? ':' cs
  let (minute, cs) ← field? 2 cs
  let cs ← mark? ':' cs
  let (second, cs) ← field? 2 cs
  let (nano, cs) ← fraction? cs
  if hour < 24 ∧ minute < 60 ∧ second ≤ 60 then
    some (hour * 3600 + minute * 60 + Nat.min second 59,
      nano + if second = 60 then 1000000000 else 0, cs)
  else none

def twoDigits? : List Char → Option (Nat × List Char)
  | a :: b :: r => do
    let x ← digitValue? a
    let y ← digitValue? b
    some (10 * x + y, r)
  | _ => none

def offset? (cs : List Char) : Option (Int × List Char) :=
  let isUtc := (cs.take 3).map Char.toUpper == ['U', 'T', 'C']
  if isUtc then some (0, cs.drop 3)
  else
    match cs with
    | [] => none
    | c :: r =>
      if c = 'Z' ∨ c = 'z' then some (0, r)
      else if c = '+' ∨ c = '-' ∨ c = '\u2212' then do
        let (hours, r) ← twoDigits? r
        let r := r.dropWhile fun c => c == ':' || isBlank c
        let (minutes, r) ← twoDigits? r
        if hours < 24 ∧ minutes < 60 then
          let seconds : Int := hours * 3600 + minutes * 60
          some (if c = '+' then seconds else -seconds, r)
        else none
      else none

def ofText? (s : String) : Option Instant := do
  let (d, cs) ← date? s.toList
  let cs ← match cs with
    | c :: r => if c = 'T' ∨ c = 't' ∨ c = ' ' then some r else none
    | [] => none
  let (secondOfDay, nano, cs) ← clock? cs
  let (offset, cs) ← offset? (trimStart cs)
  let here := ofDate d secondOfDay nano
  let t : Instant := ⟨here.second - offset, here.nano⟩
  if (trimStart cs).isEmpty && decide (here.InCalendar ∧ t.InCalendar) then some t else none

end Courier.Instant
