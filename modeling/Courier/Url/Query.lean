import Courier.Url.Host

/-!
# Queries

A query is a list of names and values: pairs between ampersands, a name before the first equals
sign, blanks written as plus signs.
-/

namespace Courier.Url.Query

open Courier.Text

/-- The text of one side of a pair. Bytes that are no text show as the replacement character. -/
def plain (cs : List Char) : String :=
  (decode? (String.ofList (cs.map fun c => if c = '+' then ' ' else c))).getD "\ufffd"

/-- The pairs of a query; nothing between two ampersands is no pair. -/
def pairs (s : String) : List (String × String) :=
  ((Host.split '&' s.toList).filter (!·.isEmpty)).map fun cs =>
    (plain (cs.takeWhile (· != '=')), plain ((cs.dropWhile (· != '=')).drop 1))

/-- The value of a name: the last counts. -/
def value? (name : String) (ps : List (String × String)) : Option String :=
  ps.reverse.lookup name

end Courier.Url.Query
