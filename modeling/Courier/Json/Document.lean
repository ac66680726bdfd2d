import Courier.Json.Value

/-!
# JSON columns

A database column keeps a JSON value as its text. Any value can be stored; what is read back is
whatever the text spells, which differs from the value when a double's text is not read as that
double, and which is nothing at all when the value is nested too deep to be read.
-/

namespace Courier

structure Document where
  text : String
  deriving DecidableEq

namespace Document

def ofJson (v : Json) : Document := ⟨v.text⟩

def value? (d : Document) : Option Json := Json.ofText? d.text

def value (d : Document) : Json := d.value?.getD .null

end Document

end Courier
