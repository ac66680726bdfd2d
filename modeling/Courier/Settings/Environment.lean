import Courier.Settings.Values

/-!
# Settings of a process

A process finds its settings in two files and in the variables of its environment: the file
`default`, then the file named by `APP_ENVIRONMENT`, then the variables that begin with
`GEONOTIFY__`. A file that is absent is passed over; one that is no table is an error.
-/

namespace Courier.Settings

/-- What a process finds around it: variables, and the texts of files by name. -/
structure Environment where
  assigned : List (String × String)
  files : List (String × String)
  deriving DecidableEq, Repr

namespace Environment

def variableMark : String := "geonotify__"

/-- A letter in lower case. The only letter beyond ASCII with a plain lower case is the sign for
kelvin. -/
def lower (c : Char) : Char := if c = '\u212a' then 'k' else c.toLower

/-- Two underscores stand for a full stop. -/
def dotted : List Char → List Char
  | '_' :: '_' :: cs => '.' :: dotted cs
  | c :: cs => c :: dotted cs
  | [] => []

def key? (name : String) : Option String :=
  let cs := name.toList
  let mark := variableMark.toList
  if (cs.take mark.length).map lower = mark then
    some (String.ofList ((dotted (cs.drop mark.length)).map lower))
  else none

/-- The entry of a key outside the tables: one that is no path sets a name that nothing reads. -/
def entry (key : String) (v : Json) : Path × Json := ((Path.ofText? key).getD [.key key], v)

def profile (e : Environment) : String := (e.assigned.lookup "APP_ENVIRONMENT").getD "default"

def fileEntries? (e : Environment) (name : String) : Option (List (Path × Json)) :=
  match e.files.lookup name with
  | none => some []
  | some text =>
    match Json.ofText? text with
    | some (.object ms) => some (ms.map fun (k, v) => entry k v)
    | _ => none

def variableEntries (e : Environment) : List (Path × Json) :=
  e.assigned.filterMap fun (name, value) => (key? name).map fun k => entry k (.string value)

end Environment

def load (e : Environment) : Except Error Settings :=
  match e.fileEntries? "default", e.fileEntries? e.profile with
  | some base, some extra => ofTree (putAll standard (base ++ extra ++ e.variableEntries))
  | _, _ => .error .malformed

end Courier.Settings
