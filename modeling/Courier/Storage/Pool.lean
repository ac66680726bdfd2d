import Courier.Settings.Values
import Courier.Url.Query

/-!
# The pool of connections

Which databases can be opened, and how many connections are kept to one. A database in memory
exists once for each connection, so it gets exactly one. A database in a file has to be there
already unless the URL asks to create it.
-/

namespace Courier.Storage

/-- How connections are kept: how many, and for how many seconds one waits for a connection, keeps
an idle one and keeps any. -/
structure Pool where
  most : Nat
  least : Nat
  acquire : Nat
  idle : Nat
  lifetime : Nat
  deriving DecidableEq, Repr

/-- What there is to open: files, and directories in which files can be created. -/
structure Disk where
  files : List String
  directories : List String
  deriving DecidableEq, Repr

namespace Pool

inductive Mode
  | existing
  | created
  | inMemory
  deriving DecidableEq, Repr

/-- A text without a beginning, however often it is repeated. -/
def withoutLeading (mark : List Char) : Nat → List Char → List Char
  | 0, cs => cs
  | fuel + 1, cs =>
    if mark.isPrefixOf cs then withoutLeading mark fuel (cs.drop mark.length) else cs

def nameAndOptions (url : String) : List Char × List Char :=
  let strip (mark : String) (cs : List Char) : List Char :=
    withoutLeading mark.toList cs.length cs
  let cs := strip "sqlite:" (strip "sqlite://" url.toList)
  (cs.takeWhile (· != '?'), (cs.dropWhile (· != '?')).drop 1)

def option? (mode : Mode) : String × String → Option Mode
  | ("mode", "ro") | ("mode", "rw") => some mode
  | ("mode", "rwc") => some (if mode = .inMemory then mode else .created)
  | ("mode", "memory") => some .inMemory
  | ("cache", "private") | ("cache", "shared") => some mode
  | ("immutable", v) => if ["true", "1", "false", "0"].contains v then some mode else none
  | ("vfs", v) => if ["unix", "unix-dotfile", "unix-excl", "unix-none"].contains v then some mode else none
  | _ => none

def directory (path : String) : String :=
  String.ofList ((path.toList.reverse.dropWhile (· != '/')).drop 1).reverse

/-- The path in a file name, which may be spelled as a URL itself. -/
def pathOf (name : String) : String :=
  if "file:".toList.isPrefixOf name.toList then String.ofList (name.toList.drop 5) else name

def opens (disk : Disk) (url : String) : Bool :=
  match Url.ofText url with
  | .error _ => false
  | .ok u =>
    let (name, options) := nameAndOptions url
    let inMemory := name = ":memory:".toList
    match Url.decode? (String.ofList name),
        (Url.Query.pairs (String.ofList options)).foldlM option?
          (if inMemory then Mode.inMemory else .existing) with
    | some file, some mode =>
      u.scheme == "sqlite" && match mode with
        | .inMemory => true
        | .created => file.isEmpty || disk.files.contains file || disk.directories.contains (directory (pathOf file))
        | .existing => file.isEmpty || disk.files.contains file
    | _, _ => false

def occurs (mark : List Char) : List Char → Bool
  | [] => mark.isEmpty
  | c :: cs => mark.isPrefixOf (c :: cs) || occurs mark cs

def asksForMemory (url : String) : Bool :=
  "sqlite::memory:".toList.isPrefixOf url.toList ||
    ("sqlite:".toList.isPrefixOf url.toList && occurs "mode=memory".toList url.toList)

/-- The pool that settings ask for. Where they are silent there is one connection at most and none
at least, 30 seconds to wait and 600 to be idle. No connection is kept for more than an hour. -/
def ofSettings (s : Settings.Database) : Pool :=
  let memory := asksForMemory s.url
  { most := if memory then 1 else s.maxConnections.getD 1
    least := if memory then 1 else s.minConnections.getD 0
    acquire := s.connectTimeout.getD 30
    idle := s.idleTimeout.getD 600
    lifetime := 3600 }

/-- Opens the pool that settings ask for; nothing if the database cannot be opened or no connection
may be had in time. -/
def open? (disk : Disk) (s : Settings.Database) : Option Pool :=
  let pool := ofSettings s
  if opens disk s.url && 0 < pool.most && 0 < pool.acquire then some pool else none

end Pool

end Courier.Storage
