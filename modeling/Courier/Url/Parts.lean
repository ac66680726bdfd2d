import Courier.Url.Host

/-!
# URLs

A URL cut into its parts. Blanks around it and line breaks in it do not count. The schemes of the
web always have a host, and a default port that is not written; other schemes may go without.
-/

namespace Courier

structure Url where
  scheme : String
  user : String
  password : Option String
  host : Option Url.Host
  /-- The port, unless it is the usual one of the scheme. -/
  port : Option Nat
  /-- Without a host a path need not begin with a slash. -/
  path : String
  query : Option String
  deriving DecidableEq, Repr

namespace Url

open Courier.Text

/-! ### Schemes -/

/-- The schemes whose hosts are read in full, files apart, and their ports. -/
def webPorts : List (String × Nat) :=
  [("http", 80), ("https", 443), ("ws", 80), ("wss", 443), ("ftp", 21)]

inductive Kind
  | web
  | file
  | other
  deriving DecidableEq, Repr

def kindOf (scheme : String) : Kind :=
  if scheme = "file" then .file
  else if (webPorts.lookup scheme).isSome then .web
  else .other

/-- A backslash counts as a slash. -/
def Kind.isSpecial : Kind → Bool
  | .other => false
  | _ => true

def isSchemeChar (c : Char) : Bool :=
  c.isAlpha || isDigit c || c == '+' || c == '-' || c == '.'

def scheme? (cs : List Char) : Option (String × List Char) :=
  let name := cs.takeWhile isSchemeChar
  match cs.head?, cs.dropWhile isSchemeChar with
  | some c, ':' :: rest => if c.isAlpha then some (String.ofList (name.map Char.toLower), rest) else none
  | _, _ => none

/-! ### Paths -/

/-- Is it a slash, or a backslash that counts as one? -/
def isSlash (kind : Kind) (c : Char) : Bool := c == '/' || (c == '\\' && kind.isSpecial)

def endsPath (c : Char) : Bool := c == '?' || c == '#'

def segments (kind : Kind) : List Char → List (List Char)
  | [] => [[]]
  | c :: cs =>
    if isSlash kind c then [] :: segments kind cs
    else match segments kind cs with
      | [] => [[c]]
      | l :: ls => (c :: l) :: ls

def plainDots : List Char → List Char
  | '%' :: '2' :: c :: rest =>
    if c = 'e' ∨ c = 'E' then '.' :: plainDots rest else '%' :: '2' :: c :: plainDots rest
  | c :: rest => c :: plainDots rest
  | [] => []

/-- Segments, the last first, with those that name the same place or the one above taken out. -/
def walk (done : List String) : List (List Char) → List String
  | [] => done
  | s :: rest =>
    let last := rest.isEmpty
    if plainDots s = ['.'] then walk (if last then "" :: done else done) rest
    else if plainDots s = ['.', '.'] then
      walk (if last then "" :: done.drop 1 else done.drop 1) rest
    else walk (encode pathSet (String.ofList s) :: done) rest

def pathText (kind : Kind) (cs : List Char) : String :=
  String.join ((walk [] (segments kind cs)).reverse.map ("/" ++ ·))

def hostedPath (kind : Kind) : List Char → String
  | [] => if kind.isSpecial then "/" else ""
  | c :: cs => if isSlash kind c then pathText kind cs else pathText kind (c :: cs)

/-- What follows the question mark, without the fragment. -/
def queryText (kind : Kind) : List Char → Option String
  | '?' :: cs =>
    some (encode (querySet kind.isSpecial) (String.ofList (cs.takeWhile (· != '#'))))
  | _ => none

/-! ### Authorities -/

def endsAuthority (kind : Kind) (c : Char) : Bool := endsPath c || isSlash kind c

/-- The user information before the last at sign, and the rest; nothing in front without one. -/
def splitUser (cs : List Char) : Option (List Char) × List Char :=
  let host := (cs.reverse.takeWhile (· != '@')).reverse
  if host.length = cs.length then (none, cs) else (some (cs.take (cs.length - host.length - 1)), host)

/-- User name and password. An empty password counts as none. -/
def userOf (info : List Char) : String × Option String :=
  let name := info.takeWhile (· != ':')
  let word := (info.dropWhile (· != ':')).drop 1
  (encode userSet (String.ofList name),
    if word.isEmpty then none else some (encode userSet (String.ofList word)))

/-- The length of the host: up to a colon outside brackets. -/
def hostLength (inside : Bool) : List Char → Nat
  | [] => 0
  | ':' :: cs => if inside then hostLength inside cs + 1 else 0
  | '[' :: cs => hostLength true cs + 1
  | ']' :: cs => hostLength false cs + 1
  | _ :: cs => hostLength inside cs + 1

/-- A port number; nothing written means none, and so does the usual port. -/
def portOf (scheme : String) (cs : List Char) : Except Error (Option Nat) :=
  if cs.isEmpty then .ok none
  else
    match natural? cs with
    | none => .error .badPort
    | some n =>
      if 65535 < n then .error .badPort
      else .ok (if webPorts.lookup scheme = some n then none else some n)

def hosted (scheme : String) (cs : List Char) : Except Error Url := do
  let kind := kindOf scheme
  let authority := cs.takeWhile (!endsAuthority kind ·)
  let rest := cs.dropWhile (!endsAuthority kind ·)
  let (info, place) := splitUser authority
  let n := hostLength false place
  let hostText := place.take n
  let portText := (place.drop n).takeWhile (· != '\\')
  let beyond := (place.drop n).dropWhile (· != '\\') ++ rest
  if info == some [] && place.isEmpty && !rest.isEmpty then throw .emptyHost
  if hostText.isEmpty && (kind == .web || !portText.isEmpty) then throw .emptyHost
  let host ←
    if kind.isSpecial then Host.ofText (String.ofList hostText)
    else Host.ofOpaqueText (String.ofList hostText)
  if host == .name "" && info.any (fun i => userOf i != ("", none)) then throw .emptyHost
  let port ← portOf scheme (portText.drop 1)
  let (user, password) := (info.map userOf).getD ("", none)
  return { scheme, user, password, port
           host := if host == .name "" then none else some host
           path := hostedPath kind (beyond.takeWhile (!endsPath ·))
           query := queryText kind (beyond.dropWhile (!endsPath ·)) }

def hostless (scheme : String) (cs : List Char) : Url :=
  let kind := kindOf scheme
  let path := cs.takeWhile (!endsPath ·)
  { scheme, user := "", password := none, host := none, port := none
    path := match path with
      | c :: rest =>
        if isSlash kind c then pathText kind rest
        else if kind.isSpecial then pathText kind path
        else encode [] (String.ofList path)
      | [] => if kind.isSpecial then "/" else ""
    query := queryText kind (cs.dropWhile (!endsPath ·)) }

/-- A letter and a colon, or a bar for it, name a drive and no host. -/
def isDrive : List Char → Bool
  | [a, b] => a.isAlpha && (b == ':' || b == '|')
  | _ => false

/-- The URL of a file: a host that means this machine is left out. -/
def file (cs : List Char) : Except Error Url :=
  match cs with
  | a :: b :: rest =>
    if isSlash .file a && isSlash .file b then
      let name := rest.takeWhile (!endsAuthority .file ·)
      let beyond := rest.dropWhile (!endsAuthority .file ·)
      if name.isEmpty then .ok (hostless "file" beyond)
      else if isDrive name then .ok (hostless "file" ('/' :: rest))
      else
        match Host.ofText (String.ofList name) with
        | .error e => .error e
        | .ok h =>
          let u := hostless "file" beyond
          .ok { u with host := if h = .name "localhost" then none else some h }
    else .ok (hostless "file" cs)
  | _ => .ok (hostless "file" cs)

/-! ### Reading -/

/-- A text without the blanks and controls around it and the line breaks and tabs in it. -/
def clean (s : String) : List Char :=
  let trim (cs : List Char) : List Char := cs.dropWhile (·.toNat ≤ 32)
  (trim (trim s.toList).reverse).reverse.filter fun c => c != '\t' && c != '\n' && c != '\r'

def ofText (s : String) : Except Error Url :=
  match scheme? (clean s) with
  | none => .error .noScheme
  | some (scheme, rest) =>
    match kindOf scheme, rest with
    | .file, _ => file rest
    | .web, _ => hosted scheme (rest.dropWhile (isSlash .web))
    | .other, '/' :: '/' :: rest => hosted scheme rest
    | .other, _ => .ok (hostless scheme rest)

def target (u : Url) : String :=
  u.path ++ match u.query with
    | some q => "?" ++ q
    | none => ""

end Url

end Courier
