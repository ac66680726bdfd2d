import Courier.Url.Parts

/-!
# References

A reference names a URL from where one stands: it may leave out everything that stays the same.
-/

namespace Courier.Url

def withPath (base : Url) (cs : List Char) : Url :=
  let kind := kindOf base.scheme
  { base with
    path := hostedPath kind (cs.takeWhile (!endsPath ·))
    query := queryText kind (cs.dropWhile (!endsPath ·)) }

/-- A path without what follows its last slash. -/
def folder (path : String) : List Char := (path.toList.reverse.dropWhile (· != '/')).reverse

def relative (base : Url) (cs : List Char) : Except Error Url :=
  let slash := isSlash (kindOf base.scheme)
  match cs with
  | [] => .ok base
  | a :: rest =>
    if slash a then
      match rest with
      | b :: more => if slash b then hosted base.scheme (more.dropWhile slash) else .ok (base.withPath cs)
      | [] => .ok (base.withPath cs)
    else if a = '#' then .ok base
    else if a = '?' then .ok { base with query := queryText (kindOf base.scheme) cs }
    else .ok (base.withPath (folder base.path ++ cs))

def resolve (base : Url) (s : String) : Except Error Url :=
  match scheme? (clean s) with
  | none => relative base (clean s)
  | some (scheme, rest) =>
    if scheme = base.scheme && !(rest.head?.any (isSlash (kindOf scheme))) then relative base rest
    else ofText s

end Courier.Url
