import SymbolContext.Uri.Host

/-!
# URIs

The grammar of URIs and of relative references. A URI is kept as its text together with its path
component, which is still percent-encoded.

* `Uri.parse` reads a text, and names the first character that is wrong.

The text is ASCII up to that character, so indices count characters and octets alike.
-/

namespace SymbolContext

namespace Uri

/-- What is wrong with a text that is no URI. -/
inductive Fault where
  | unexpected
  | badOctet
  | badAddress
deriving DecidableEq, Repr

/-- A fault and where it is. -/
structure Error where
  fault : Fault
  index : Nat
deriving DecidableEq, Repr

/-- The wording of an error. -/
def Error.message (e : Error) : String :=
  let what := match e.fault with
    | .unexpected => "unexpected character"
    | .badOctet => "invalid percent-encoded octet"
    | .badAddress => "invalid IP literal"
  what ++ " at index " ++ Decimal.text e.index

/-- Report a fault. -/
def fail {α : Type} (fault : Fault) (index : Nat) : Except Error α := .error ⟨fault, index⟩

/-- Letters and digits of ASCII. -/
def isAlphanum (c : Char) : Bool :=
  ('a' ≤ c && c ≤ 'z') || ('A' ≤ c && c ≤ 'Z') || ('0' ≤ c && c ≤ '9')

/-- Characters that never need an escape. -/
def isUnreserved (c : Char) : Bool :=
  isAlphanum c || c = '-' || c = '.' || c = '_' || c = '~'

/-- Characters that may delimit parts within a component. -/
def isSubDelim (c : Char) : Bool :=
  ['!', '$', '&', '\x27', '(', ')', '*', '+', ',', ';', '='].contains c

/-- Characters of a registered name. -/
def isNameChar (c : Char) : Bool := isUnreserved c || isSubDelim c

/-- Characters of user information, or of a name with a port. -/
def isAuthorityChar (c : Char) : Bool := isNameChar c || c = ':'

/-- Characters of the first segment of a relative path. -/
def isFirstSegmentChar (c : Char) : Bool := isNameChar c || c = '@'

/-- Characters of a path. -/
def isPathChar (c : Char) : Bool := isNameChar c || c = ':' || c = '@' || c = '/'

/-- Characters of a query or a fragment. -/
def isQueryChar (c : Char) : Bool := isPathChar c || c = '?'

/-- Characters of a scheme. -/
def isSchemeChar (c : Char) : Bool := isAlphanum c || c = '+' || c = '.' || c = '-'

/-- The characters of a kind, and escaped octets, in front of a text that begins at `index`; and
what follows them. -/
def span (ok : Char → Bool) (index : Nat) : List Char → Except Error (List Char × List Char)
  | [] => .ok ([], [])
  | '%' :: x :: y :: rest =>
    if isHex x && isHex y then do
      let (taken, left) ← span ok (index + 3) rest
      return ('%' :: x :: y :: taken, left)
    else fail .badOctet index
  | c :: rest =>
    if c = '%' then fail .badOctet index
    else if ok c then do
      let (taken, left) ← span ok (index + 1) rest
      return (c :: taken, left)
    else .ok ([], c :: rest)

/-- An address in brackets in front of a text that begins at `index`; what follows it. -/
def address (index : Nat) (cs : List Char) : Except Error (List Char) :=
  let inside := (cs.drop 1).takeWhile (· ≠ ']')
  let after := (cs.drop 1).dropWhile (· ≠ ']')
  if after ≠ [] ∧ isIpv6 inside then .ok (after.drop 1) else fail .badAddress index

/-- What follows an optional port. -/
def afterPort : List Char → List Char
  | ':' :: rest => rest.dropWhile Json.isDigit
  | cs => cs

/-- The index of the first colon, counted from `index`. -/
def colonIndex (index : Nat) (cs : List Char) : Nat := index + (cs.takeWhile (· ≠ ':')).length

/-- **Host and port as one text**, which has no other brackets than that it may have a colon:
only digits may follow it, and there may be no second one. -/
def checkHostPort (index : Nat) (cs : List Char) : Except Error Unit :=
  match cs.count ':' with
  | 0 => .ok ()
  | 1 =>
    let port := (cs.dropWhile (· ≠ ':')).drop 1
    let digits := (port.reverse.takeWhile Json.isDigit).length
    if digits = port.length then .ok ()
    else fail .unexpected (index + cs.length - 1 - digits)
  | _ => fail .unexpected (colonIndex index cs)

/-- An authority in front of a text; what follows it. Here `total` is the length of the whole. -/
def authority (total : Nat) (cs : List Char) : Except Error (List Char) := do
  let start := total - cs.length
  let (taken, rest) ← span isAuthorityChar start cs
  match rest with
  | '@' :: host =>
    if host.head? = some '[' then return afterPort (← address (total - host.length) host)
    else
      let (_, rest) ← span isNameChar (total - host.length) host
      return afterPort rest
  | _ =>
    if taken = [] then
      if rest.head? = some '[' then return afterPort (← address start rest) else return rest
    else
      checkHostPort start taken
      return rest

/-- Query and fragment, after which nothing may be left. -/
def tail (total : Nat) (cs : List Char) : Except Error Unit := do
  let cs ← match cs with
    | '?' :: rest => do
      let (_, rest) ← span isQueryChar (total - rest.length) rest
      pure rest
    | _ => pure cs
  let cs ← match cs with
    | '#' :: rest => do
      let (_, rest) ← span isQueryChar (total - rest.length) rest
      pure rest
    | _ => pure cs
  if cs = [] then return () else fail .unexpected (total - cs.length)

/-- Path, query and fragment; gives the path. -/
def pathAndTail (total : Nat) (cs : List Char) : Except Error (List Char) := do
  let (path, rest) ← span isPathChar (total - cs.length) cs
  tail total rest
  return path

/-- A path after an authority is empty or begins with a slash. -/
def pathAfterAuthority (total : Nat) (cs : List Char) : Except Error (List Char) :=
  match cs with
  | [] => pathAndTail total cs
  | c :: _ =>
    if c = '/' ∨ c = '?' ∨ c = '#' then pathAndTail total cs
    else fail .unexpected (total - cs.length)

/-- What follows a scheme, or stands in its place: an authority and a path, or a path alone. -/
def hierarchy (total : Nat) : List Char → Except Error (List Char)
  | '/' :: '/' :: rest => do pathAfterAuthority total (← authority total rest)
  | cs => pathAndTail total cs

/-- The path of a whole text. -/
def pathOf (cs : List Char) : Except Error (List Char) := do
  let total := cs.length
  let scheme := cs.takeWhile isSchemeChar
  match cs.dropWhile isSchemeChar with
  | ':' :: rest =>
    match scheme.head? with
    | some c =>
      if ('a' ≤ c ∧ c ≤ 'z') ∨ ('A' ≤ c ∧ c ≤ 'Z') then hierarchy total rest
      else fail .unexpected 0
    | none => fail .unexpected 0
  | _ =>
    if cs.take 2 = ['/', '/'] then hierarchy total cs
    else
      let (_, rest) ← span isFirstSegmentChar 0 cs
      if rest.head? = some ':' then fail .unexpected (total - rest.length)
      else pathAndTail total cs

end Uri

/-- A URI or a relative reference: its text, and the path in it. -/
structure Uri where
  text : String
  path : String
deriving DecidableEq, Repr

namespace Uri

/-- Read a text as a URI. -/
def parse (text : String) : Except Error Uri := do
  return ⟨text, String.ofList (← pathOf text.toList)⟩

end Uri

end SymbolContext
