import SymbolContext.Text.Lines

/-!
# Paths

A path is kept as the text it was given as. Two paths are the same place in a file tree when
their parts agree: repeated and trailing slashes and dots that change nothing are not parts.

* `parts` is that view of a path.
* `fileName?`, `stem?`, `extension?` and `parent` take a path apart; `withFileName` replaces its
  last part.
-/

namespace SymbolContext.Path

/-- A part of a path. -/
inductive Part where
  /-- The slash in front of an absolute path. -/
  | root
  /-- A dot in front of a relative path. -/
  | here
  /-- Two dots. -/
  | up
  /-- A name. -/
  | name (s : String)
deriving DecidableEq, Repr

/-- The texts between the slashes of a path. -/
def segments (path : String) : List (List Char) := Text.splitAtChar '/' path.toList

/-- A segment as a part; empty segments and dots are none. -/
def part? (segment : List Char) : Option Part :=
  if segment = [] ∨ segment = ['.'] then none
  else if segment = ['.', '.'] then some .up
  else some (.name (String.ofList segment))

/-- Whether a path is absolute. -/
def isAbsolute (path : String) : Bool := path.toList.head? = some '/'

/-- The parts of a path. -/
def parts (path : String) : List Part :=
  match segments path with
  | [] => []
  | first :: rest =>
    let front :=
      if isAbsolute path then [Part.root]
      else if first = ['.'] then [Part.here]
      else (part? first).toList
    front ++ rest.filterMap part?

/-- Remove empty segments and dots in front of reversed segments; the first segment of the path
stays. -/
def cut : List (List Char) → List (List Char)
  | [] => []
  | [s] => [s]
  | s :: rest => if s = [] ∨ s = ['.'] then cut rest else s :: rest

/-- The segments of a path in reverse, from its last part on. -/
def backward (path : String) : List (List Char) := cut (segments path).reverse

/-- Whether a segment is the name of a file. -/
def isName (segment : List Char) : Bool :=
  segment ≠ [] && segment ≠ ['.'] && segment ≠ ['.', '.']

/-- The last part, if it is a name. -/
def fileName? (path : String) : Option String :=
  match backward path with
  | s :: _ => if isName s then some (String.ofList s) else none
  | [] => none

/-- Cut a text at its last dot. -/
def cutAtLastDot? (name : List Char) : Option (List Char × List Char) :=
  if '.' ∈ name then
    let r := name.reverse
    some ((r.dropWhile (· ≠ '.')).drop 1 |>.reverse, (r.takeWhile (· ≠ '.')).reverse)
  else none

/-- A file name as a stem and an extension; a dot in front of a name begins no extension. -/
def splitName (name : String) : String × Option String :=
  match cutAtLastDot? name.toList with
  | some (stem, ext) =>
    if stem = [] then (name, none) else (String.ofList stem, some (String.ofList ext))
  | none => (name, none)

/-- The file name without its extension. -/
def stem? (path : String) : Option String := (fileName? path).map fun n => (splitName n).1

/-- What follows the last dot of the file name. -/
def extension? (path : String) : Option String := (fileName? path).bind fun n => (splitName n).2

/-- Put segments together again. -/
def ofSegments (ss : List (List Char)) : String :=
  if ss = [[]] then "/" else Text.join "/" (ss.map String.ofList)

/-- The path without its last part. -/
def parent (path : String) : String :=
  match backward path with
  | _ :: s :: rest => ofSegments (cut (s :: rest)).reverse
  | _ => ""

/-- A path followed by a name. -/
def child (path name : String) : String :=
  if path.isEmpty then name
  else if path.toList.getLast? = some '/' then path ++ name
  else path ++ "/" ++ name

/-- The path with another file name. -/
def withFileName (path name : String) : String := child (parent path) name

end SymbolContext.Path
