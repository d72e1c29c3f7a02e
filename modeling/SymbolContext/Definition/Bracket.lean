import SymbolContext.Location
import SymbolContext.Text.Blank

/-!
# Brackets

The four pairs of brackets, and the search for the bracket that closes the one at the end of a
line. The brackets still open form a stack; a closing bracket that does not fit the innermost one
is passed over.

Lines and columns are counted without a bound. That they are words of 32 bits holds for the texts
that can be searched: they have fewer than `2 ^ 32` lines, and none of these is as many octets long.
-/

namespace SymbolContext.Bracket

/-- The bracket that closes an opening one. -/
def closer? : Char → Option Char
  | '(' => some ')'
  | '[' => some ']'
  | '\x7b' => some '\x7d'
  | '<' => some '>'
  | _ => none

/-- Whether a character is an opening bracket. -/
def isOpener (c : Char) : Bool := (closer? c).isSome

/-- The stack after one more character, innermost bracket first. -/
def push (stack : List Char) (c : Char) : List Char :=
  if isOpener c then c :: stack
  else
    match stack with
    | [] => []
    | o :: rest => if closer? o = some c then rest else o :: rest

/-- Where a search stands at the end of a line. -/
inductive Scan where
  /-- Brackets are still open. -/
  | pending (stack : List Char)
  /-- The last one was closed just before this column. -/
  | closed (column : Nat)
deriving DecidableEq, Repr

/-- Search the rest of a line, which begins at the octet `column`. -/
def scanLine (stack : List Char) (column : Nat) : List Char → Scan
  | [] => .pending stack
  | c :: cs =>
    if push stack c = [] then .closed (column + 1)
    else scanLine (push stack c) (column + c.utf8Size) cs

/-- Search the lines from number `line` on, in a text with fewer than `2 ^ 32` lines. -/
def scanLines (stack : List Char) (line : Nat) : List String → Option Position
  | [] => none
  | text :: rest =>
    match scanLine stack 0 text.toList with
    | .closed column => some ⟨line, column⟩
    | .pending stack => scanLines stack (line + 1) rest

/-- **The end of the group that line `i` opens**: just behind the bracket that closes the one at
the end of the line, white space aside. -/
def extend? (lines : List String) (i : Nat) : Option Position := do
  let line ← lines[i]?
  let last ← (Text.trimEnd line.toList).getLast?
  if isOpener last then scanLines [last] (i + 1) (lines.drop (i + 1)) else none

end SymbolContext.Bracket
