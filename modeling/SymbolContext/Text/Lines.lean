/-!
# Lines

Two ways to cut a text into lines.

* `pieces` cuts at every newline and keeps everything else, so the pieces joined by newlines are
  the text again.
* `lines` reads a newline as a terminator: one carriage return before it is dropped with it, and
  there is no line after the last terminator.
-/

namespace SymbolContext.Text

/-- Put a character in front of the first piece. -/
def consFirst (c : Char) : List (List Char) → List (List Char)
  | [] => [[c]]
  | p :: ps => (c :: p) :: ps

/-- The pieces of a text between the occurrences of `sep`; there is always at least one. -/
def splitAtChar (sep : Char) : List Char → List (List Char)
  | [] => [[]]
  | c :: cs => if c = sep then [] :: splitAtChar sep cs else consFirst c (splitAtChar sep cs)

/-- The pieces of a text between newlines. -/
def pieces (s : String) : List String := (splitAtChar '\n' s.toList).map String.ofList

/-- A line without one carriage return at its end. -/
def dropReturn (cs : List Char) : List Char :=
  if cs.getLast? = some '\r' then cs.dropLast else cs

/-- The terminated lines of a list of pieces, and the last piece if it is not empty. -/
def terminated : List (List Char) → List (List Char)
  | [] => []
  | [p] => if p = [] then [] else [p]
  | p :: ps => dropReturn p :: terminated ps

/-- The lines of a text. -/
def lines (s : String) : List String :=
  (terminated (splitAtChar '\n' s.toList)).map String.ofList

/-- Join texts with a separator between them. -/
def join (sep : String) : List String → String
  | [] => ""
  | [s] => s
  | s :: rest => s ++ sep ++ join sep rest

end SymbolContext.Text
