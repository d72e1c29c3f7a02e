import SymbolContext.Definition.Bracket
import SymbolContext.Error
import SymbolContext.Symbol.Outline
import SymbolContext.Text.Lines

/-!
# Whole definitions

From the place where a symbol was found to the whole definition it belongs to: the innermost
symbol of the outline around it, continued to the end of a group that its last line opens.
-/

namespace SymbolContext.Definition

/-- The better of two ranges around the same position: the second, unless it reaches out of the
first. -/
def inner (best : Option Range) (candidate : Range) : Option Range :=
  match best with
  | some current => if current.encloses candidate then some candidate else some current
  | none => some candidate

/-- The innermost of some ranges around a position. -/
def innermost? (ranges : List Range) (target : Position) : Option Range :=
  (ranges.filter fun r => r.contains target).foldl inner none

/-- The range that a definition starts from: the innermost symbol around the start of the match,
or the match itself; in whole lines at its start. -/
def chosen (outline : Option Outline) (found : Range) : Range :=
  let r := ((outline.map Outline.ranges).bind fun rs => innermost? rs found.start).getD found
  { r with start := { r.start with column := 0 } }

/-- The lines from `first` to `last`, both counted from zero. -/
def slice (lines : List String) (first last : Nat) : List String :=
  (lines.drop first).take (last + 1 - first)

/-- A definition: its text, and where it is. -/
abbrev Result := String × Location

/-- **The whole definition** at a location of a text, given the outline of the text. -/
def expand (path text : String) (outline : Option Outline) (location : Location) :
    Except BackendFailure Result :=
  let lines := Text.lines text
  let span := chosen outline location.range
  if lines.length ≤ span.stop.line then
    .error (.lineOutOfRange path span.stop.line lines.length)
  else
    let stop := (Bracket.extend? lines span.stop.line).getD span.stop
    let body := slice lines (min span.start.line stop.line) stop.line
    .ok (Text.join "\n" body, ⟨path, { span with stop := stop }⟩)

end SymbolContext.Definition
