import SymbolContext.Uri.File

/-!
# Locations

Positions, ranges and locations in files count lines and columns from zero; what is shown counts
from one. Lines and columns are words of 32 bits, and so are the numbers that are shown for them:
that of the greatest word is zero.

* `Position` is ordered by line and then by column.
* `Range.contains` and `Range.encloses` count both ends.
* `Location.compact` is the shortest form of a location on one line.
-/

namespace SymbolContext

/-- A place in a text. -/
structure Position where
  line : Nat
  column : Nat
deriving DecidableEq, Repr

namespace Position

instance : LE Position :=
  ⟨fun a b => a.line < b.line ∨ (a.line = b.line ∧ a.column ≤ b.column)⟩

instance (a b : Position) : Decidable (a ≤ b) :=
  inferInstanceAs (Decidable (a.line < b.line ∨ (a.line = b.line ∧ a.column ≤ b.column)))

/-- The order of two positions. -/
def order (a b : Position) : Ordering := (compare a.line b.line).then (compare a.column b.column)

/-- The number that is shown for a line or a column: one more, as a word of 32 bits. -/
def shown (n : Nat) : Nat := (n + 1) % Nat.pow 2 32

theorem shown_eq {n : Nat} (h : n + 1 < Nat.pow 2 32) : shown n = n + 1 := Nat.mod_eq_of_lt h

/-- The position as it is shown. -/
def label (p : Position) : String :=
  "L" ++ Decimal.text (shown p.line) ++ ":C" ++ Decimal.text (shown p.column)

end Position

/-- Two positions. -/
structure Range where
  start : Position
  stop : Position
deriving DecidableEq, Repr

namespace Range

/-- The range of no width at a position. -/
def point (p : Position) : Range := ⟨p, p⟩

/-- Whether a position lies in the range. -/
def contains (r : Range) (p : Position) : Bool := r.start ≤ p ∧ p ≤ r.stop

/-- Whether another range lies in the range. -/
def encloses (r other : Range) : Bool := r.start ≤ other.start ∧ other.stop ≤ r.stop

/-- The range as it is shown. -/
def label (r : Range) : String := r.start.label ++ " - " ++ r.stop.label

end Range

/-- A range in a file. -/
structure Location where
  path : String
  range : Range
deriving DecidableEq, Repr

namespace Location

open Position (shown)

/-- The text of the URI of the file. -/
def uriText (l : Location) : String := Uri.fileText l.path

/-- What follows the start in the compact form: nothing at a point, a column on the same line,
and a line and a column otherwise. -/
def compactEnd (r : Range) : String :=
  if shown r.start.line = shown r.stop.line then
    if shown r.start.column = shown r.stop.column then ""
    else "-" ++ Decimal.text (shown r.stop.column)
  else "-" ++ Decimal.text (shown r.stop.line) ++ ":" ++ Decimal.text (shown r.stop.column)

/-- The location on one line. -/
def compact (l : Location) : String :=
  l.path ++ ":" ++ Decimal.text (shown l.range.start.line) ++ ":" ++
    Decimal.text (shown l.range.start.column) ++ compactEnd l.range

end Location

end SymbolContext
