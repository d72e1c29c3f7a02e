import SymbolContext.Text.Decimal

/-!
# Ranges of lines

A range of lines to show, counted from one, both ends included. Line numbers are machine words;
adding to one stops at the greatest.

* `LineRange.merge` brings any ranges into a normal form: ascending, not empty, and with at least
  one line between neighbours.
* `LineRange.windows` merges the lines around some points of a text.
-/

namespace SymbolContext

/-- The lines from `first` to `last`. -/
structure LineRange where
  first : Nat
  last : Nat
deriving DecidableEq, Repr

namespace LineRange

/-- `n + k`, or the greatest line number. -/
def down (n k : Nat) : Nat := min (n + k) Decimal.wordMax

/-- The lines at most `context` away from `line`, in a text of `total` lines. -/
def around (line context total : Nat) : LineRange :=
  ⟨max (line - context) 1, min (down line context) total⟩

/-- The order in which ranges are merged. -/
def before (a b : LineRange) : Bool :=
  a.first < b.first || (a.first == b.first && a.last ≤ b.last)

/-- There is no line zero. -/
def fromOne (r : LineRange) : LineRange := ⟨max r.first 1, r.last⟩

/-- Whether the range has a line. -/
def hasLine (r : LineRange) : Bool := r.first ≤ r.last

/-- Join to `current` the ranges that overlap or touch it, and so on with what is left. -/
def coalesce (current : LineRange) : List LineRange → List LineRange
  | [] => [current]
  | r :: rest =>
    if r.first ≤ down current.last 1 then
      coalesce ⟨current.first, max current.last r.last⟩ rest
    else current :: coalesce r rest

/-- Join neighbours in an ascending list. -/
def coalesceAll : List LineRange → List LineRange
  | [] => []
  | r :: rest => coalesce r rest

/-- The same lines in normal form. -/
def merge (ranges : List LineRange) : List LineRange :=
  coalesceAll (((ranges.map fromOne).filter hasLine).mergeSort before)

/-- The lines at most `context` away from a point of a text of `total` lines; points outside the
text do not count. -/
def windows (points : List Nat) (total context : Nat) : List LineRange :=
  merge ((points.filter fun p => 1 ≤ p ∧ p ≤ total).map fun p => around p context total)

end LineRange

end SymbolContext
