import SymbolContext.Excerpt.LineRange
import SymbolContext.Text.Lines

/-!
# Numbered lines

Lines of a text with their numbers in front.

* `numberText` numbers a whole text, with all numbers as wide as the last.
* `excerpt` shows some ranges of a text, with a mark where lines are left out.
-/

namespace SymbolContext.Excerpt

/-- A text with blanks in front to make it at least `width` characters wide. -/
def padLeft (width : Nat) (cs : List Char) : List Char :=
  List.replicate (width - cs.length) ' ' ++ cs

/-- One line with its number. -/
def row (width n : Nat) (line : String) : String :=
  String.ofList (padLeft width (Decimal.digits n)) ++ "|" ++ line ++ "\n"

/-- Lines with their numbers from `n` on. -/
def rows (width n : Nat) : List String → String
  | [] => ""
  | line :: rest => row width n line ++ rows width (n + 1) rest

/-- A text with line numbers from `start` on. -/
def numberText (text : String) (start : Nat) : String :=
  let lines := Text.pieces text
  rows (Decimal.digits (start + (lines.length - 1))).length start lines

/-- The mark for lines that are left out. -/
def gapMark : String := "...\n"

/-- The lines of one range, as far as the text has them. -/
def rowsOf (lines : List String) (r : LineRange) : String :=
  let first := max r.first 1
  rows 0 first ((lines.drop (first - 1)).take (r.last + 1 - first))

/-- The mark in front of a range that does not touch what has been shown before it. -/
def gap (shownTo : Option Nat) (r : LineRange) : String :=
  match shownTo with
  | none => ""
  | some last => if LineRange.down last 1 < r.first then gapMark else ""

/-- The lines of some ranges, after the lines up to `shownTo`. -/
def excerptAfter (lines : List String) (shownTo : Option Nat) : List LineRange → String
  | [] => ""
  | r :: rest => gap shownTo r ++ rowsOf lines r ++ excerptAfter lines (some r.last) rest

/-- The lines of some ranges. -/
def excerpt (lines : List String) (ranges : List LineRange) : String :=
  excerptAfter lines none ranges

end SymbolContext.Excerpt
