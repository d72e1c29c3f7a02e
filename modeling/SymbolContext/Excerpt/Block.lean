import SymbolContext.Excerpt.Numbered
import SymbolContext.Symbol.Hit

/-!
# Blocks

The parts of which the output is made: a definition, the references in one file, or a file that
could not be read.
-/

namespace SymbolContext.Excerpt

/-- What every block begins with. -/
def banner : String := "---\n\n"

/-- A line with a name in front, if there is something to show. -/
def labelled (name : String) : Option String → String
  | none => ""
  | some value => name ++ ": " ++ value ++ "\n"

/-- The definition of a symbol: `text` at `span`. -/
def ofDefinition (symbol : Hit) (text : String) (span : Location) : String :=
  banner ++ labelled "Symbol" (some symbol.name) ++ labelled "File" (some span.path) ++
    labelled "Kind" (symbol.kind?.map SymbolKind.name) ++
    labelled "Container Name" symbol.container? ++
    labelled "Range" (some span.range.label) ++ "\n" ++
    numberText text (span.range.start.line + 1) ++ "\n"

/-- What the blocks of a file begin with. -/
def fileHeader (path : String) (count : Nat) : String :=
  banner ++ path ++ "\nReferences in File: " ++ Decimal.text count ++ "\n"

/-- Where some references start. -/
def startLabels (references : List Location) : String :=
  Text.join ", " (references.map fun r => r.range.start.label)

/-- The references in one file with the lines around them. -/
def ofReferences (path : String) (references : List Location) (lines : List String)
    (ranges : List LineRange) : String :=
  fileHeader path references.length ++
    labelled "At" (if references.isEmpty then none else some (startLabels references)) ++ "\n" ++
    excerpt lines ranges

/-- References in a file that cannot be read, and why. -/
def ofUnreadable (path : String) (count : Nat) (reason : String) : String :=
  fileHeader path count ++ "\nError reading file: " ++ reason

end SymbolContext.Excerpt
