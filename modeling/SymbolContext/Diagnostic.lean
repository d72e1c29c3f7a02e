/-!
# Diagnostics

Remarks that the parts of a query make while it runs, and the lines that go to the log.
-/

namespace SymbolContext

/-- How much a remark matters. -/
inductive Level where
  | debug
  | info
  | warn
  | error
deriving DecidableEq, Repr

/-- A remark of a part of the program. -/
structure Diagnostic where
  level : Level
  component : String
  text : String
deriving DecidableEq, Repr

/-- A line of the log. -/
structure LogLine where
  level : Level
  text : String
deriving DecidableEq, Repr

namespace LogLine

/-- A warning. -/
def warn (text : String) : LogLine := ⟨.warn, text⟩

/-- An error. -/
def error (text : String) : LogLine := ⟨.error, text⟩

end LogLine

/-- A remark as a line of the log. -/
def Diagnostic.logLine (d : Diagnostic) : LogLine := ⟨d.level, d.text⟩

end SymbolContext
