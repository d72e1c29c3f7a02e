import SymbolContext.Definition.Expand
import SymbolContext.Diagnostic

/-!
# The surroundings of a query

A query talks to a source of symbols, reads files and makes remarks. All of it happens in some
monad, so that a query can run against a live server, a script, or anything that a theorem is to
speak of.
-/

namespace SymbolContext

/-- **A source of symbols.** Every call may fail. -/
structure Backend (m : Type → Type) where
  /-- Search symbols by name; the payload is decoded by the caller. -/
  symbol : String → m (Except BackendFailure Json)
  /-- Make a file known; doing so again is cheap. -/
  openFile : String → m (Except BackendFailure Unit)
  /-- The references to the symbol at the start of a location, with or without its declaration. -/
  references : Location → Bool → m (Except BackendFailure (List Location))
  /-- The whole definition that a location belongs to. -/
  definition : Location → m (Except BackendFailure Definition.Result)

/-- What a query needs besides the backend. -/
structure Surroundings (m : Type → Type) extends Backend m where
  /-- The text of a file, or why it cannot be read. -/
  readText : String → m (Except String String)
  /-- Make a remark. -/
  note : Diagnostic → m Unit

end SymbolContext
