import SymbolContext.Excerpt.Block
import SymbolContext.Query.Matches

/-!
# Definitions of a symbol

The whole definitions of all matches, one block after the other. A match whose file cannot be
opened, or whose definition cannot be found, is remarked on and left out.
-/

namespace SymbolContext.Query

variable {m : Type → Type} [Monad m]

/-- The block of one match. -/
def definitionOf (env : Surroundings m) (s : Hit) : m (Except QueryFailure String) := do
  match ← env.openFile s.location.path with
  | .error e => return .error (.openFile s.location.path e)
  | .ok _ =>
    match ← env.definition s.location with
    | .error e => return .error (.definition s.name e)
    | .ok (text, span) => return .ok (Excerpt.ofDefinition s text span)

/-- The blocks of some matches, and how many of them were skipped. -/
def definitionBlocks (env : Surroundings m) : List Hit → m (List String × Nat)
  | [] => return ([], 0)
  | s :: rest => do
    match ← definitionOf env s with
    | .ok block =>
      let (blocks, skipped) ← definitionBlocks env rest
      return (block :: blocks, skipped)
    | .error e =>
      env.note ⟨.error, "definitions", e.message⟩
      let (blocks, skipped) ← definitionBlocks env rest
      return (blocks, skipped + 1)

/-- What is shown for some blocks. -/
def definitionsText (query : String) (blocks : List String) : String :=
  if blocks.isEmpty then query ++ " not found" else Text.join "" blocks

/-- **The definitions of a symbol.** -/
def definitions (env : Surroundings m) (query : String) : m (Except QueryFailure String) := do
  match ← search env query with
  | .error e => return .error e
  | .ok found =>
    let (blocks, skipped) ← definitionBlocks env found
    noteSkipped env "definitions" query skipped found.length
    return .ok (definitionsText query blocks)

end SymbolContext.Query
