import SymbolContext.Excerpt.Block
import SymbolContext.Query.Matches

/-!
# References to a symbol

The references to every match, file by file in the order of their URIs, with the lines around
them. A match whose file cannot be opened is remarked on and left out; references that cannot be
found end the query; a file that cannot be read is named as such in its place.
-/

namespace SymbolContext.Query

variable {m : Type → Type} [Monad m]

/-- References by the URI of their file, in ascending order. -/
abbrev Groups := List (String × List Location)

/-- Add a reference behind those of the same file. -/
def Groups.add (key : String) (l : Location) : Groups → Groups
  | [] => [(key, [l])]
  | (k, ls) :: rest =>
    if key < k then (key, [l]) :: (k, ls) :: rest
    else if key = k then (k, ls ++ [l]) :: rest
    else (k, ls) :: Groups.add key l rest

/-- Group references by file, in their order within each. -/
def byFile (references : List Location) : Groups :=
  references.foldl (fun groups l => groups.add l.uriText l) []

/-- The lines around the references to a text. -/
def referenceWindows (references : List Location) (lines : List String) (context : Nat) :
    List LineRange :=
  LineRange.windows (references.map fun r => r.range.start.line + 1) lines.length context

/-- The block of the references in one file. -/
def fileBlock (path : String) (references : List Location) (text : String) (context : Nat) :
    String :=
  let lines := Text.pieces text
  Excerpt.ofReferences path references lines (referenceWindows references lines context)

/-- Read a file and show the references in it. -/
def showFile (env : Surroundings m) (context : Nat) (references : List Location) :
    m String := do
  let path := (references.head?.map Location.path).getD ""
  match ← env.readText path with
  | .ok text => return fileBlock path references text context
  | .error reason =>
    env.note ⟨.warn, "references", (QueryFailure.fileRead path reason).message⟩
    return Excerpt.ofUnreadable path references.length reason

/-- Show some files. -/
def showFiles (env : Surroundings m) (context : Nat) : Groups → m (List String)
  | [] => return []
  | (_, references) :: rest => do
    let block ← showFile env context references
    let blocks ← showFiles env context rest
    return block :: blocks

/-- The blocks of the references to some matches, and how many matches were skipped. -/
def referenceBlocks (env : Surroundings m) (context : Nat) :
    List Hit → m (Except QueryFailure (List String × Nat))
  | [] => return .ok ([], 0)
  | s :: rest => do
    match ← env.openFile s.location.path with
    | .error e =>
      env.note ⟨.error, "references", (QueryFailure.openFile s.location.path e).message⟩
      let more ← referenceBlocks env context rest
      return more.map fun (blocks, skipped) => (blocks, skipped + 1)
    | .ok _ =>
      match ← env.references s.location false with
      | .error e => return .error (.search .references e)
      | .ok references =>
        env.note ⟨.debug, "references", Decimal.text references.length ++ " references to " ++
          s.name ++ " at " ++ s.location.compact⟩
        let own ← showFiles env context (byFile references)
        let more ← referenceBlocks env context rest
        return more.map fun (blocks, skipped) => (own ++ blocks, skipped)

/-- What is shown for some blocks. -/
def referencesText (query : String) (blocks : List String) : String :=
  if blocks.isEmpty then "No references found for symbol: " ++ query else Text.join "\n" blocks

/-- **The references to a symbol**, each with `context` lines around it. -/
def references (env : Surroundings m) (query : String) (context : Nat) :
    m (Except QueryFailure String) := do
  match ← search env query with
  | .error e => return .error e
  | .ok found =>
    match ← referenceBlocks env context found with
    | .error e => return .error e
    | .ok (blocks, skipped) =>
      noteSkipped env "references" query skipped found.length
      return .ok (referencesText query blocks)

end SymbolContext.Query
