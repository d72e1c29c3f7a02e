import SymbolContext.Query.Backend
import SymbolContext.Rehearsal.Script

/-!
# A stand-in for the source of symbols

A source of symbols that answers from tables, and keeps the minutes of what it was asked, what
was remarked, and how long the pauses were.
-/

namespace SymbolContext.Rehearsal

/-- A file of a rehearsal: its octets, or why it cannot be read. -/
abbrev File := Except String (List UInt8)

/-- Files by the texts of their paths. -/
abbrev Files := List (String × File)

/-- The text of a file. -/
def Files.readText (files : Files) (path : String) : Except String String :=
  match files.lookup path with
  | some (.ok bytes) => .ok (Utf8.decodeLossy bytes)
  | some (.error reason) => .error reason
  | none => .error "File not found"

/-- Set a file. -/
def Files.set (files : Files) (path : String) (f : File) : Files :=
  (path, f) :: files.filter fun g => g.1 ≠ path

/-- Remove a file. -/
def Files.remove (files : Files) (path : String) : Files := files.filter fun g => g.1 ≠ path

/-- An answer to whoever asks at a position. -/
structure Row (α : Type) where
  path : String
  start : Position
  answer : Except BackendFailure α

/-- The answer of the first row for a location. -/
def answerAt {α : Type} (rows : List (Row α)) (l : Location) (otherwise : α) :
    Except BackendFailure α :=
  match rows.find? fun r => r.path = l.path ∧ r.start = l.range.start with
  | some r => r.answer
  | none => .ok otherwise

/-- **The tables of a stand-in.** A definition without a span is where it was asked for. -/
structure StandIn where
  symbols : List (String × Except BackendFailure Json) := []
  openFailures : List (String × BackendFailure) := []
  references : List (Row (List Location)) := []
  definitions : List (Row (String × Option Location)) := []
  files : Files := []

/-- What happened in a rehearsal. -/
structure Minutes where
  calls : List String := []
  remarks : List Diagnostic := []
  elapsed : Duration := ⟨0⟩

namespace Minutes

/-- A call is made. -/
def call (text : String) : StateM Minutes Unit :=
  modify fun w => { w with calls := w.calls ++ [text] }

/-- A remark is made. -/
def remark (d : Diagnostic) : StateM Minutes Unit :=
  modify fun w => { w with remarks := w.remarks ++ [d] }

/-- Time passes. -/
def pause (d : Duration) : StateM Minutes Unit :=
  modify fun w => { w with elapsed := w.elapsed + d }

end Minutes

namespace StandIn

/-- The stand-in as a source of symbols. -/
def backend (s : StandIn) : Backend (StateM Minutes) where
  symbol := fun query => do
    Minutes.call ("symbol:" ++ query)
    return (s.symbols.lookup query).getD (.ok .null)
  openFile := fun path => do
    Minutes.call ("open:" ++ path)
    match s.openFailures.lookup path with
    | some e => return .error e
    | none => return .ok ()
  references := fun l declaration => do
    Minutes.call ("references:" ++ l.compact ++ ":" ++ (if declaration then "true" else "false"))
    return answerAt s.references l []
  definition := fun l => do
    Minutes.call ("definition:" ++ l.compact)
    return (answerAt s.definitions l ("", none)).map fun (text, span) => (text, span.getD l)

/-- The stand-in with its files and its minutes. -/
def surroundings (s : StandIn) : Surroundings (StateM Minutes) where
  toBackend := s.backend
  readText := fun path => return s.files.readText path
  note := Minutes.remark

end StandIn

end SymbolContext.Rehearsal
