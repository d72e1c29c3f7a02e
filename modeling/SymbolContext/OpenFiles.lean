import SymbolContext.Error
import SymbolContext.Uri.File

/-!
# Open files

Which files the server has been told of, and what it was told last. A file that is opened again
with the same content costs nothing; one whose content has changed is sent as a change. Files are
told apart by the parts of their paths, and contents by a digest.

* `OpenFiles.sync` opens a file and tells the server what it must know.
-/

namespace SymbolContext

/-- What the server is told of a file. -/
inductive FileNotice where
  | opened (uri : Uri) (language : String) (version : Int) (text : String)
  | changed (uri : Uri) (version : Int) (text : String)
deriving DecidableEq, Repr

/-- What opening a file came to. -/
inductive SyncResult where
  | opened
  | changed
  | unchanged
deriving DecidableEq, Repr

/-- The language of a source file, by its extension. -/
def languageOf (path : String) : String :=
  match Path.extension? path with
  | some "c" => "c"
  | some "m" => "objective-c"
  | some "mm" => "objective-cpp"
  | some "go" => "go"
  | some "rs" => "rust"
  | some "py" => "python"
  | some "ts" => "typescript"
  | some "js" => "javascript"
  | _ => "cpp"

/-- What the server was told of a file last. -/
structure OpenFile (δ : Type) where
  parts : List Path.Part
  digest : δ
  version : Nat
deriving DecidableEq, Repr

/-- The files the server has been told of, and the version of the next notice. -/
structure OpenFiles (δ : Type) where
  files : List (OpenFile δ) := []
  nextVersion : Nat := 1
deriving DecidableEq, Repr

namespace OpenFiles

variable {δ : Type}

/-- What the server was told of a file. -/
def find? (o : OpenFiles δ) (parts : List Path.Part) : Option (OpenFile δ) :=
  o.files.find? fun f => f.parts = parts

/-- The entries with a new one in place of the old one for the same file. -/
def put (f : OpenFile δ) : List (OpenFile δ) → List (OpenFile δ)
  | [] => [f]
  | g :: rest => if g.parts = f.parts then f :: rest else g :: put f rest

/-- How many files are open. -/
def count (o : OpenFiles δ) : Nat := o.files.length

/-- Whether the server knows a file with this content. -/
def isCurrent [DecidableEq δ] (digest : String → δ) (o : OpenFiles δ) (path content : String) :
    Bool :=
  match o.find? (Path.parts path) with
  | some f => f.digest = digest content
  | none => false

/-- The notice for a file that is new, or has changed. -/
def notice (o : OpenFiles δ) (path content : String) (uri : Uri) : FileNotice :=
  if (o.find? (Path.parts path)).isSome then .changed uri o.nextVersion content
  else .opened uri (languageOf path) o.nextVersion content

/-- Remember that a notice was sent. -/
def sent (digest : String → δ) (o : OpenFiles δ) (path content : String) : OpenFiles δ :=
  ⟨put ⟨Path.parts path, digest content, o.nextVersion⟩ o.files, o.nextVersion + 1⟩

/-- What sending a notice comes to. -/
def outcomeOf : FileNotice → SyncResult
  | .opened .. => .opened
  | .changed .. => .changed

/-- **Open a file.** If the server has to be told and cannot be, nothing is remembered. -/
def sync {m : Type → Type} [Monad m] [DecidableEq δ] (digest : String → δ)
    (send : FileNotice → m (Except ClientFailure Unit)) (path content : String)
    (o : OpenFiles δ) : m (Except BackendFailure SyncResult × OpenFiles δ) :=
  if o.isCurrent digest path content then pure (.ok .unchanged, o)
  else
    match Uri.ofPath path with
    | .error e => pure (.error (.uri (Uri.fileText path) e.message), o)
    | .ok uri => do
      match ← send (o.notice path content uri) with
      | .error e => return (.error (.client e), o)
      | .ok _ => return (.ok (outcomeOf (o.notice path content uri)), o.sent digest path content)

end OpenFiles

end SymbolContext
