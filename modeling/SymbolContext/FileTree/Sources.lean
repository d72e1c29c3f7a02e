import SymbolContext.FileTree.Basic
import SymbolContext.Settings

/-!
# Source files in a tree

The files worth opening: regular files with a wanted extension, depth first and in the order of
their names, outside of hidden directories and of those that are to be left out. The top of the
tree counts whatever its name is.
-/

namespace SymbolContext.FileTree

/-- Something met on the way through a tree. -/
inductive Visit where
  | source (path : String)
  | unreadable (path reason : String)
deriving DecidableEq, Repr

/-- Whether directories of this name are left out. -/
def isSkipped (s : WarmUpSettings) (name : String) : Bool :=
  name.toList.head? = some '.' || s.skipped.contains name

/-- Whether a file is wanted, by its extension. -/
def isWanted (s : WarmUpSettings) (path : String) : Bool :=
  match Path.extension? path with
  | some extension => s.extensions.contains extension
  | none => false

mutual

/-- What is met in a tree at a path. -/
def visits (s : WarmUpSettings) (path : String) : FileTree → List Visit
  | .file _ => if isWanted s path then [.source path] else []
  | .link _ => []
  | .locked reason => [.unreadable path reason]
  | .dir entries => visitsOf s path entries

/-- What is met in the entries of a directory. -/
def visitsOf (s : WarmUpSettings) (path : String) : List (String × FileTree) → List Visit
  | [] => []
  | (name, t) :: rest =>
    (if t.isDir && isSkipped s name then [] else visits s (Path.child path name) t) ++
      visitsOf s path rest

end

/-- The source files among what is met. -/
def sources (vs : List Visit) : List String :=
  vs.filterMap fun
    | .source path => some path
    | .unreadable .. => none

/-- What is said of a part of the tree that cannot be read. -/
def skipText (path reason : String) : String :=
  "Skipping unreadable entry: IO error for operation on " ++ path ++ ": " ++ reason

/-- What is said of the parts of the tree that cannot be read. -/
def complaints (vs : List Visit) : List String :=
  vs.filterMap fun
    | .source _ => none
    | .unreadable path reason => some (skipText path reason)

end SymbolContext.FileTree
