import SymbolContext.Path

/-!
# File trees

A tree of files, links and directories as data, and what it means to follow a path in it.

* `FileTree.follow` resolves a path to the place it leads to, through links.
-/

namespace SymbolContext

/-- Why the operating system refuses something. -/
inductive OsError where
  | notFound
  | permissionDenied
  | notDirectory
  | isDirectory
  | nameTooLong
  | tooManyLinks
  /-- A path with a character that no name may have. -/
  | invalidPath
deriving DecidableEq, Repr

/-- The wording of a refusal. -/
def OsError.message : OsError → String
  | notFound => "No such file or directory (os error 2)"
  | permissionDenied => "Permission denied (os error 13)"
  | notDirectory => "Not a directory (os error 20)"
  | isDirectory => "Is a directory (os error 21)"
  | nameTooLong => "File name too long (os error 36)"
  | tooManyLinks => "Too many levels of symbolic links (os error 40)"
  | invalidPath => "file name contained an unexpected NUL byte"

/-- **A file tree.** -/
inductive FileTree where
  | file (content : List UInt8)
  /-- A symbolic link. -/
  | link (target : String)
  /-- A directory, with its entries in ascending order of their names. -/
  | dir (entries : List (String × FileTree))
  /-- A directory that cannot be listed. -/
  | locked (reason : String)
deriving Repr

namespace FileTree

/-- An empty directory. -/
def empty : FileTree := .dir []

/-- Whether a tree is a directory. -/
def isDir : FileTree → Bool
  | dir _ => true
  | locked _ => true
  | _ => false

/-- The entries of a directory. -/
def entries : FileTree → List (String × FileTree)
  | dir es => es
  | _ => []

/-- Put an entry in its place. -/
def putEntry (name : String) (t : FileTree) : List (String × FileTree) → List (String × FileTree)
  | [] => [(name, t)]
  | (k, u) :: rest =>
    if name < k then (name, t) :: (k, u) :: rest
    else if name = k then (name, t) :: rest
    else (k, u) :: putEntry name t rest

/-- The tree at a place, by names from the root of the tree. -/
def at? : List String → FileTree → Option FileTree
  | [], t => some t
  | name :: rest, t => (t.entries.lookup name).bind (at? rest)

/-- Put a tree at a place; directories on the way are made. -/
def put (t : FileTree) : List String → FileTree → FileTree
  | [], _ => t
  | name :: rest, u =>
    .dir (putEntry name (put t rest ((u.entries.lookup name).getD empty)) u.entries)

/-- Make a directory at a place, unless there is something. -/
def makeDir (names : List String) (t : FileTree) : FileTree :=
  match t.at? names with
  | some _ => t
  | none => put empty names t

/-- A step of a path. -/
inductive Step where
  /-- Go to an entry. -/
  | enter (name : String)
  /-- Go to the directory above. -/
  | leave
  /-- Stay, which only a directory allows. -/
  | stay
deriving DecidableEq, Repr

/-- The steps of a path. -/
def steps (path : String) : List Step :=
  (Path.segments path).map fun s =>
    if s = [] ∨ s = ['.'] then .stay
    else if s = ['.', '.'] then .leave
    else .enter (String.ofList s)

/-- The greatest number of links on one way. -/
def maxLinks : Nat := 40

/-- The greatest number of bytes of a name. -/
def maxName : Nat := 255

/-- Take steps from a place, given by its names in reverse. A link is followed if there are steps
behind it, or at the end if `last` says so. -/
def walk (root : FileTree) (last : Bool) (links : Nat) (here : List String) (todo : List Step) :
    Except OsError (List String) :=
  match todo with
  | [] => .ok here
  | step :: rest =>
    match root.at? here.reverse with
    | some (.dir es) =>
      match step with
      | .stay => walk root last links here rest
      | .leave => walk root last links here.tail rest
      | .enter name =>
        match es.lookup name with
        | none => .error (if maxName < name.utf8ByteSize then .nameTooLong else .notFound)
        | some (.link target) =>
          if rest = [] ∧ last = false then .ok (name :: here)
          else
            match links with
            | 0 => .error .tooManyLinks
            | links + 1 =>
              walk root last links (if Path.isAbsolute target then [] else here)
                (steps target ++ rest)
        | some _ => walk root last links (name :: here) rest
    | some (.locked _) => .error .permissionDenied
    | some _ => .error .notDirectory
    | none => .error .notFound
termination_by (links, todo.length)

/-- **Where a path leads**, from the directory `cwd`: names from the root of the tree. -/
def follow (root : FileTree) (cwd : List String) (last : Bool) (path : String) :
    Except OsError (List String) :=
  if path = "" then .error .notFound
  else if '\x00' ∈ path.toList then .error .invalidPath
  else
    let start := if Path.isAbsolute path then [] else cwd.reverse
    (walk root last maxLinks start (steps path)).map List.reverse

/-- The text of a place. -/
def placeText (names : List String) : String := "/" ++ Text.join "/" names

/-- The canonical text of a path. -/
def canonical (root : FileTree) (cwd : List String) (path : String) : Except OsError String :=
  (follow root cwd true path).map placeText

/-- The tree that a path leads to. -/
def find (root : FileTree) (cwd : List String) (last : Bool) (path : String) :
    Except OsError FileTree := do
  match root.at? (← follow root cwd last path) with
  | some t => .ok t
  | none => .error .notFound

/-- The content of the file that a path leads to. -/
def read (root : FileTree) (cwd : List String) (path : String) : Except OsError (List UInt8) := do
  match ← find root cwd true path with
  | .file content => .ok content
  | _ => .error .isDirectory

end FileTree

end SymbolContext
