import SymbolContext.FileTree.Sources
import SymbolContext.Query.Backend

/-!
# Warming a server up

Some servers answer their first queries slowly, while they load their index. Two queries and a
few opened files bring that cost forward. Whatever fails is only remarked on.

* `WarmUp.warmUp` warms a server up, if it is of the kind that profits.
-/

namespace SymbolContext.WarmUp

variable {m : Type → Type} [Monad m]

/-- What warming up needs besides the source of symbols. -/
structure Means (m : Type → Type) extends Backend m where
  /-- The tree at a path, or why it cannot be read. -/
  treeAt : String → m (Except String FileTree)
  /-- Let time pass. -/
  pause : Duration → m Unit
  /-- Make a remark. -/
  note : Diagnostic → m Unit

/-- A remark on warming up. -/
def remark (level : Level) (text : String) : Diagnostic := ⟨level, "warmup", text⟩

/-- Ask one query for its effect on the server. -/
def ask (env : Means m) (query : String) : m Unit := do
  match ← env.symbol query with
  | .ok _ => env.note (remark .debug ("Warm-up query " ++ Text.quoted query ++ " completed"))
  | .error e =>
    env.note (remark .warn ("Warm-up query " ++ Text.quoted query ++ " failed: " ++ e.message))

/-- Bring the index in: the first query loads it, the second touches every symbol in it. -/
def loadIndex (s : WarmUpSettings) (env : Means m) : m Unit := do
  env.note (remark .info "Warming up static index")
  ask env "::"
  env.pause s.queryPause
  ask env ""

/-- Make remarks. -/
def noteAll (env : Means m) : List Diagnostic → m Unit
  | [] => pure ()
  | d :: rest => do
    env.note d
    noteAll env rest

/-- The source files of a tree, with remarks on what cannot be read. -/
def collect (s : WarmUpSettings) (root : String) (tree : Except String FileTree) :
    List String × List Diagnostic :=
  let visits :=
    match tree with
    | .ok t => FileTree.visits s root t
    | .error reason => [.unreadable root reason]
  (FileTree.sources visits, (FileTree.complaints visits).map (remark .warn))

/-- Open files in order until `wanted` of them are open, and count those that are. -/
def openFirst (s : WarmUpSettings) (env : Means m) (wanted : Nat) : List String → m Nat
  | [] => return 0
  | path :: rest =>
    match wanted with
    | 0 => return 0
    | more + 1 => do
      match ← env.openFile path with
      | .error e =>
        env.note (remark .warn ("Failed to open " ++ path ++ ": " ++ e.message))
        openFirst s env (more + 1) rest
      | .ok _ =>
        env.note (remark .debug ("Opened " ++ path))
        env.pause s.openPause
        return (← openFirst s env more rest) + 1

/-- Open some source files of the workspace. -/
def openSources (s : WarmUpSettings) (env : Means m) (root : String) : m Unit := do
  let (paths, remarks) := collect s root (← env.treeAt root)
  noteAll env remarks
  env.note (remark .debug (Decimal.text paths.length ++ " source files found under " ++ root))
  let opened ← openFirst s env s.maxFiles paths
  env.note (remark .info ("Opened " ++ Decimal.text opened ++ " source files"))

/-- Whether a server profits from warming up, by its name. -/
def profits (serverName : String) : Bool := "clangd".toList.isPrefixOf serverName.toList

/-- **Warm a server up.** -/
def warmUp (serverName : String) (s : WarmUpSettings) (env : Means m) (root : String) : m Unit :=
  if profits serverName then do
    loadIndex s env
    openSources s env root
  else pure ()

end SymbolContext.WarmUp
