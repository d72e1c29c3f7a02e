import SymbolContext.Program
import SymbolContext.Rehearsal.Link

/-!
# A world in memory

Everything the program needs of its surroundings, in memory: a file tree, an environment, and a
scripted server that some of the executables of the tree stand for.
-/

namespace SymbolContext.Rehearsal

/-- **A world in memory.** -/
structure Scene where
  /-- All files. -/
  tree : FileTree
  /-- The working directory, by names from the root. -/
  directory : List String
  environment : List (String × String) := []
  /-- The executables that stand for the scripted server, by names from the root. -/
  servers : List (List String) := []
  script : Script := { defaults := true }
  /-- The server that runs, and what it was started with. -/
  server : Option (Server.Launch × Link) := none
  /-- Whether the streams of the server have been taken. -/
  taken : Bool := false
  /-- Whether the server has been stopped. -/
  stopped : Bool := false
  log : List LogLine := []
  /-- Which lines of the log are kept, and where. -/
  logSettings : LogSettings := {}
  logFile : Option (List String) := none

namespace Scene

/-- The number of the process of the program. -/
def processId : Nat := 4242

/-- Where programs are looked for by name, if the environment does not say. -/
def defaultSearch : String := "/usr/local/sbin:/usr/local/bin:/usr/sbin:/usr/bin:/sbin:/bin"

/-- Say something to the log. -/
def say (line : LogLine) : StateM Scene Unit :=
  modify fun s => { s with log := s.log ++ [line] }

/-- Something that happens on the link to the server. Lines of both logs are kept in one. -/
def onLink {α : Type} (otherwise : α) (f : Link → α × Link) : StateM Scene α := fun s =>
  match s.server with
  | none => (otherwise, s)
  | some (launch, link) =>
    let (a, link) := f { link with log := s.log }
    (a, { s with server := some (launch, link), log := link.log })

/-- Carry everything over that is under way. -/
def settle : StateM Scene Unit := onLink () fun l => ((), l.settle)

/-- Whether an executable can be started, at a place. -/
def executable (s : Scene) (names : List String) : Except OsError Unit :=
  if names ∈ s.servers then .ok () else .error .permissionDenied

/-- The executable that a command names, seen from a directory. -/
def locate (s : Scene) (directory : List String) (command : String) :
    Except OsError (List String) := do
  let names ← s.tree.follow directory true command
  s.executable names
  return names

/-- Look for a command in some directories. Directories without it are passed over; so is a file
that cannot be started, which is reported only if none can. -/
def search (s : Scene) (directory : List String) (command : String) (failure : OsError) :
    List String → Except OsError (List String)
  | [] => .error failure
  | d :: rest =>
    match s.locate directory (Path.child d command) with
    | .ok names => .ok names
    | .error .permissionDenied => s.search directory command .permissionDenied rest
    | .error .notFound => s.search directory command failure rest
    | .error .notDirectory => s.search directory command failure rest
    | .error e => .error e

/-- The executable that is started by a command. -/
def commandPlace (s : Scene) (directory : List String) (command : String) :
    Except OsError (List String) :=
  if command = "" then .error .notFound
  else if '/' ∈ command.toList then s.locate directory command
  else
    let dirs := (s.environment.lookup "PATH").getD defaultSearch
    s.search directory command .notFound
      ((Text.splitAtChar ':' dirs.toList).map String.ofList)

/-- The working directory of a new process. -/
def newDirectory (s : Scene) (directory : Option String) : Except OsError (List String) :=
  match directory with
  | none => .ok s.directory
  | some d => do
    let names ← s.tree.follow s.directory true d
    match s.tree.at? names with
    | some (.dir _) => .ok names
    | _ => .error .notDirectory

/-- The channel to the server. -/
def channel : Rpc.Channel (StateM Scene) where
  request := fun method params limit =>
    onLink (.error .closed) fun l => l.request method params limit
  notify := fun method params => onLink (.error .closed) fun l => l.notify method params

/-- Whether the server has exited by itself. -/
def hasExited (s : Scene) : Bool :=
  match s.server with
  | some (_, link) => !link.peer.inputOpen
  | none => true

/-- What the log says of a process that does not exit in time. -/
def killText (command : String) (grace : Duration) : String :=
  "Process " ++ command ++ " did not exit within " ++ grace.text ++ ", killing"

/-- Stop the server. -/
def stop (command : String) (mode : Server.Stop) :
    StateM Scene (Except ProcessFailure Unit) := do
  if (← get).stopped then return .error .notStarted
  else
    settle
    modify fun s => { s with stopped := true }
    match mode with
    | .force => return .ok ()
    | .graceful grace =>
      if (← get).hasExited then return .ok ()
      else
        say (.warn (killText command grace))
        return .ok ()

/-- The process of the server. -/
def process (command : String) : Server.Process (StateM Scene) where
  takeStreams := do
    if (← get).taken then return .error .stdoutNotAvailable
    else
      modify fun s => { s with taken := true }
      return .ok channel
  stop := stop command

/-- Start the server. -/
def spawn (launch : Server.Launch) :
    StateM Scene (Except ProcessFailure (Server.Process (StateM Scene))) := do
  let s ← get
  let place : Except OsError (List String) := do
    let directory ← s.newDirectory launch.directory
    let _ ← s.commandPlace directory launch.command
    return directory
  match place with
  | .error e => return .error (.spawn launch.command e.message)
  | .ok directory =>
    let link : Link :=
      { peer := .ofScript s.script true, brokenPipe := "Broken pipe (os error 32)" }
    let started := { launch with directory := some (FileTree.placeText directory) }
    set { s with server := some (started, link) }
    return .ok (process launch.command)

/-- The text of a file. -/
def readText (path : String) : StateM Scene (Except String String) := do
  let s ← get
  return ((s.tree.read s.directory path).map Utf8.decodeLossy).mapError OsError.message

/-- The tree at a path. A link at its top is followed to a directory, and left where it leads to
anything else. -/
def treeAt (path : String) : StateM Scene (Except String FileTree) := do
  let s ← get
  let found : Except OsError FileTree := do
    match ← s.tree.find s.directory false path with
    | .link target =>
      let t ← s.tree.find s.directory true path
      return if t.isDir then t else .link target
    | t => return t
  return found.mapError OsError.message

/-- The place of a file that is opened for writing, and made if it is not there. -/
def writePlace (s : Scene) (path : String) : Except OsError (List String) :=
  match s.tree.follow s.directory true path with
  | .ok names =>
    match s.tree.at? names with
    | some (.file _) => .ok names
    | _ => .error .isDirectory
  | .error .notFound =>
    match Path.fileName? path with
    | none => .error .notFound
    | some name =>
      let parent := Path.parent path
      match s.tree.follow s.directory true (if parent = "" then "." else parent) with
      | .error e => .error e
      | .ok names =>
        match s.tree.at? names with
        | some (.dir _) =>
          if path.toList.getLast? = some '/' then .error .isDirectory else .ok (names ++ [name])
        | _ => .error .notDirectory
  | .error e => .error e

/-- What is in a file already. -/
def contentAt (s : Scene) (names : List String) : List UInt8 :=
  match s.tree.at? names with
  | some (.file content) => content
  | _ => []

/-- Open the log: its file is made if it is not there. -/
def openLog (settings : LogSettings) : StateM Scene (Except String Unit) := do
  let s ← get
  match settings.file with
  | none =>
    set { s with logSettings := settings }
    return .ok ()
  | some path =>
    match s.writePlace path with
    | .error e => return .error e.message
    | .ok names =>
      let tree := FileTree.put (.file (s.contentAt names)) names s.tree
      set { s with tree, logSettings := settings, logFile := some names }
      return .ok ()

/-- The lines of the log that are kept. -/
def keptLog (s : Scene) : List LogLine :=
  s.log.filter fun line => (LogFilter.ofText s.logSettings.level).keeps line.level

/-- The scene as the surroundings of the program. -/
def world (environment : Environment) : Program.World (StateM Scene) where
  processId := processId
  spawn := spawn
  readText := readText
  log := say
  environment := environment
  currentDirectory := return .ok (FileTree.placeText (← get).directory)
  canonical := fun path => do
    let s ← get
    return (s.tree.canonical s.directory path).mapError OsError.message
  treeAt := treeAt
  pause := fun _ => settle
  openLog := openLog

/-- What the program does in a scene. -/
def play {α : Type} (s : Scene) (f : Program.World (StateM Scene) → StateM Scene α) : α × Scene :=
  f (world fun key => s.environment.lookup key) s

end Scene

end SymbolContext.Rehearsal
