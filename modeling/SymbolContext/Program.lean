import SymbolContext.CommandLine
import SymbolContext.LogSettings
import SymbolContext.Query.Definitions
import SymbolContext.Query.References
import SymbolContext.Server.Process
import SymbolContext.WarmUp

/-!
# The program

One run of the program: start the server, warm it up, ask it what the command line asks for,
and stop it. What it needs of its surroundings is a `World`, in some monad.

* `Program.run` carries out a command line that has been understood.
* `Program.execute` is the whole program, from the words of the command line to the exit code.
-/

namespace SymbolContext.Program

/-- **What the program needs of its surroundings.** -/
structure World (m : Type → Type) extends Server.Host m where
  environment : Environment
  /-- The working directory. -/
  currentDirectory : m (Except String String)
  /-- The canonical form of a path. -/
  canonical : String → m (Except String String)
  /-- The tree at a path. -/
  treeAt : String → m (Except String FileTree)
  /-- Let time pass. -/
  pause : Duration → m Unit
  /-- Open the log. -/
  openLog : LogSettings → m (Except String Unit)

/-- Why a run fails. -/
inductive RunFailure where
  /-- There is no working directory. -/
  | noDirectory (reason : String)
  /-- The workspace cannot be found. -/
  | badRoot (root reason : String)
  /-- The server cannot be started. -/
  | start (e : BackendFailure)
  /-- The query fails. -/
  | query (e : QueryFailure)
deriving DecidableEq, Repr

/-- The wording of a failed run. -/
def RunFailure.message : RunFailure → String
  | noDirectory reason => reason
  | badRoot root reason => "Invalid workspace root " ++ root ++ ": " ++ reason
  | start e => e.message
  | query e => e.message

variable {m : Type → Type} [Monad m]

/-- The workspace, in canonical form. -/
def workspace (w : World m) (given : Option String) : m (Except RunFailure String) := do
  let root ← match given with
    | some root => pure (.ok root)
    | none => w.currentDirectory
  match root with
  | .error reason => return .error (.noDirectory reason)
  | .ok root => return (← w.canonical root).mapError (.badRoot root)

/-- Lines for the log. -/
def logAll (w : World m) : List LogLine → m Unit
  | [] => pure ()
  | line :: rest => do
    w.log line
    logAll w rest

/-- The settings for a run. -/
def settings (w : World m) (args : CommandLine.Arguments) (root : String) : m Settings := do
  let (s, lines) := Settings.ofEnvironment root w.environment
  logAll w lines
  return ((s.withCommand args.serverPath).withArgs args.serverArgs).withContext
    args.command.contextLines

/-- The surroundings of a query in a session. -/
def surroundings (w : World m) (means : Server.Session.Means m) :
    Surroundings (StateT Server.Session m) where
  toBackend := Server.Session.backend means
  readText := fun path => w.readText path
  note := fun d => w.log d.logLine

/-- What warming up needs in a session. -/
def warmUpMeans (w : World m) (means : Server.Session.Means m) :
    WarmUp.Means (StateT Server.Session m) where
  toBackend := Server.Session.backend means
  treeAt := fun path => w.treeAt path
  pause := fun d => w.pause d
  note := fun d => w.log d.logLine

/-- Ask what the command line asks for. -/
def answer {n : Type → Type} [Monad n] (env : Surroundings n) (command : CommandLine.Command)
    (contextLines : Nat) : n (Except QueryFailure String) :=
  match command with
  | .definition symbol => Query.definitions env symbol
  | .references symbol _ => Query.references env symbol contextLines

/-- Everything that happens between the handshake and the end of the session. -/
def serve (w : World m) (args : CommandLine.Arguments) (s : Settings)
    (means : Server.Session.Means m) : StateT Server.Session m (Except QueryFailure String) := do
  if args.noWarmUp then pure ()
  else WarmUp.warmUp s.server.name s.warmUp (warmUpMeans w means) s.server.root
  answer (surroundings w means) args.command s.contextLines

/-- Run with a server that has been started, and stop it. -/
def finish (w : World m) (args : CommandLine.Arguments) (s : Settings)
    (running : Server.Running m) : m (Except QueryFailure String) := do
  let (result, session) ← (serve w args s running.means).run running.session
  match ← Server.Running.shutdown w.toHost { running with session } with
  | .error e => w.log (.warn ("Language server did not shut down cleanly: " ++ e.message))
  | .ok _ => pure ()
  return result

/-- **Carry out a command line.** -/
def run [Server.Capabilities] (w : World m) (args : CommandLine.Arguments) :
    m (Except RunFailure String) := do
  match ← workspace w args.root with
  | .error e => return .error e
  | .ok root =>
    let s ← settings w args root
    match ← Server.start w.toHost s.server with
    | .error e => return .error (.start e)
    | .ok running => return (← finish w args s running).mapError .query

/-- What a run leaves behind. -/
structure Report where
  exitCode : Nat
  stdout : String := ""
  stderr : String := ""
deriving DecidableEq, Repr

/-- The report on a command line that is not carried out. -/
def refused : CommandLine.Refusal → Report
  | .help => ⟨0, CommandLine.usage, ""⟩
  | .version => ⟨0, Server.clientName ++ " " ++ Server.clientVersion ++ "\n", ""⟩
  | r => ⟨r.exitCode, "", CommandLine.usage⟩

/-- **The program.** -/
def execute [Server.Capabilities] (w : World m) (words : List String) : m Report := do
  match CommandLine.parse words with
  | .error r => return refused r
  | .ok args =>
    let log := (LogSettings.ofEnvironment w.environment w.processId).override
      args.logLevel args.logFile
    match ← w.openLog log with
    | .error reason => return ⟨1, "", "Failed to initialize logging: " ++ reason ++ "\n"⟩
    | .ok _ =>
      match ← run w args with
      | .ok text => return ⟨0, text ++ "\n", ""⟩
      | .error e =>
        w.log (.error e.message)
        return ⟨1, "", "Error: " ++ e.message ++ "\n"⟩

end SymbolContext.Program
