import SymbolContext.Server.Session
import SymbolContext.Settings

/-!
# The process of a language server

A server runs as a process of its own. Starting it ends with the handshake; whatever happens
after that, the process is stopped once.

* `Server.start` starts a server, and stops it by force if the handshake fails.
* `Server.Running.shutdown` ends the session and waits for the process to exit.
-/

namespace SymbolContext.Server

/-- How a process is stopped. -/
inductive Stop where
  /-- Wait for it to exit, and kill it if it does not do so in time. -/
  | graceful (grace : Duration)
  /-- Kill it. -/
  | force
deriving DecidableEq, Repr

/-- What a process is started with. -/
structure Launch where
  command : String
  args : List String
  /-- Its working directory. -/
  directory : Option String
deriving DecidableEq, Repr

/-- **A process that has been started.** -/
structure Process (m : Type → Type) where
  /-- Take its streams, which can be done once. -/
  takeStreams : m (Except ProcessFailure (Rpc.Channel m))
  /-- Stop it, which can be done once. -/
  stop : Stop → m (Except ProcessFailure Unit)

/-- How long a server may take to exit. -/
def exitGrace : Duration := .ofSeconds 2

/-- **What running a server needs of its surroundings.** -/
structure Host (m : Type → Type) where
  processId : Nat
  /-- Start a process. -/
  spawn : Launch → m (Except ProcessFailure (Process m))
  /-- The text of a file, or why it cannot be read. -/
  readText : String → m (Except String String)
  /-- Say something to the log. -/
  log : LogLine → m Unit

/-- A server with its session. -/
structure Running (m : Type → Type) where
  process : Process m
  means : Session.Means m
  session : Session

variable {m : Type → Type} [Monad m]

/-- The handshake with a server. -/
def greet [Capabilities] (host : Host m) (s : ServerSettings) (means : Session.Means m) :
    m (Except BackendFailure Unit × Session) :=
  match Uri.ofPath s.root with
  | .error e => return (.error (.uri (Uri.fileText s.root) e.message), {})
  | .ok uri => do
    let (welcome, session) ←
      (Session.onClient (Client.connect means.channel host.processId uri s.handshakeLimit)).run {}
    return (welcome.map fun _ => (), session)

/-- **Start a server.** -/
def start [Capabilities] (host : Host m) (s : ServerSettings) :
    m (Except BackendFailure (Running m)) := do
  match ← host.spawn ⟨s.command, s.args, some s.root⟩ with
  | .error e => return .error (.process e)
  | .ok process =>
    match ← process.takeStreams with
    | .error e => return .error (.process e)
    | .ok channel =>
      let means : Session.Means m := ⟨channel, s.requestLimit, host.readText⟩
      match ← greet host s means with
      | (.ok _, session) => return .ok ⟨process, means, session⟩
      | (.error e, _) =>
        host.log (.warn ("Language server failed to initialize: " ++ e.message))
        let _ ← process.stop .force
        return .error e

/-- **End the session, then the process.** -/
def Running.shutdown (host : Host m) (r : Running m) : m (Except BackendFailure Unit) := do
  let _ ← (Session.farewell r.means host.log).run r.session
  return (← r.process.stop (.graceful exitGrace)).mapError .process

end SymbolContext.Server
