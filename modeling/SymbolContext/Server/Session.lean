import SymbolContext.Query.Backend
import SymbolContext.Server.Client

/-!
# A session with a language server as a source of symbols

The session keeps the state of the client and the files that are open in the server.
-/

namespace SymbolContext.Server

/-- The client and the open files. Contents are told apart by themselves. -/
structure Session where
  client : Client := {}
  files : OpenFiles String := {}
deriving DecidableEq, Repr

namespace Session

variable {m : Type → Type} [Monad m]

/-- Calls change the session. -/
abbrev Call (m : Type → Type) := StateT Session m

/-- A call of the client within the session. -/
def onClient {α : Type} (call : Client.Call m (Except ClientFailure α)) :
    Call m (Except BackendFailure α) := fun s => do
  let (r, c) ← call s.client
  return (r.mapError .client, { s with client := c })

/-- What a session needs: a channel, the time a request may take, and the texts of files. -/
structure Means (m : Type → Type) where
  channel : Rpc.Channel m
  limit : Duration
  readText : String → m (Except String String)

/-- The text of a file. -/
def source (means : Means m) (path : String) : Call m (Except BackendFailure String) := do
  let r ← (means.readText path : StateT Session m (Except String String))
  return r.mapError fun reason => .fileRead path reason

/-- The URI of the file of a location. -/
def uriOf (l : Location) : Except BackendFailure Uri :=
  match Uri.ofPath l.path with
  | .ok uri => .ok uri
  | .error e => .error (.uri l.uriText e.message)

/-- Search symbols by name. -/
def symbol (means : Means m) (query : String) : Call m (Except BackendFailure Json) :=
  onClient (Client.searchSymbols means.channel means.limit query)

/-- Read a file and make it known to the server. -/
def openFile (means : Means m) (path : String) : Call m (Except BackendFailure Unit) := do
  match ← source means path with
  | .error e => return .error e
  | .ok text =>
    let s ← get
    let send (n : FileNotice) : StateT Client m (Except ClientFailure Unit) :=
      Client.notice means.channel n
    let ((outcome, files), client) ←
      ((s.files.sync id send path text).run s.client :
        m ((Except BackendFailure SyncResult × OpenFiles String) × Client))
    set (Session.mk client files)
    return outcome.map fun _ => ()

/-- Search references. -/
def references (means : Means m) (l : Location) (declaration : Bool) :
    Call m (Except BackendFailure (List Location)) := do
  match uriOf l with
  | .error e => return .error e
  | .ok uri =>
    let found ← onClient
      (Client.references means.channel means.limit uri l.range.start declaration)
    return found.map fun places => places.map Place.toLocation

/-- Find the whole definition at a location. -/
def definition (means : Means m) (l : Location) :
    Call m (Except BackendFailure Definition.Result) := do
  match uriOf l with
  | .error e => return .error e
  | .ok uri =>
    match ← onClient (Client.outline means.channel means.limit uri) with
    | .error e => return .error e
    | .ok outline =>
      match ← source means l.path with
      | .error e => return .error e
      | .ok text => return Definition.expand l.path text outline l

/-- **End the session.** A server that does not answer is only remarked on. -/
def farewell (means : Means m) (log : LogLine → m Unit) : Call m Unit := do
  match ← onClient (Client.shutdown means.channel means.limit) with
  | .error (.client e) => log (.warn ("Language server shutdown request failed: " ++ e.message))
  | _ => pure ()

/-- The session as a source of symbols. -/
def backend (means : Means m) : Backend (StateT Session m) where
  symbol := symbol means
  openFile := openFile means
  references := references means
  definition := definition means

end Session

end SymbolContext.Server
