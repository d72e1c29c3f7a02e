import SymbolContext.OpenFiles
import SymbolContext.Rpc.Connection
import SymbolContext.Symbol.Outline

/-!
# The client of a language server

The calls of the protocol that the program makes. Nothing but the handshake is sent before the
handshake has succeeded, nor after the session has been shut down.
-/

namespace SymbolContext.Server

/-- Who the program says it is. -/
def clientName : String := "lsp-context-bridge"

/-- The version of the program. -/
def clientVersion : String := "0.1.0"

/-- What the server tells of itself. -/
structure Info where
  name : String
  version : Option String
deriving DecidableEq, Repr

namespace Info

/-- The fields of what the server tells of itself. -/
structure Draft where
  name : Option String := none
  version : Option String := none

/-- What the server tells of itself, in a payload. -/
def record : Record Draft Info where
  name := "ServerInfo"
  fields := ["name", "version"]
  empty := {}
  visit := fun field v d =>
    match field with
    | "name" => do return { d with name := some (← Decoder.text v) }
    | _ => do return { d with version := ← Decoder.optional Decoder.text v }
  finish := fun d => do
    let name ← Decoder.require "name" d.name
    return ⟨name, d.version⟩

end Info

/-- **How the capabilities of a server are read.** They are defined by the protocol, and the program
makes no use of them; but a handshake whose answer they spoil has failed. -/
class Capabilities where
  /-- Read them, or say why they cannot be read. -/
  decode : Decoder Unit

/-- The number of capabilities that a server can name. -/
def Capabilities.count : Nat := 33

/-- A reading for servers whose capabilities are well-formed: none of them is looked at. -/
def Capabilities.unread : Decoder Unit
  | .obj _ => .ok ()
  | .arr vs => .error (.tooShort vs.length "ServerCapabilities" count)
  | v => Decoder.mismatch "struct ServerCapabilities" v

/-- The answer to the handshake. -/
structure Welcome where
  info : Option Info
deriving DecidableEq, Repr

namespace Welcome

/-- The fields of the answer. -/
structure Draft where
  capabilities : Option Unit := none
  info : Option Info := none

/-- The answer to the handshake, in a payload. -/
def record [Capabilities] : Record Draft Welcome where
  name := "InitializeResult"
  fields := ["capabilities", "serverInfo"]
  empty := {}
  visit := fun field v d =>
    match field with
    | "capabilities" => do return { d with capabilities := some (← Capabilities.decode v) }
    | _ => do return { d with info := ← Decoder.optional Info.record.decode v }
  finish := fun d => do
    let _ ← Decoder.require "capabilities" d.capabilities
    return ⟨d.info⟩

end Welcome

/-- The name of a workspace: the last part of its path. -/
def workspaceName (root : Uri) : String := (Path.fileName? root.filePath).getD "workspace"

/-- What the program can do, as it tells the server. -/
def ownCapabilities : Json :=
  let static : String × Json := ("dynamicRegistration", .bool false)
  .mkObj [
    ("workspace", .mkObj [("workspaceFolders", .bool true), ("symbol", .mkObj [static])]),
    ("textDocument", .mkObj [
      ("references", .mkObj [static]),
      ("documentSymbol",
        .mkObj [static, ("hierarchicalDocumentSymbolSupport", .bool true)])])]

/-- The parameters of the handshake. -/
def handshake (processId : Nat) (root : Uri) : Json :=
  .mkObj [
    ("processId", .nat processId),
    ("rootUri", .str root.text),
    ("capabilities", ownCapabilities),
    ("workspaceFolders", .arr [
      .mkObj [("uri", .str root.text), ("name", .str (workspaceName root))]]),
    ("clientInfo", .mkObj [("name", .str clientName), ("version", .str clientVersion)])]

/-- A file as a parameter. -/
def fileParam (uri : Uri) : String × Json := ("textDocument", .mkObj [("uri", .str uri.text)])

/-- The parameters of a search for references. -/
def referenceParams (uri : Uri) (p : Position) (declaration : Bool) : Json :=
  .mkObj [fileParam uri, ("position", p.toJson),
    ("context", .mkObj [("includeDeclaration", .bool declaration)])]

/-- The method of a notice on a file. -/
def noticeMethod : FileNotice → String
  | .opened .. => "textDocument/didOpen"
  | .changed .. => "textDocument/didChange"

/-- The parameters of a notice on a file. -/
def noticeParams : FileNotice → Json
  | .opened uri language version text =>
    .mkObj [("textDocument", .mkObj [("uri", .str uri.text), ("languageId", .str language),
      ("version", .int version), ("text", .str text)])]
  | .changed uri version text =>
    .mkObj [("textDocument", .mkObj [("uri", .str uri.text), ("version", .int version)]),
      ("contentChanges", .arr [.mkObj [("text", .str text)]])]

/-- **The state of the client**: whether the handshake has been made. -/
structure Client where
  initialized : Bool := false
deriving DecidableEq, Repr

namespace Client

variable {m : Type → Type} [Monad m]

/-- Calls change the state of the client. -/
abbrev Call (m : Type → Type) := StateT Client m

/-- Ask the server and decode its answer. -/
def ask {α : Type} (channel : Rpc.Channel m) (limit : Duration) (method : String)
    (params : Option Json) (decode : Decoder α) : Call m (Except ClientFailure α) := do
  let outcome ← channel.request method params limit
  return (Rpc.typedOutcome decode outcome).mapError .rpc

/-- Tell the server. -/
def tell (channel : Rpc.Channel m) (method : String) (params : Option Json) :
    Call m (Except ClientFailure Unit) := do
  match ← channel.notify method params with
  | .error e => return .error (.rpc e)
  | .ok _ => return .ok ()

/-- Do something only after the handshake. -/
def afterHandshake {α : Type} (call : Call m (Except ClientFailure α)) :
    Call m (Except ClientFailure α) := do
  if (← get).initialized then call else return .error .notInitialized

/-- **The handshake.** -/
def connect [Capabilities] (channel : Rpc.Channel m) (processId : Nat) (root : Uri)
    (limit : Duration) : Call m (Except ClientFailure Welcome) := do
  if (← get).initialized then return .error (.protocol "Client already initialized")
  else
    match ← ask channel limit "initialize" (some (handshake processId root))
        Welcome.record.decode with
    | .error e => return .error e
    | .ok welcome =>
      match ← tell channel "initialized" (some (.obj [])) with
      | .error e => return .error e
      | .ok _ =>
        set (Client.mk true)
        return .ok welcome

/-- **End the session.** Without a handshake there is none. -/
def shutdown (channel : Rpc.Channel m) (limit : Duration) : Call m (Except ClientFailure Unit) := do
  if (← get).initialized then
    match ← ask channel limit "shutdown" none Decoder.any with
    | .error e => return .error e
    | .ok _ =>
      match ← tell channel "exit" none with
      | .error e => return .error e
      | .ok _ =>
        set (Client.mk false)
        return .ok ()
  else return .ok ()

/-- Search symbols by name. -/
def searchSymbols (channel : Rpc.Channel m) (limit : Duration) (query : String) :
    Call m (Except ClientFailure Json) :=
  afterHandshake
    (ask channel limit "workspace/symbol" (some (.mkObj [("query", .str query)])) Decoder.any)

/-- Search references to the symbol at a position. -/
def references (channel : Rpc.Channel m) (limit : Duration) (uri : Uri) (p : Position)
    (declaration : Bool) : Call m (Except ClientFailure (List Place)) :=
  afterHandshake do
    let found ← ask channel limit "textDocument/references"
      (some (referenceParams uri p declaration))
      (Decoder.optional (Decoder.list Place.record.decode))
    return found.map fun places => places.getD []

/-- Ask for the outline of a file. -/
def outline (channel : Rpc.Channel m) (limit : Duration) (uri : Uri) :
    Call m (Except ClientFailure (Option Outline)) :=
  afterHandshake
    (ask channel limit "textDocument/documentSymbol" (some (.mkObj [fileParam uri]))
      (Decoder.optional Outline.ofJson))

/-- Tell the server of a file. -/
def notice (channel : Rpc.Channel m) (n : FileNotice) : Call m (Except ClientFailure Unit) :=
  afterHandshake (tell channel (noticeMethod n) (some (noticeParams n)))

end Client

end SymbolContext.Server
