import SymbolContext.Duration

/-!
# Errors

What can go wrong, by cause, from the connection up to the queries. Each type has one function
`message` that words it.
-/

namespace SymbolContext

/-- Failures of a request or a notification. -/
inductive RpcFailure where
  /-- The server answered with an error. -/
  | server (code : Int) (text : String)
  /-- The message could not be handed over. -/
  | transport (reason : String)
  /-- The message could not be written. -/
  | unwritable (reason : String)
  /-- The answer could not be decoded. -/
  | undecodable (reason : String)
  /-- There was no answer in time. -/
  | timedOut (method : String) (limit : Duration)
  /-- The connection ended before an answer arrived. -/
  | closed
deriving DecidableEq, Repr

/-- The wording of a failed exchange. -/
def RpcFailure.message : RpcFailure → String
  | server code text => "JSON-RPC server error (" ++ Decimal.intText code ++ "): " ++ text
  | transport reason => "Transport error: " ++ reason
  | unwritable reason => "Serialization error: " ++ reason
  | undecodable reason => "Deserialization error: " ++ reason
  | timedOut method limit => "Request '" ++ method ++ "' timed out after " ++ limit.text
  | closed => "Connection closed before a response arrived"

/-- Failures of a call to the language server. -/
inductive ClientFailure where
  /-- The exchange failed. -/
  | rpc (e : RpcFailure)
  /-- The handshake has not been made. -/
  | notInitialized
  /-- The call does not fit the state of the session. -/
  | protocol (text : String)
deriving DecidableEq, Repr

/-- The wording of a failed call. -/
def ClientFailure.message : ClientFailure → String
  | rpc e => "JSON-RPC error: " ++ e.message
  | notInitialized => "LSP client not initialized"
  | protocol text => "LSP protocol error: " ++ text

/-- Failures of the server's process. -/
inductive ProcessFailure where
  | spawn (command reason : String)
  | io (reason : String)
  | notStarted
  | stdinNotAvailable
  | stdoutNotAvailable
deriving DecidableEq, Repr

/-- The wording of a failure of the process. -/
def ProcessFailure.message : ProcessFailure → String
  | spawn command reason => "Failed to spawn '" ++ command ++ "': " ++ reason
  | io reason => "I/O error: " ++ reason
  | notStarted => "Process not started"
  | stdinNotAvailable => "Stdin not available"
  | stdoutNotAvailable => "Stdout not available"

/-- Failures of the source of symbols. -/
inductive BackendFailure where
  | client (e : ClientFailure)
  | process (e : ProcessFailure)
  /-- A path that has no URI. -/
  | uri (text reason : String)
  | fileRead (path reason : String)
  /-- A definition that ends behind the last line of its file. -/
  | lineOutOfRange (path : String) (line total : Nat)
deriving DecidableEq, Repr

/-- The wording of a failure of the source of symbols. -/
def BackendFailure.message : BackendFailure → String
  | client e => "LSP error: " ++ e.message
  | process e => "Process error: " ++ e.message
  | uri text reason => "Invalid file URI '" ++ text ++ "': " ++ reason
  | fileRead path reason => "Failed to read " ++ path ++ ": " ++ reason
  | lineOutOfRange path line total =>
    "Line " ++ Decimal.text line ++ " is out of range for " ++ path ++ " (" ++
      Decimal.text total ++ " lines)"

/-- The searches on which a whole query depends. -/
inductive Search where
  | symbol
  | references
deriving DecidableEq, Repr

/-- What a search was to do. -/
def Search.text : Search → String
  | symbol => "fetch symbol"
  | references => "get references"

/-- Failures of a query, or of a part of it. -/
inductive QueryFailure where
  /-- A search failed. -/
  | search (what : Search) (e : BackendFailure)
  /-- A search result could not be decoded. -/
  | results (reason : String)
  /-- The file of a match could not be opened. -/
  | openFile (path : String) (e : BackendFailure)
  /-- The definition at a match could not be found. -/
  | definition (name : String) (e : BackendFailure)
  /-- A file with references could not be read. -/
  | fileRead (path reason : String)
deriving DecidableEq, Repr

/-- The wording of a failed query. -/
def QueryFailure.message : QueryFailure → String
  | search what e => "failed to " ++ what.text ++ ": " ++ e.message
  | results reason => "failed to parse symbol results: " ++ reason
  | openFile path e => "failed to open " ++ path ++ ": " ++ e.message
  | definition name e => "failed to get full definition of " ++ name ++ ": " ++ e.message
  | fileRead path reason => "failed to read " ++ path ++ ": " ++ reason

end SymbolContext
