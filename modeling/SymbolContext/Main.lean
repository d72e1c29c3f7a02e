import SymbolContext.Frame
import SymbolContext.Program

/-!
# The command

The program in the surroundings of the operating system. A server is reached through two named
pipes: for the command `path`, what is written to `path.in` goes to its standard input, and
`path.out` carries its standard output.

All decisions are made in `SymbolContext.Program`; here texts are read and written.
-/

namespace SymbolContext.Outside

/-- The reason that an error of the operating system gives. -/
def reason : IO.Error → String
  | .noFileOrDirectory .. => OsError.message .notFound
  | .noSuchThing .. => OsError.message .notFound
  | .permissionDenied .. => OsError.message .permissionDenied
  | .inappropriateType _ 20 _ => OsError.message .notDirectory
  | .inappropriateType .. => OsError.message .isDirectory
  | e => toString e

/-- Try something that can be refused. -/
def attempt {α : Type} (act : IO α) : IO (Except String α) := do
  try return .ok (← act)
  catch e => return .error (reason e)

/-! ## The log -/

/-- The name of a level in the log. -/
def levelName : Level → String
  | .debug => "DEBUG"
  | .info => "INFO"
  | .warn => "WARN"
  | .error => "ERROR"

/-- A line of the log as text. -/
def lineText (settings : LogSettings) (line : LogLine) : String :=
  if settings.json then
    Json.render (.mkObj [("level", .str (levelName line.level)),
      ("fields", .mkObj [("message", .str line.text)])])
  else levelName line.level ++ " " ++ line.text

/-- Where the log goes. -/
structure Log where
  settings : IO.Ref LogSettings
  file : IO.Ref (Option IO.FS.Handle)

/-- Say something to the log. -/
def Log.say (log : Log) (line : LogLine) : IO Unit := do
  let settings ← log.settings.get
  if (LogFilter.ofText settings.level).keeps line.level then
    match ← log.file.get with
    | some handle =>
      handle.putStrLn (lineText settings line)
      handle.flush
    | none => IO.eprintln (lineText settings line)

/-- Open the log. -/
def Log.start (log : Log) (settings : LogSettings) : IO (Except String Unit) := do
  log.settings.set settings
  match settings.file with
  | none => return .ok ()
  | some path =>
    attempt do
      let handle ← IO.FS.Handle.mk path .append
      log.file.set (some handle)

/-! ## The connection -/

/-- How many octets are waited for: the rest of the body that is due, or one of a header. -/
def wanted (d : Frame.Decoder) : Nat :=
  match d.due with
  | some n => n - d.buffer.length
  | none => 1

/-- Read octets until a decoder has something to say; no octets are the end. -/
partial def readOn (inward : IO.FS.Handle) (d : Frame.Decoder) : IO (List UInt8) := do
  let bytes := (← inward.read (wanted d).toUSize).toList
  if bytes.isEmpty then return []
  else
    match (d.feed bytes).next with
    | (.ok none, d) => return bytes ++ (← readOn inward d)
    | _ => return bytes

/-- A connection over two pipes. -/
structure Wire where
  outward : IO.FS.Handle
  inward : IO.FS.Handle
  connection : IO.Ref Rpc.Connection
  decoder : IO.Ref Frame.Decoder
  /-- The read that is under way. -/
  reading : IO.Ref (Option (Task (Except IO.Error (List UInt8))))
  log : Log

/-- Write what is on its way out. -/
def Wire.flush (w : Wire) : IO Unit := do
  let c ← w.connection.get
  w.connection.set { c with outbox := [] }
  try
    for text in c.outbox do
      w.outward.write (ByteArray.mk (Frame.encode text).toArray)
    w.outward.flush
  catch e =>
    w.connection.modify Rpc.Connection.closeOutbound
    w.log.say (.error ("Failed to send message: " ++ (Frame.Error.io (reason e)).message))

/-- The inbound texts have ended. -/
def Wire.finish (w : Wire) (failure : Option Frame.Error) : IO Unit := do
  match failure with
  | some e => w.log.say (.error ("Failed to receive message: " ++ e.message))
  | none => pure ()
  w.connection.modify Rpc.Connection.endInbound

/-- Octets have arrived; no octets are the end. -/
def Wire.arrive (w : Wire) (bytes : List UInt8) : IO Unit := do
  let (texts, failure, decoder) := ((← w.decoder.get).feed bytes).drain
  w.decoder.set decoder
  for text in texts do
    let (connection, lines) := (← w.connection.get).receive text
    w.connection.set connection
    for line in lines do w.log.say line
  w.flush
  match failure with
  | some e => w.finish (some e)
  | none =>
    if bytes.isEmpty then
      match decoder.last.1 with
      | .error e => w.finish (some e)
      | .ok _ => w.finish none

/-- Wait for octets until a time. -/
partial def Wire.pump (w : Wire) (deadline : Nat) : IO Bool := do
  let task ← match ← w.reading.get with
    | some task => pure task
    | none =>
      let task ← IO.asTask (readOn w.inward (← w.decoder.get))
      w.reading.set (some task)
      pure task
  if ← IO.hasFinished task then
    w.reading.set none
    match task.get with
    | .ok bytes => w.arrive bytes
    | .error e => w.finish (some (.io (reason e)))
    return true
  else if deadline ≤ (← IO.monoMsNow) then return false
  else
    IO.sleep 1
    w.pump deadline

/-- Wait for what is delivered to a request until a time. -/
partial def Wire.wait (w : Wire) (id : Nat) (deadline : Nat) : IO (Option Rpc.Delivery) := do
  match (← w.connection.get).delivery? id with
  | some d => return some d
  | none => if ← w.pump deadline then w.wait id deadline else return none

/-- Make a request. -/
def Wire.request (w : Wire) (method : String) (params : Option Json) (limit : Duration) :
    IO (Except RpcFailure Json) := do
  let (r, connection) := (← w.connection.get).start method params
  w.connection.set connection
  match r with
  | .error e => return .error e
  | .ok id =>
    w.flush
    match ← w.wait id ((← IO.monoMsNow) + limit.millis) with
    | some d => return d.outcome
    | none =>
      w.connection.modify fun c => c.giveUp id
      return .error (.timedOut method limit)

/-- Send a notification. -/
def Wire.notify (w : Wire) (method : String) (params : Option Json) :
    IO (Except RpcFailure Unit) := do
  let (r, connection) := (← w.connection.get).notify method params
  w.connection.set connection
  w.flush
  return r

/-- Wait for the end of the inbound texts. -/
partial def Wire.drained (w : Wire) (deadline : Nat) : IO Bool := do
  if (← w.connection.get).closed then return true
  else if ← w.pump deadline then w.drained deadline
  else return false

/-- Reach a server. -/
def connect (log : Log) (launch : Server.Launch) :
    IO (Except ProcessFailure (Server.Process IO)) := do
  let opened ← attempt do
    let outward ← IO.FS.Handle.mk (launch.command ++ ".in") .write
    let inward ← IO.FS.Handle.mk (launch.command ++ ".out") .read
    return Wire.mk outward inward (← IO.mkRef {}) (← IO.mkRef {}) (← IO.mkRef none) log
  match opened with
  | .error e => return .error (.spawn launch.command e)
  | .ok w =>
    return .ok {
      takeStreams := return .ok ⟨w.request, w.notify⟩
      stop := fun mode => do
        match mode with
        | .force => return .ok ()
        | .graceful grace =>
          if !(← w.drained ((← IO.monoMsNow) + grace.millis)) then
            log.say (.warn ("Process " ++ launch.command ++ " did not exit within " ++
              grace.text ++ ", killing"))
          return .ok () }

/-! ## Files -/

/-- The text of a file. -/
def readText (path : String) : IO (Except String String) :=
  attempt do return Utf8.decodeLossy (← IO.FS.readBinFile path).toList

/-- The tree of a directory entry, without the contents of files. -/
partial def entryTree (e : IO.FS.DirEntry) : IO FileTree := do
  match (← e.path.symlinkMetadata).type with
  | .dir =>
    try
      let mut t := FileTree.empty
      for inner in ← e.path.readDir do
        t := FileTree.put (← entryTree inner) [inner.fileName] t
      return t
    catch err => return .locked (reason err)
  | .file => return .file []
  | _ => return .link ""

/-- The tree at a path. -/
def treeAt (path : String) : IO (Except String FileTree) :=
  attempt do
    let place ← IO.FS.realPath path
    if ← place.isDir then
      let mut t := FileTree.empty
      for inner in ← place.readDir do
        t := FileTree.put (← entryTree inner) [inner.fileName] t
      return t
    else return .file []

/-- The number of this process. -/
def ownNumber : IO Nat := do
  let text ← IO.FS.readFile "/proc/self/stat"
  return (Decimal.value? (text.toList.takeWhile Char.isDigit)).getD 0

/-- The variables that the program reads. -/
def knownVariables : List String :=
  [Settings.contextVariable, Settings.serverVariable, "RUST_LOG", "LSP_BRIDGE_LOG_FILE",
   "LSP_BRIDGE_LOG_UNIQUE", "LSP_BRIDGE_LOG_JSON"]

/-- The environment. -/
def environment : IO (List (String × String)) :=
  knownVariables.filterMapM fun key => do return (← IO.getEnv key).map fun value => (key, value)

/-- What servers can do is left to them. -/
instance : Server.Capabilities := ⟨Server.Capabilities.unread⟩

/-- The surroundings of the program. -/
def world : IO (Program.World IO) := do
  let log : Log := ⟨← IO.mkRef {}, ← IO.mkRef none⟩
  let env ← environment
  return {
    processId := ← ownNumber
    spawn := connect log
    readText := readText
    log := log.say
    environment := fun key => env.lookup key
    currentDirectory := attempt do return (← IO.currentDir).toString
    canonical := fun path => attempt do return (← IO.FS.realPath path).toString
    treeAt := treeAt
    pause := fun d => IO.sleep d.millis.toUInt32
    openLog := log.start }

end SymbolContext.Outside

/-- Carry out the command line. -/
def main (args : List String) : IO UInt32 := do
  let report ← SymbolContext.Program.execute (← SymbolContext.Outside.world) args
  IO.print report.stdout
  IO.eprint report.stderr
  return report.exitCode.toUInt32
