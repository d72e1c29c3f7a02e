import SymbolContext.Diagnostic
import SymbolContext.Duration
import SymbolContext.Path
import SymbolContext.Text.Blank
import SymbolContext.Text.Quoted

/-!
# Settings

Everything that can be set, from the environment and from the command line, which wins.

* `Settings.ofEnvironment` reads the environment; what it cannot make sense of it says to the log.
-/

namespace SymbolContext

/-- An environment: the values of some variables. -/
abbrev Environment := String → Option String

/-- How a server is warmed up. -/
structure WarmUpSettings where
  /-- The greatest number of files to open. -/
  maxFiles : Nat := 3
  /-- The pause between the two queries. -/
  queryPause : Duration := .ofMillis 100
  /-- The pause after opening a file. -/
  openPause : Duration := .ofMillis 50
  /-- The extensions of the files to open. -/
  extensions : List String := ["cpp", "cxx", "cc"]
  /-- The names of directories to leave out. -/
  skipped : List String := ["build", "cmake-build-debug"]
deriving DecidableEq, Repr

/-- How a server is started and spoken to. -/
structure ServerSettings where
  command : String
  args : List String := []
  /-- The workspace, also the server's working directory. -/
  root : String
  /-- How long the handshake may take. -/
  handshakeLimit : Duration := .ofSeconds 30
  /-- How long any other request may take. -/
  requestLimit : Duration := .ofSeconds 10
deriving DecidableEq, Repr

/-- The name of the server: the file name of its command without the extension. -/
def ServerSettings.name (s : ServerSettings) : String := (Path.stem? s.command).getD s.command

/-- All settings. -/
structure Settings where
  /-- Lines shown around each reference. -/
  contextLines : Nat
  warmUp : WarmUpSettings := {}
  server : ServerSettings
deriving DecidableEq, Repr

namespace Settings

/-- The variable with the number of lines around each reference. -/
def contextVariable : String := "LSP_CONTEXT_LINES"

/-- The variable with the server's command. -/
def serverVariable : String := "LSP_BRIDGE_SERVER_PATH"

/-- The number of lines around each reference if nothing else is said. -/
def usualContextLines : Nat := 5

/-- The server's command if nothing else is said. -/
def usualCommand : String := "clangd"

/-- Words on what is used instead. -/
def fallback : String := ", using " ++ Decimal.text usualContextLines

/-- **The number of lines around each reference**, and what the log says of a bad value. -/
def contextLinesOf : Option String → Nat × List LogLine
  | none => (usualContextLines, [])
  | some raw =>
    match Decimal.intUpTo? (Nat.pow 2 63 - 1) (Text.trim raw.toList) with
    | some (.ofNat n) => (n, [])
    | some (.negSucc n) =>
      (usualContextLines, [.warn (contextVariable ++ " must not be negative (got " ++
        Decimal.intText (.negSucc n) ++ ")" ++ fallback)])
    | none =>
      (usualContextLines, [.warn ("Invalid " ++ contextVariable ++ " value " ++
        Text.quoted raw ++ fallback)])

/-- The server's command: a variable that is blank says nothing. -/
def commandOf (env : Environment) : String :=
  ((env serverVariable).filter fun v => Text.trimmed v ≠ "").getD usualCommand

/-- **The settings in an environment.** -/
def ofEnvironment (root : String) (env : Environment) : Settings × List LogLine :=
  let (contextLines, lines) := contextLinesOf (env contextVariable)
  ({ contextLines, server := { command := commandOf env, root } }, lines)

/-- Another command for the server, if one is given. -/
def withCommand (s : Settings) (command : Option String) : Settings :=
  { s with server := { s.server with command := command.getD s.server.command } }

/-- Other arguments for the server. -/
def withArgs (s : Settings) (args : List String) : Settings :=
  { s with server := { s.server with args } }

/-- Another number of lines around each reference, if one is given. -/
def withContext (s : Settings) (n : Option Nat) : Settings :=
  { s with contextLines := n.getD s.contextLines }

end Settings

end SymbolContext
