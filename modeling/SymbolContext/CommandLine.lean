import SymbolContext.Path
import SymbolContext.Text.Decimal

/-!
# The command line

A command line is read word by word. Options stand in front of the command or behind it, and
those behind it win. The value of an option is looked at only when the next word has been
understood, so of two faults the later one can be reported.

* `CommandLine.parse` reads a command line, or says how it is refused.
-/

namespace SymbolContext.CommandLine

/-- What is asked for. -/
inductive Command where
  | definition (symbol : String)
  | references (symbol : String) (contextLines : Option Nat)
deriving DecidableEq, Repr

/-- The number of lines around each reference, if it is given. -/
def Command.contextLines : Command → Option Nat
  | definition _ => none
  | references _ n => n

/-- A command line that has been understood. -/
structure Arguments where
  root : Option String := none
  serverPath : Option String := none
  serverArgs : List String := []
  noWarmUp : Bool := false
  logLevel : Option String := none
  logFile : Option String := none
  command : Command
deriving DecidableEq, Repr

/-- Why a command line is not carried out. -/
inductive Refusal where
  /-- Help was asked for. -/
  | help
  /-- The version was asked for. -/
  | version
  /-- There is nothing on the command line. -/
  | nothingGiven
  /-- There are options and no command. -/
  | noCommand
  | unknownCommand
  | unknownArgument
  /-- The symbol is missing. -/
  | noSymbol
  /-- An option lacks its value, or has an empty one where a path is needed. -/
  | emptyValue
  /-- A value that is no number. -/
  | badValue
  /-- A flag with a value. -/
  | tooManyValues
  /-- An option that is given twice. -/
  | repeated
deriving DecidableEq, Repr

/-- The exit code of a refusal. -/
def Refusal.exitCode : Refusal → Nat
  | help => 0
  | version => 0
  | _ => 2

/-- The options that take a value. -/
inductive Key where
  | root
  | serverPath
  | serverArg
  | logLevel
  | logFile
  | contextLines
deriving DecidableEq, Repr

/-- The flags. -/
inductive Flag where
  | noWarmUp
  | help
  | version
deriving DecidableEq, Repr

/-- The commands by name. -/
inductive Verb where
  | definition
  | references
  | help
deriving DecidableEq, Repr

/-- The command with a name. -/
def Verb.named? : String → Option Verb
  | "definition" => some .definition
  | "references" => some .references
  | "help" => some .help
  | _ => none

/-- The options of one level: those in front of the command, or those behind it. -/
structure Options where
  root : Option String := none
  serverPath : Option String := none
  serverArgs : Option (List String) := none
  noWarmUp : Bool := false
  logLevel : Option String := none
  logFile : Option String := none
  contextLines : Option Nat := none
deriving DecidableEq, Repr

namespace Options

/-- Set an option that can be given once. -/
def once {α : Type} (old : Option α) (value : Except Refusal α) : Except Refusal (Option α) :=
  match old with
  | some _ => .error .repeated
  | none => value.map some

/-- A path as a value. -/
def path (value : String) : Except Refusal String :=
  if value = "" then .error .emptyValue else .ok value

/-- A number as a value. -/
def number (value : String) : Except Refusal Nat :=
  match Decimal.natUpTo? Decimal.wordMax value.toList with
  | some n => .ok n
  | none => .error .badValue

/-- Set an option. -/
def set (o : Options) (key : Key) (value : String) : Except Refusal Options :=
  match key with
  | .root => do return { o with root := ← once o.root (path value) }
  | .serverPath => do return { o with serverPath := ← once o.serverPath (.ok value) }
  | .serverArg => .ok { o with serverArgs := some (o.serverArgs.getD [] ++ [value]) }
  | .logLevel => do return { o with logLevel := ← once o.logLevel (.ok value) }
  | .logFile => do return { o with logFile := ← once o.logFile (path value) }
  | .contextLines => do return { o with contextLines := ← once o.contextLines (number value) }

/-- Whether no option is given. -/
def isNone (o : Options) : Bool := o = {}

/-- The options in front of the command, replaced by those behind it. -/
def arguments (front behind : Options) (command : Command) : Arguments where
  root := behind.root.or front.root
  serverPath := behind.serverPath.or front.serverPath
  serverArgs := (behind.serverArgs.or front.serverArgs).getD []
  noWarmUp := behind.noWarmUp || front.noWarmUp
  logLevel := behind.logLevel.or front.logLevel
  logFile := behind.logFile.or front.logFile
  command := command

end Options

/-- **How far one level has been read.** -/
structure Level where
  /-- The command, unless it is still to come. -/
  verb : Option Verb := none
  options : Options := {}
  symbol : Option String := none
  /-- The last option, with its value if it has come, until the next word is understood. -/
  pending : Option (Key × Option String) := none
  /-- Whether only plain words follow. -/
  plain : Bool := false
deriving DecidableEq, Repr

namespace Level

/-- The options with a value on this level. -/
def key? (l : Level) : String → Option Key
  | "root" => some .root
  | "server-path" => some .serverPath
  | "server-arg" => some .serverArg
  | "log-level" => some .logLevel
  | "log-file" => some .logFile
  | "context-lines" => if l.verb = some .references then some .contextLines else none
  | _ => none

/-- The flags on this level. -/
def flag? (l : Level) : String → Option Flag
  | "no-warmup" => some .noWarmUp
  | "help" => some .help
  | "version" => if l.verb = none then some .version else none
  | _ => none

/-- The flags of one letter on this level. -/
def letter? (l : Level) : Char → Option Flag
  | 'h' => some .help
  | 'V' => if l.verb = none then some .version else none
  | _ => none

/-- The option that waits for its value. -/
def waiting? (l : Level) : Option Key :=
  match l.pending with
  | some (key, none) => if l.plain then none else some key
  | _ => none

/-- Look at the value of the last option. -/
def resolve (l : Level) : Except Refusal Level :=
  match l.pending with
  | none => .ok l
  | some (_, none) => .error .emptyValue
  | some (key, some value) => do
    return { l with options := ← l.options.set key value, pending := none }

/-- A flag. -/
def raise (l : Level) (flag : Flag) : Except Refusal Level := do
  let l ← l.resolve
  match flag with
  | .help => .error .help
  | .version => .error .version
  | .noWarmUp =>
    if l.options.noWarmUp then .error .repeated
    else .ok { l with options := { l.options with noWarmUp := true } }

/-- A word of flags of one letter each. -/
def letters (l : Level) : List Char → Except Refusal Level
  | [] => .ok l
  | c :: rest => do
    match l.letter? c with
    | some flag => (← l.raise flag).letters rest
    | none => .error .unknownArgument

/-- An option by its name, with what stands behind an equals sign. -/
def long (l : Level) (name : String) (value : Option String) : Except Refusal Level :=
  match l.key? name, value with
  | some key, some v => do
    let l ← l.resolve
    return { l with options := ← l.options.set key v }
  | some key, none => do return { ← l.resolve with pending := some (key, none) }
  | none, v =>
    match l.flag? name, v with
    | some _, some _ => .error .tooManyValues
    | some flag, none => l.raise flag
    | none, _ => .error .unknownArgument

/-- A plain word. In front of the command it could only be one. -/
def word (l : Level) (w : String) : Except Refusal Level :=
  match l.verb, l.symbol with
  | none, _ =>
    .error (if l.plain && (Verb.named? w).isSome then .unknownArgument else .unknownCommand)
  | some _, none => do return { ← l.resolve with symbol := some w }
  | some _, some _ => .error .unknownArgument

/-- The name and the value of an option as one word. -/
def cut (cs : List Char) : String × Option String :=
  (String.ofList (cs.takeWhile (· ≠ '=')),
    match cs.dropWhile (· ≠ '=') with
    | [] => none
    | _ :: value => some (String.ofList value))

/-- The value of the option that waits for one. -/
def give (l : Level) (key : Key) (value : String) : Level :=
  { l with pending := some (key, some value) }

/-- **Read one word.** -/
def feed (l : Level) (w : String) : Except Refusal Level :=
  if l.plain then l.word w
  else if l.waiting? = some .serverArg then .ok (l.give .serverArg w)
  else
    match w.toList with
    | ['-', '-'] => .ok { l with plain := true }
    | '-' :: '-' :: cs => l.long (cut cs).1 (cut cs).2
    | '-' :: c :: cs => l.letters (c :: cs)
    | _ =>
      match l.waiting? with
      | some key => .ok (l.give key w)
      | none => l.word w

/-- Read some words. -/
def feedAll (l : Level) : List String → Except Refusal Level
  | [] => .ok l
  | w :: rest => do (← l.feed w).feedAll rest

/-- The command that has been read. -/
def command (l : Level) : Except Refusal Command :=
  match l.symbol with
  | none => .error .noSymbol
  | some symbol =>
    .ok (if l.verb = some .references then .references symbol l.options.contextLines
      else .definition symbol)

end Level

/-- The words behind a call for help: at most one command. -/
def helpOn : List String → Refusal
  | [] => .help
  | [w] => if (Verb.named? w).isSome then .help else .unknownCommand
  | _ => .unknownCommand

/-- Read the words behind a command. -/
def parseBehind (front : Level) (verb : Verb) (words : List String) :
    Except Refusal Arguments := do
  let l ← (← Level.feedAll { verb := some verb } words).resolve
  let command ← l.command
  let front ← front.resolve
  return front.options.arguments l.options command

/-- Read words up to the command and on. -/
def parseFrom (l : Level) : List String → Except Refusal Arguments
  | [] => do
    let l ← l.resolve
    .error (if l.options.isNone then .nothingGiven else .noCommand)
  | w :: rest =>
    match if l.plain || l.waiting?.isSome then none else Verb.named? w with
    | some .help => .error (helpOn rest)
    | some verb => parseBehind l verb rest
    | none => do parseFrom (← l.feed w) rest

/-- **Read a command line**, without the name of the program. -/
def parse (words : List String) : Except Refusal Arguments := parseFrom {} words

/-- What is shown when help is asked for. -/
def usage : String :=
  "Source context for symbols, resolved through a language server\n\n" ++
  "Usage: lsp-context-bridge [OPTIONS] <COMMAND>\n\n" ++
  "Commands:\n" ++
  "  definition  Print the full source definition of every symbol matching SYMBOL\n" ++
  "  references  Print every reference to SYMBOL with surrounding source lines\n" ++
  "  help        Print this message or the help of the given subcommand(s)\n\n" ++
  "Options:\n" ++
  "      --root <DIR>          Workspace root handed to the language server\n" ++
  "      --server-path <PATH>  Language server executable\n" ++
  "      --server-arg <ARG>    Extra argument passed to the language server; repeatable\n" ++
  "      --no-warmup           Skip the backend warm-up step\n" ++
  "      --log-level <LEVEL>   Log level\n" ++
  "      --log-file <FILE>     Log file path\n" ++
  "  -h, --help                Print help\n" ++
  "  -V, --version             Print version\n"

end SymbolContext.CommandLine
