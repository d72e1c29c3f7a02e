import SymbolContext.Settings

/-!
# Log settings

Where the log goes, in what form, and which of its lines are kept.

* `LogSettings.ofEnvironment` reads the environment, `LogSettings.override` applies the command
  line.
* `LogFilter.ofText` reads a filter, and `LogFilter.keeps` says which lines it keeps.
-/

namespace SymbolContext

/-- Put the number of a process into a file name, in front of the extension. A path without a
file name stays as it is. -/
def withProcessId (path : String) (pid : Nat) : String :=
  match Path.fileName? path with
  | none => path
  | some name =>
    match Path.splitName name with
    | (stem, some extension) =>
      if extension = "" then Path.withFileName path (stem ++ "." ++ Decimal.text pid)
      else Path.withFileName path (stem ++ "." ++ Decimal.text pid ++ "." ++ extension)
    | (stem, none) => Path.withFileName path (stem ++ "." ++ Decimal.text pid)

/-- Where the log goes and in what form. -/
structure LogSettings where
  /-- Which lines are kept, as text. -/
  level : String := "warn"
  /-- The file of the log; without one it goes to standard error. -/
  file : Option String := none
  /-- Whether lines are JSON. -/
  json : Bool := false
deriving DecidableEq, Repr

namespace LogSettings

/-- Whether a variable is set to `true`. -/
def isOn (env : Environment) (key : String) : Bool := env key == some "true"

/-- The settings in an environment, for the process with a given number. -/
def ofEnvironment (env : Environment) (pid : Nat) : LogSettings where
  level := (env "RUST_LOG").getD "warn"
  file := (env "LSP_BRIDGE_LOG_FILE").map fun path =>
    if isOn env "LSP_BRIDGE_LOG_UNIQUE" then withProcessId path pid else path
  json := isOn env "LSP_BRIDGE_LOG_JSON"

/-- Other values, if they are given. -/
def override (s : LogSettings) (level file : Option String) : LogSettings :=
  { s with level := level.getD s.level, file := file.or s.file }

end LogSettings

/-- How much is kept: nothing at 0, errors from 1 on, warnings from 2 on, and so on up to 5. -/
abbrev Verbosity := Nat

/-- The least verbosity at which lines of a level are kept. -/
def Level.verbosity : Level → Verbosity
  | .error => 1
  | .warn => 2
  | .info => 3
  | .debug => 4

/-- A part of a filter: what is kept of the lines from some place. -/
structure LogRule where
  /-- The beginning of the place; none is everywhere. -/
  target : Option String
  verbosity : Verbosity
  /-- Whether the rule is only on lines within a named span; the program has none. -/
  spanned : Bool := false
deriving DecidableEq, Repr

/-- A filter. -/
abbrev LogFilter := List LogRule

namespace LogFilter

/-- The names of the verbosities from 0 on. -/
def names : List String := ["off", "error", "warn", "info", "debug", "trace"]

/-- Everything is kept. -/
def everything : Verbosity := 5

/-- A verbosity as text: a number, or a name in any case. -/
def verbosity? (cs : List Char) : Option Verbosity :=
  match Decimal.natUpTo? everything cs with
  | some n => some n
  | none =>
    if cs = [] then some 1
    else names.findIdx? fun name => name.toList = cs.map Char.toLower

/-- Whether a rule can begin with a character. -/
def beginsRule (c : Char) : Bool :=
  c.isAlphanum || c = '-' || c = ':' || c = '_' || 128 ≤ c.toNat

/-- The verbosity behind the equals sign of a rule. -/
def afterEquals? (cs : List Char) : Option Verbosity :=
  if cs = [] then some everything else verbosity? cs

/-- The rest of a rule, from the bracket of its span on. -/
def spanRule? (target : Option String) (cs : List Char) : Option LogRule :=
  match cs.dropWhile (· ≠ ']') with
  | [] => none
  | _ :: [] => some ⟨target, everything, true⟩
  | _ :: '=' :: rest => (afterEquals? rest).map fun v => ⟨target, v, true⟩
  | _ => none

/-- A rule as text. -/
def rule? (cs : List Char) : Option LogRule :=
  match Text.trim cs with
  | [] => none
  | c :: _ =>
    if c = '[' then spanRule? none cs
    else if beginsRule c then
      let target := cs.takeWhile fun c => c ≠ '=' && c ≠ '['
      match cs.dropWhile fun c => c ≠ '=' && c ≠ '[' with
      | [] =>
        match verbosity? cs with
        | some v => some ⟨none, v, false⟩
        | none => some ⟨some (String.ofList cs), everything, false⟩
      | '=' :: rest => (afterEquals? rest).map fun v => ⟨some (String.ofList target), v, false⟩
      | rest => spanRule? (some (String.ofList target)) rest
    else none

/-- The rules of a filter as text, if all of them can be read. Without any, errors are kept. -/
def parse? (text : String) : Option LogFilter := do
  let rules ← ((Text.splitAtChar ',' text.toList).filter (· ≠ [])).mapM rule?
  return if rules.isEmpty then [⟨none, 1, false⟩] else rules

/-- **A filter as text**; one that cannot be read keeps warnings. -/
def ofText (text : String) : LogFilter := (parse? text).getD [⟨none, 2, false⟩]

/-- The place that all lines come from. -/
def origin : String := "lsp_context_bridge"

/-- Whether a rule is on the lines of the program. -/
def applies (r : LogRule) : Bool :=
  !r.spanned && match r.target with
    | none => true
    | some t => t.toList.isPrefixOf origin.toList

/-- How exactly a rule names its place. -/
def exactness (r : LogRule) : Nat :=
  match r.target with
  | none => 0
  | some t => t.length + 1

/-- The most exact of the rules that apply; of equals, the last. -/
def decisive? (f : LogFilter) : Option LogRule :=
  (f.filter applies).foldl (fun best r =>
    match best with
    | some b => if exactness b ≤ exactness r then some r else some b
    | none => some r) none

/-- **Whether a line of a level is kept.** -/
def keeps (f : LogFilter) (level : Level) : Bool :=
  match f.decisive? with
  | some r => level.verbosity ≤ r.verbosity
  | none => false

end LogFilter

end SymbolContext
