import SymbolContext.Duration
import SymbolContext.Path
import SymbolContext.Text.Utf8

/-!
# A small shell

Enough of a shell for rehearsing processes: simple commands in sequence, quotes, parameters,
redirections, and a handful of commands.

* `Shell.run` carries out a script on an input that may still be open.
-/

namespace SymbolContext.Rehearsal.Shell

/-! ## Words -/

/-- A part of a word. -/
inductive Piece where
  | text (cs : List Char)
  /-- The value of a parameter, within quotes or not. -/
  | parameter (name : List Char) (quoted : Bool)
deriving DecidableEq, Repr

/-- A word before its parameters are filled in. -/
abbrev Word := List Piece

/-- A token of a script. -/
inductive Token where
  | word (w : Word)
  /-- The end of a command. -/
  | next
  /-- The command behind is carried out only if the one in front succeeds. -/
  | andThen
  /-- The command behind is carried out only if the one in front fails. -/
  | orElse
  /-- Redirect a stream to the file that the next word names. -/
  | toFile (stream : Nat)
  /-- Redirect a stream to another one. -/
  | toStream (stream target : Nat)
  /-- Read from the file that the next word names. -/
  | fromFile
deriving DecidableEq, Repr

/-- Where a character stands. -/
inductive Mode where
  | plain
  | single
  | double
  /-- Behind a backslash, within double quotes or not. -/
  | escape (quoted : Bool)
  /-- Behind a dollar sign. -/
  | dollar (quoted : Bool)
  /-- In the name of a parameter. -/
  | name (quoted : Bool) (cs : List Char)
  /-- In the name of a parameter in braces. -/
  | braced (quoted : Bool) (cs : List Char)
  | ampersand
  | bar
  | greater (stream : Nat)
  | greaterAmpersand (stream : Nat)
  | comment
deriving DecidableEq, Repr

/-- What has been read of a script. -/
structure Lexer where
  mode : Mode := .plain
  /-- The word at hand, if one has begun. -/
  word : Option Word := none
  tokens : List Token := []

namespace Lexer

/-- Add a piece to the word at hand. -/
def add (l : Lexer) (p : Piece) : Lexer := { l with word := some (l.word.getD [] ++ [p]) }

/-- Begin a word, or go on with it, in another mode. -/
def within (l : Lexer) (mode : Mode) : Lexer := { l with word := some (l.word.getD []), mode }

/-- End the word at hand. -/
def close (l : Lexer) : Lexer :=
  match l.word with
  | some w => { l with word := none, tokens := l.tokens ++ [.word w] }
  | none => l

/-- End the word at hand and add a token. -/
def emit (l : Lexer) (t : Token) : Lexer :=
  { l.close with tokens := l.close.tokens ++ [t], mode := .plain }

/-- The stream that a redirection is on: a number in front of it, or the output. -/
def redirected (l : Lexer) : Lexer :=
  match l.word with
  | some [.text ['2']] => { l with word := none, mode := .greater 2 }
  | some [.text ['1']] => { l with word := none, mode := .greater 1 }
  | _ => { l.close with mode := .greater 1 }

/-- A character outside of quotes. -/
def plainStep (l : Lexer) (c : Char) : Lexer :=
  let l := { l with mode := .plain }
  if c = ' ' ∨ c = '\t' then l.close
  else if c = '\n' ∨ c = ';' then l.emit .next
  else if c = '&' then { l with mode := .ampersand }
  else if c = '|' then { l with mode := .bar }
  else if c = '\x27' then l.within .single
  else if c = '"' then l.within .double
  else if c = '\\' then l.within (.escape false)
  else if c = '$' then l.within (.dollar false)
  else if c = '>' then l.redirected
  else if c = '<' then l.emit .fromFile
  else if c = '#' ∧ l.word = none then { l with mode := .comment }
  else l.add (.text [c])

/-- A character within double quotes. -/
def doubleStep (l : Lexer) (c : Char) : Lexer :=
  let l := { l with mode := .double }
  if c = '"' then { l with mode := .plain }
  else if c = '\\' then { l with mode := .escape true }
  else if c = '$' then { l with mode := .dollar true }
  else l.add (.text [c])

/-- A character where the mode was before. -/
def resume (l : Lexer) (quoted : Bool) (c : Char) : Lexer :=
  if quoted then l.doubleStep c else l.plainStep c

/-- Whether a character can stand in the name of a parameter. -/
def inName (c : Char) : Bool := c.isAlphanum || c = '_'

/-- Whether a backslash within double quotes says something in front of a character. -/
def isEscapable (c : Char) : Bool := c = '"' || c = '\\' || c = '$' || c = '\x60'

/-- Read one character. -/
def step (l : Lexer) (c : Char) : Lexer :=
  match l.mode with
  | .plain => l.plainStep c
  | .double => l.doubleStep c
  | .single => if c = '\x27' then { l with mode := .plain } else l.add (.text [c])
  | .escape false => { l.add (.text [c]) with mode := .plain }
  | .escape true =>
    { l.add (.text (if isEscapable c then [c] else ['\\', c])) with mode := .double }
  | .dollar q =>
    if c = '\x7b' then { l with mode := .braced q [] }
    else if c.isDigit ∨ c = '@' ∨ c = '*' ∨ c = '#' ∨ c = '?' ∨ c = '$' then
      { l.add (.parameter [c] q) with mode := if q then .double else .plain }
    else if inName c then { l with mode := .name q [c] }
    else (l.add (.text ['$'])).resume q c
  | .name q cs =>
    if inName c then { l with mode := .name q (cs ++ [c]) }
    else (l.add (.parameter cs q)).resume q c
  | .braced q cs =>
    if c = '\x7d' then { l.add (.parameter cs q) with mode := if q then .double else .plain }
    else { l with mode := .braced q (cs ++ [c]) }
  | .ampersand => if c = '&' then l.emit .andThen else (l.emit .next).plainStep c
  | .bar => if c = '|' then l.emit .orElse else (l.emit .next).plainStep c
  | .greater n =>
    if c = '&' then { l with mode := .greaterAmpersand n }
    else if c = '>' then l
    else (l.emit (.toFile n)).plainStep c
  | .greaterAmpersand n => l.emit (.toStream n (c.toNat - '0'.toNat))
  | .comment => if c = '\n' then l.emit .next else l

/-- The end of the script. -/
def finish (l : Lexer) : List Token :=
  match l.mode with
  | .name q cs => (l.add (.parameter cs q)).close.tokens
  | .dollar _ => (l.add (.text ['$'])).close.tokens
  | _ => l.close.tokens

end Lexer

/-- The tokens of a script. -/
def tokens (script : String) : List Token := (script.toList.foldl Lexer.step {}).finish

/-! ## Commands -/

/-- Where a stream of a command goes. -/
inductive Target where
  | output
  | error
  | nowhere
deriving DecidableEq, Repr

/-- What is known while a script runs. -/
structure State where
  /-- The parameters of the script, from the one with number 0 on. -/
  args : List String
  bindings : List (String × String) := []
  directory : String
  input : List UInt8
  /-- Whether more input can come. -/
  inputOpen : Bool
  output : String := ""
  status : Nat := 0
  elapsed : Duration := ⟨0⟩
  /-- Whether the script waits for input. -/
  waiting : Bool := false
  /-- Whether the script never ends. -/
  endless : Bool := false
  exited : Bool := false

namespace State

/-- Whether nothing more happens for now. -/
def isOver (s : State) : Bool := s.waiting || s.endless || s.exited

/-- The value of a parameter. -/
def value (s : State) (name : List Char) : String :=
  match name with
  | ['#'] => Decimal.text (s.args.length - 1)
  | ['?'] => Decimal.text s.status
  | ['@'] => Text.join " " s.args.tail
  | ['*'] => Text.join " " s.args.tail
  | _ =>
    match Decimal.value? name with
    | some n => (s.args[n]?).getD ""
    | none =>
      if name = "PWD".toList then s.directory
      else (s.bindings.lookup (String.ofList name)).getD ""

/-- Append text to the last of some words. -/
def extend (ws : List String) (text : String) : List String :=
  match ws.getLast? with
  | some w => ws.dropLast ++ [w ++ text]
  | none => [text]

/-- The words that a word stands for, once its parameters are filled in. All parameters at once,
within quotes, are a word each; a value outside of quotes is cut at its blanks. -/
def expand (s : State) (w : Word) : List String :=
  if w = [] then [""]
  else
    w.foldl (fun acc p =>
      match p with
      | .text cs => extend acc (String.ofList cs)
      | .parameter ['@'] true =>
        match s.args.tail with
        | [] => acc
        | first :: rest => extend acc first ++ rest
      | .parameter name true => extend acc (s.value name)
      | .parameter name false =>
        match ((Text.splitAtChar ' ' (s.value name).toList).filter (· ≠ [])).map String.ofList with
        | [] => acc
        | first :: rest => extend acc first ++ rest) []

/-- Write to a stream. -/
def write (s : State) (target : Target) (text : String) : State :=
  if target = .output then { s with output := s.output ++ text } else s

/-- Take the whole input, or wait for its end. -/
def copyInput (s : State) (target : Target) : State :=
  let s := { s.write target (Utf8.decodeLossy s.input) with input := [], status := 0 }
  if s.inputOpen then { s with waiting := true } else s

/-- Take one line of the input, or wait for it. -/
def readLine (s : State) (name : String) : State :=
  let line := s.input.takeWhile (· ≠ 10)
  let rest := s.input.dropWhile (· ≠ 10)
  if rest = [] ∧ s.inputOpen then { s with waiting := true }
  else
    { s with
      input := rest.drop 1
      bindings := (name, Utf8.decodeLossy line) :: s.bindings
      status := if rest = [] then 1 else 0 }

end State

/-- Fill in the escapes of a text. -/
def unescape : List Char → List Char
  | '\\' :: 'n' :: rest => '\n' :: unescape rest
  | '\\' :: 't' :: rest => '\t' :: unescape rest
  | '\\' :: 'r' :: rest => '\r' :: unescape rest
  | '\\' :: '\\' :: rest => '\\' :: unescape rest
  | c :: rest => c :: unescape rest
  | [] => []

/-- Fill values into a format once, and give those that are left. -/
def fillOnce : List Char → List String → List Char × List String
  | [], args => ([], args)
  | '%' :: '%' :: rest, args =>
    let (cs, left) := fillOnce rest args
    ('%' :: cs, left)
  | '%' :: c :: rest, args =>
    if c = 's' ∨ c = 'd' then
      let (cs, left) := fillOnce rest args.tail
      ((args.head?.getD (if c = 'd' then "0" else "")).toList ++ cs, left)
    else
      let (cs, left) := fillOnce rest args
      ('%' :: c :: cs, left)
  | c :: rest, args =>
    let (cs, left) := fillOnce rest args
    (c :: cs, left)

/-- Fill values into a format, again and again while some are left. -/
def fillAll (fuel : Nat) (format : List Char) (args : List String) : List Char :=
  match fuel with
  | 0 => []
  | fuel + 1 =>
    let (cs, left) := fillOnce format args
    if left = [] ∨ left.length = args.length then cs else cs ++ fillAll fuel format left

/-- A number of seconds as text. -/
def seconds (text : String) : Duration :=
  let whole := text.toList.takeWhile (· ≠ '.')
  let fraction := ((text.toList.dropWhile (· ≠ '.')).drop 1 ++ List.replicate 9 '0').take 9
  ⟨(Decimal.value? whole).getD 0 * 1000000000 + (Decimal.value? fraction).getD 0⟩

/-- Carry out one command. -/
def command (s : State) (target : Target) (nullInput : Bool) : List String → State
  | [] => s
  | "exec" :: rest => { command s target nullInput rest with exited := true }
  | "echo" :: "-n" :: rest =>
    { s.write target (String.ofList (unescape (Text.join " " rest).toList)) with status := 0 }
  | "echo" :: rest =>
    { s.write target (String.ofList (unescape (Text.join " " rest).toList) ++ "\n") with
      status := 0 }
  | "printf" :: format :: args =>
    let filled := fillAll (args.length + 1) (unescape format.toList) args
    { s.write target (String.ofList filled) with status := 0 }
  | "cat" :: _ => if nullInput then { s with status := 0 } else s.copyInput target
  | ["read"] => s.readLine "REPLY"
  | "read" :: "-r" :: name :: _ => s.readLine name
  | "read" :: name :: _ => s.readLine name
  | "true" :: _ => { s with status := 0 }
  | ":" :: _ => { s with status := 0 }
  | "false" :: _ => { s with status := 1 }
  | "trap" :: _ => { s with status := 0 }
  | "exit" :: rest =>
    { s with
      exited := true
      status := (rest.head?.bind fun n => Decimal.value? n.toList).getD s.status }
  | "sleep" :: n :: _ => { s with elapsed := s.elapsed + seconds n, status := 0 }
  | "while" :: _ => { s with endless := true }
  | ["pwd"] => { s.write target (s.directory ++ "\n") with status := 0 }
  | "basename" :: path :: _ =>
    { s.write target ((Path.fileName? path).getD "/" ++ "\n") with status := 0 }
  | _ => { s with status := 127 }

/-- The command at hand while a script is read. -/
structure Line where
  words : List Word := []
  output : Target := .output
  error : Target := .error
  nullInput : Bool := false
  /-- The redirection whose file is still to come. -/
  redirect : Option (Option Nat) := none

/-- Set where a stream goes. -/
def Line.redirectTo (l : Line) (stream : Nat) (t : Target) : Line :=
  if stream = 2 then { l with error := t } else { l with output := t }

/-- Take up one token of a command. -/
def Line.add (l : Line) : Token → Line
  | .word w =>
    match l.redirect with
    | some (some stream) => { l.redirectTo stream .nowhere with redirect := none }
    | some none => { l with nullInput := true, redirect := none }
    | none => { l with words := l.words ++ [w] }
  | .toFile stream => { l with redirect := some (some stream) }
  | .fromFile => { l with redirect := some none }
  | .toStream stream target => l.redirectTo stream (if target = 2 then l.error else l.output)
  | _ => l

/-- Carry out the command at hand. -/
def Line.run (l : Line) (s : State) : State :=
  if s.isOver then s else command s l.output l.nullInput (l.words.flatMap s.expand)

/-- Whether a command is carried out, by the token in front of it. -/
def runs (s : State) : Token → Bool
  | .andThen => s.status == 0
  | .orElse => s.status != 0
  | _ => true

/-- Carry out commands; `before` is the token in front of the one at hand. -/
def execute (s : State) (before : Token) (l : Line) : List Token → State
  | [] => if runs s before then l.run s else s
  | t :: rest =>
    if t = .next ∨ t = .andThen ∨ t = .orElse then
      execute (if runs s before then l.run s else s) t {} rest
    else execute s before (l.add t) rest

/-- **Carry out a script.** -/
def run (script : String) (s : State) : State := execute s .next {} (tokens script)

end SymbolContext.Rehearsal.Shell
