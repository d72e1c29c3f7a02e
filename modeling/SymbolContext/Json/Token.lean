import SymbolContext.Json.Number

/-!
# JSON tokens

The text is read one character at a time by a machine that is between tokens or inside one. It is
strict: no raw control characters in strings, no escape that is half a character, no comments.

* `tokens?` cuts a text into tokens.
-/

namespace SymbolContext.Json

/-- The smallest parts of a JSON text; `scalar` holds a finished number, string or word. -/
inductive Token where
  | openList
  | closeList
  | openObject
  | closeObject
  | comma
  | colon
  | text (s : String)
  | scalar (v : Json)
deriving Repr

/-- Where the machine stands between two characters. What it has read of a token is kept in
reverse. -/
inductive Mode where
  /-- Between tokens. -/
  | between
  /-- Inside a string. -/
  | inText (read : List Char)
  /-- After a backslash in a string. -/
  | escape (read : List Char)
  /-- Inside the four digits of a code unit, after the first unit of a pair if there is one. -/
  | code (read : List Char) (high : Option Nat) (owed : Nat) (unit : Nat)
  /-- After the first unit of a pair. -/
  | pair (read : List Char) (high : Nat)
  /-- After the first unit of a pair and a backslash. -/
  | pairEscape (read : List Char) (high : Nat)
  /-- Inside a number. -/
  | number (read : List Char)
  /-- Inside a word. -/
  | word (read : List Char)
deriving Repr

/-- White space between tokens. -/
def isSpace (c : Char) : Bool := c = ' ' || c = '\t' || c = '\n' || c = '\r'

/-- The characters of which number literals are made. -/
def isNumeric (c : Char) : Bool :=
  isDigit c || c = '-' || c = '+' || c = '.' || c = 'e' || c = 'E'

/-- The characters of which words are made. -/
def isLetter (c : Char) : Bool := 'a' ≤ c && c ≤ 'z'

/-- The value of a hexadecimal digit. -/
def hexDigit? (c : Char) : Option Nat :=
  if '0' ≤ c ∧ c ≤ '9' then some (c.toNat - '0'.toNat)
  else if 'a' ≤ c ∧ c ≤ 'f' then some (c.toNat - 'a'.toNat + 10)
  else if 'A' ≤ c ∧ c ≤ 'F' then some (c.toNat - 'A'.toNat + 10)
  else none

/-- A character between tokens. -/
def startToken (c : Char) : Option (List Token × Mode) :=
  if isSpace c then some ([], .between)
  else if c = '[' then some ([.openList], .between)
  else if c = ']' then some ([.closeList], .between)
  else if c = '\x7b' then some ([.openObject], .between)
  else if c = '\x7d' then some ([.closeObject], .between)
  else if c = ',' then some ([.comma], .between)
  else if c = ':' then some ([.colon], .between)
  else if c = '"' then some ([], .inText [])
  else if isDigit c || c = '-' then some ([], .number [c])
  else if isLetter c then some ([], .word [c])
  else none

/-- The token of a finished number. -/
def numberToken? (read : List Char) : Option Token := (number? read.reverse).map .scalar

/-- The token of a finished word. -/
def wordToken? (read : List Char) : Option Token :=
  match String.ofList read.reverse with
  | "null" => some (.scalar .null)
  | "true" => some (.scalar (.bool true))
  | "false" => some (.scalar (.bool false))
  | _ => none

/-- The character after a backslash. -/
def afterBackslash (read : List Char) (c : Char) : Option Mode :=
  match c with
  | '"' => some (.inText ('"' :: read))
  | '\\' => some (.inText ('\\' :: read))
  | '/' => some (.inText ('/' :: read))
  | 'b' => some (.inText ('\x08' :: read))
  | 'f' => some (.inText ('\x0c' :: read))
  | 'n' => some (.inText ('\n' :: read))
  | 'r' => some (.inText ('\r' :: read))
  | 't' => some (.inText ('\t' :: read))
  | 'u' => some (.code read none 4 0)
  | _ => none

/-- A finished code unit: a character, the first half of one, or the second half. -/
def finishUnit (read : List Char) (high : Option Nat) (unit : Nat) : Option Mode :=
  match high with
  | none =>
    if 0xD800 ≤ unit ∧ unit ≤ 0xDBFF then some (.pair read unit)
    else if 0xDC00 ≤ unit ∧ unit ≤ 0xDFFF then none
    else some (.inText (Char.ofNat unit :: read))
  | some h =>
    if 0xDC00 ≤ unit ∧ unit ≤ 0xDFFF then
      some (.inText (Char.ofNat (0x10000 + (h - 0xD800) * 0x400 + (unit - 0xDC00)) :: read))
    else none

/-- One character. A character that ends a number or a word is read again between tokens. -/
def Mode.step : Mode → Char → Option (List Token × Mode)
  | .between, c => startToken c
  | .inText read, c =>
    if c = '"' then some ([.text (String.ofList read.reverse)], .between)
    else if c = '\\' then some ([], .escape read)
    else if c.toNat < 0x20 then none
    else some ([], .inText (c :: read))
  | .escape read, c => do return ([], ← afterBackslash read c)
  | .code read high owed unit, c => do
    let unit := unit * 16 + (← hexDigit? c)
    if owed ≤ 1 then return ([], ← finishUnit read high unit)
    else return ([], .code read high (owed - 1) unit)
  | .pair read high, c => if c = '\\' then some ([], .pairEscape read high) else none
  | .pairEscape read high, c => if c = 'u' then some ([], .code read (some high) 4 0) else none
  | .number read, c =>
    if isNumeric c then some ([], .number (c :: read))
    else do
      let token ← numberToken? read
      let (out, mode) ← startToken c
      return (token :: out, mode)
  | .word read, c =>
    if isLetter c then some ([], .word (c :: read))
    else do
      let token ← wordToken? read
      let (out, mode) ← startToken c
      return (token :: out, mode)

/-- What is left to emit when the text ends. -/
def Mode.finish : Mode → Option (List Token)
  | .between => some []
  | .number read => do return [← numberToken? read]
  | .word read => do return [← wordToken? read]
  | _ => none

/-- All tokens from a mode on. -/
def tokensFrom (m : Mode) : List Char → Option (List Token)
  | [] => m.finish
  | c :: cs => do
    let (out, next) ← m.step c
    let rest ← tokensFrom next cs
    return out ++ rest

/-- The tokens of a text. -/
def tokens? (cs : List Char) : Option (List Token) := tokensFrom .between cs

end SymbolContext.Json
