import SymbolContext.Json.Value

/-!
# Writing JSON

A value as text, without white space between tokens. Strings are written with the short escapes
where there are some, and with a code for every other control character.
-/

namespace SymbolContext.Json

/-- Two hexadecimal digits. -/
def hexPair (n : Nat) : List Char := [Nat.digitChar (n / 16 % 16), Nat.digitChar (n % 16)]

/-- One character of a string. -/
def writeChar (c : Char) : List Char :=
  if c = '"' then ['\\', '"']
  else if c = '\\' then ['\\', '\\']
  else if c = '\x08' then ['\\', 'b']
  else if c = '\x0c' then ['\\', 'f']
  else if c = '\n' then ['\\', 'n']
  else if c = '\r' then ['\\', 'r']
  else if c = '\t' then ['\\', 't']
  else if c.toNat < 0x20 then ['\\', 'u', '0', '0'] ++ hexPair c.toNat
  else [c]

/-- A string between quotes. -/
def writeText (s : String) : List Char := '"' :: s.toList.flatMap writeChar ++ ['"']

mutual

/-- A value as characters. -/
def write : Json → List Char
  | .null => ['n', 'u', 'l', 'l']
  | .bool true => ['t', 'r', 'u', 'e']
  | .bool false => ['f', 'a', 'l', 's', 'e']
  | .int i => (Decimal.intText i).toList
  | .float d => d.text.toList
  | .str s => writeText s
  | .arr items => '[' :: writeItems items ++ [']']
  | .obj fields => '\x7b' :: writeFields fields ++ ['\x7d']

/-- The elements of a list. -/
def writeItems : List Json → List Char
  | [] => []
  | [v] => write v
  | v :: rest => write v ++ ',' :: writeItems rest

/-- The fields of an object. -/
def writeFields : List (String × Json) → List Char
  | [] => []
  | [(k, v)] => writeText k ++ ':' :: write v
  | (k, v) :: rest => writeText k ++ ':' :: write v ++ ',' :: writeFields rest

end

/-- A value as text. -/
def render (v : Json) : String := String.ofList (write v)

/-- An object as text, with its fields in the given order. -/
def renderFields (fields : List (String × Json)) : String :=
  String.ofList ('\x7b' :: writeFields fields ++ ['\x7d'])

end SymbolContext.Json
