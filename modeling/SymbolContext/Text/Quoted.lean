import SymbolContext.Text.Extending
import SymbolContext.Text.Unprintable

/-!
# Quoted text

A text between double quotes, for messages: what could not be seen, or would run into its
neighbour, is written as an escape.
-/

namespace SymbolContext.Text

/-- A code point between braces, in lower-case hexadecimal. -/
def escapeCode (c : Char) : List Char :=
  ['\\', 'u', '\x7b'] ++ Nat.toDigits 16 c.toNat ++ ['\x7d']

/-- One character of a quoted text. -/
def quoteChar (c : Char) : List Char :=
  if c = '\x00' then ['\\', '0']
  else if c = '\t' then ['\\', 't']
  else if c = '\r' then ['\\', 'r']
  else if c = '\n' then ['\\', 'n']
  else if c = '\\' then ['\\', '\\']
  else if c = '"' then ['\\', '"']
  else if isExtending c || isUnprintable c then escapeCode c
  else [c]

/-- The text between double quotes. -/
def quoted (s : String) : String :=
  String.ofList (['"'] ++ s.toList.flatMap quoteChar ++ ['"'])

end SymbolContext.Text
