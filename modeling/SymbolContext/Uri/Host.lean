import SymbolContext.Json.Token
import SymbolContext.Text.Decimal
import SymbolContext.Text.Lines

/-!
# Addresses in brackets

The grammar of IPv6 addresses: eight groups of up to four hexadecimal digits, of which the last
two may be written as an IPv4 address, and of which one run may be left out.
-/

namespace SymbolContext.Uri

/-- Whether a character is a hexadecimal digit. -/
def isHex (c : Char) : Bool := (Json.hexDigit? c).isSome

/-- One to four hexadecimal digits. -/
def isGroup (cs : List Char) : Bool := cs ≠ [] && cs.length ≤ 4 && cs.all isHex

/-- A number up to 255 without leading zeros. -/
def isOctet (cs : List Char) : Bool :=
  match Decimal.value? cs with
  | some n => n ≤ 255 && cs = Decimal.digits n
  | none => false

/-- Four octets with dots between them. -/
def isIpv4 (cs : List Char) : Bool :=
  let octets := Text.splitAtChar '.' cs
  octets.length = 4 && octets.all isOctet

/-- How many groups a list of groups stands for, if it is well formed; an IPv4 address at the end
stands for two. -/
def groupCount? : List (List Char) → Option Nat
  | [] => some 0
  | [g] => if isGroup g then some 1 else if isIpv4 g then some 2 else none
  | g :: rest => if isGroup g then (groupCount? rest).map (· + 1) else none

/-- The groups between colons; nothing stands for no group. -/
def groups (cs : List Char) : List (List Char) :=
  if cs = [] then [] else Text.splitAtChar ':' cs

/-- Cut a text at its first two colons in a row. -/
def cutAtGap : List Char → Option (List Char × List Char)
  | [] => none
  | ':' :: ':' :: rest => some ([], rest)
  | c :: rest => (cutAtGap rest).map fun (a, b) => (c :: a, b)

/-- Whether a text is an IPv6 address. -/
def isIpv6 (cs : List Char) : Bool :=
  match cutAtGap cs with
  | none => groupCount? (groups cs) = some 8
  | some (a, b) =>
    (groups a).all isGroup &&
      match groupCount? (groups b) with
      | some n => (groups a).length + n ≤ 7
      | none => false

end SymbolContext.Uri
