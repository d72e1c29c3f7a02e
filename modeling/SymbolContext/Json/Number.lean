import SymbolContext.Json.Value

/-!
# Number literals

A literal without fraction and exponent is an integer if it fits 64 bits (with a sign bit if it
is negative, and without one otherwise). Every other literal is a double: as many digits as fit
64 bits are taken as one integer, and this is multiplied or divided by a power of ten in double
arithmetic. A literal whose double would be infinite is refused.
-/

namespace SymbolContext.Json

/-- A literal taken apart: the sign, the digits before the point, the digits after it, and the
exponent with its sign. -/
structure Literal where
  negative : Bool
  whole : List Char
  fraction : Option (List Char)
  exponent : Option (Bool × List Char)
deriving DecidableEq, Repr

/-- Whether a character is an ASCII digit. -/
def isDigit (c : Char) : Bool := '0' ≤ c && c ≤ '9'

/-- The digits in front of a text, which must be there, and what follows them. -/
def takeDigits? (cs : List Char) : Option (List Char × List Char) :=
  match cs.takeWhile isDigit with
  | [] => none
  | ds => some (ds, cs.dropWhile isDigit)

/-- The fraction in front of a text, if any. -/
def takeFraction? : List Char → Option (Option (List Char) × List Char)
  | '.' :: rest => do
    let (ds, rest) ← takeDigits? rest
    return (some ds, rest)
  | cs => some (none, cs)

/-- The exponent in front of a text, if any: whether it is negative, and its digits. -/
def takeExponent? : List Char → Option (Option (Bool × List Char) × List Char)
  | [] => some (none, [])
  | c :: rest =>
    if c = 'e' ∨ c = 'E' then do
      let (negative, rest) := match rest with
        | '-' :: r => (true, r)
        | '+' :: r => (false, r)
        | r => (false, r)
      let (ds, rest) ← takeDigits? rest
      return (some (negative, ds), rest)
    else some (none, c :: rest)

/-- Take a literal apart. A number has no leading zeros. -/
def Literal.ofChars? (cs : List Char) : Option Literal := do
  let (negative, cs) := match cs with
    | '-' :: r => (true, r)
    | r => (false, r)
  let (whole, cs) ← takeDigits? cs
  if whole.head? = some '0' ∧ 1 < whole.length then none
  else
    let (fraction, cs) ← takeFraction? cs
    let (exponent, cs) ← takeExponent? cs
    if cs = [] then some ⟨negative, whole, fraction, exponent⟩ else none

/-- The value of some digits. -/
def digitsValue (ds : List Char) : Nat := (Decimal.value? ds).getD 0

/-- Append digits to a number as long as it fits a word; also how many were appended. -/
def absorb (n : Nat) : List Char → Nat × Nat
  | [] => (n, 0)
  | c :: cs =>
    let m := n * 10 + digitsValue [c]
    if m ≤ Decimal.wordMax then
      let (r, k) := absorb m cs
      (r, k + 1)
    else (n, 0)

/-- `f * 10 ^ e` in double arithmetic, or `none` if it overflows. -/
def scaled (f : Float) (e : Int) : Option Float :=
  if e.natAbs ≤ 308 then
    let power := Float.ofScientific 1 false e.natAbs
    if 0 ≤ e then
      if (f * power).isInf then none else some (f * power)
    else some (f / power)
  else if f == 0.0 then some f
  else if 0 ≤ e then none
  else scaled (f / Float.ofScientific 1 false 308) (e + 308)
termination_by e.natAbs
decreasing_by omega

/-- The greatest exponent that is computed with. -/
def exponentMax : Nat := Nat.pow 2 31 - 1

/-- The magnitude of a literal as a double. -/
def Literal.magnitude? (l : Literal) : Option Float :=
  let (n, taken) := absorb 0 l.whole
  let skipped := l.whole.length - taken
  let (n, places) := absorb n (l.fraction.getD [])
  let base : Int := (skipped : Int) - places
  let f := n.toUInt64.toFloat
  match l.exponent with
  | none => scaled f base
  | some (negative, ds) =>
    let e := digitsValue ds
    if exponentMax < e then
      if n ≠ 0 ∧ negative = false then none else some 0.0
    else scaled f (if negative then base - e else base + e)

/-- The literal as a double. -/
def Literal.double? (l : Literal) : Option Json := do
  let f ← l.magnitude?
  return .float (Double.ofFloat (if l.negative then -f else f))

/-- The literal as a value. -/
def Literal.value? (l : Literal) : Option Json :=
  match l.fraction, l.exponent with
  | none, none =>
    let n := digitsValue l.whole
    if l.negative then
      if n ≠ 0 ∧ n ≤ Nat.pow 2 63 then some (.int (-(n : Int))) else l.double?
    else if n ≤ Decimal.wordMax then some (.int n)
    else l.double?
  | _, _ => l.double?

/-- The number that a literal stands for. -/
def number? (cs : List Char) : Option Json := do (← Literal.ofChars? cs).value?

end SymbolContext.Json
