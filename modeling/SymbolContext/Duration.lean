import SymbolContext.Text.Decimal

/-!
# Durations

A duration is a number of nanoseconds. Its text takes the largest of the units second,
millisecond, microsecond and nanosecond that is not above the duration, and writes the rest as a
decimal fraction without trailing zeros.
-/

namespace SymbolContext

/-- A span of time. -/
structure Duration where
  nanos : Nat
deriving DecidableEq, Repr

namespace Duration

/-- A span of `n` milliseconds. -/
def ofMillis (n : Nat) : Duration := ⟨n * 1000000⟩

/-- A span of `n` seconds. -/
def ofSeconds (n : Nat) : Duration := ⟨n * 1000000000⟩

/-- The whole milliseconds of a span. -/
def millis (d : Duration) : Nat := d.nanos / 1000000

instance : Add Duration := ⟨fun a b => ⟨a.nanos + b.nanos⟩⟩

/-- `n` digits of a fraction, without the zeros at its end. -/
def fraction (width n : Nat) : List Char :=
  let ds := Decimal.digits n
  let padded := List.replicate (width - ds.length) '0' ++ ds
  (padded.reverse.dropWhile (· = '0')).reverse

/-- A number of `10 ^ -width` parts of a unit, in that unit. -/
def inUnit (width : Nat) (unit : String) (n : Nat) : String :=
  let rest := fraction width (n % Nat.pow 10 width)
  let point := if rest = [] then "" else "." ++ String.ofList rest
  Decimal.text (n / Nat.pow 10 width) ++ point ++ unit

/-- The duration as text. -/
def text (d : Duration) : String :=
  if 1000000000 ≤ d.nanos then inUnit 9 "s" d.nanos
  else if 1000000 ≤ d.nanos then inUnit 6 "ms" d.nanos
  else if 1000 ≤ d.nanos then inUnit 3 "µs" d.nanos
  else inUnit 0 "ns" d.nanos

end Duration

end SymbolContext
