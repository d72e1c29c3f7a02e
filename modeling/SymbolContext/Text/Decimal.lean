/-!
# Decimal numbers

Writing natural numbers and integers in base ten, and reading them with an optional sign and an
upper bound.
-/

namespace SymbolContext.Decimal

/-- The digits of a number in base ten, without leading zeros. -/
def digits (n : Nat) : List Char := Nat.toDigits 10 n

/-- A natural number as text. -/
def text (n : Nat) : String := String.ofList (digits n)

/-- An integer as text. -/
def intText : Int → String
  | .ofNat n => text n
  | .negSucc n => "-" ++ text (n + 1)

/-- The value of an ASCII digit. -/
def digit? (c : Char) : Option Nat :=
  if '0' ≤ c ∧ c ≤ '9' then some (c.toNat - '0'.toNat) else none

/-- The value of a non-empty string of ASCII digits. -/
def value? : List Char → Option Nat
  | [] => none
  | c :: cs => (c :: cs).foldl (fun acc d => do return 10 * (← acc) + (← digit? d)) (some 0)

/-- A number of at most `bound`, with an optional plus sign. -/
def natUpTo? (bound : Nat) (cs : List Char) : Option Nat := do
  let n ← value? (match cs with | '+' :: rest => rest | _ => cs)
  if n ≤ bound then some n else none

/-- A number between `-(bound + 1)` and `bound`, with an optional sign. -/
def intUpTo? (bound : Nat) (cs : List Char) : Option Int :=
  match cs with
  | '-' :: rest => do
    let n ← value? rest
    if n ≤ bound + 1 then some (-(n : Int)) else none
  | _ => (natUpTo? bound cs).map Int.ofNat

/-- The greatest machine word. -/
def wordMax : Nat := Nat.pow 2 64 - 1

end SymbolContext.Decimal
