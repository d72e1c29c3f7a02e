import SymbolContext.Text.Decimal

/-!
# Doubles

A double is kept as its 64 bits, so that two of them can be told apart, and is computed with
through `Float`.

* `shortest` finds the fewest decimal digits that read back as the double, and of those the
  nearest to it, in exact arithmetic.
* `text` writes these digits, with an exponent from `1e16` on and below `1e-5`.
-/

namespace SymbolContext

/-- An IEEE 754 number of 64 bits. -/
structure Double where
  bits : UInt64
deriving DecidableEq, Repr

namespace Double

/-- A `Float`, kept as its bits. -/
def ofFloat (f : Float) : Double := ⟨f.toBits⟩

/-- The `Float` with these bits. -/
def toFloat (d : Double) : Float := Float.ofBits d.bits

/-- Whether the sign bit is set. -/
def isNegative (d : Double) : Bool := d.bits.toNat / Nat.pow 2 63 = 1

/-- The eleven exponent bits. -/
def exponentBits (d : Double) : Nat := d.bits.toNat / Nat.pow 2 52 % Nat.pow 2 11

/-- The fifty-two fraction bits. -/
def fractionBits (d : Double) : Nat := d.bits.toNat % Nat.pow 2 52

/-- The integer `m` of the magnitude `m * 2 ^ (scale - 1075)`. -/
def significand (d : Double) : Nat :=
  if d.exponentBits = 0 then d.fractionBits else Nat.pow 2 52 + d.fractionBits

/-- The number `scale` of the magnitude `m * 2 ^ (scale - 1075)`. -/
def scale (d : Double) : Nat := max 1 d.exponentBits

/-- A decimal number `digits * 10 ^ exponent`. -/
structure Digits where
  digits : Nat
  exponent : Int
deriving DecidableEq, Repr

/-- The least power of ten, of at most `fuel`, that brings `num / den` to one or more. -/
def shiftUp (num den : Nat) : Nat → Nat
  | 0 => 0
  | fuel + 1 => if den ≤ num then 0 else shiftUp (num * 10) den fuel + 1

/-- The number of decimal digits before the point of `num / den`; zero or less below one. -/
def magnitude (num den : Nat) : Int :=
  if den ≤ num then (Decimal.digits (num / den)).length else 1 - (shiftUp num den 400 : Int)

/-- Remove zeros at the end of the digits, at most `fuel` of them. -/
def Digits.strip : Nat → Digits → Digits
  | 0, x => x
  | fuel + 1, x =>
    if x.digits ≠ 0 ∧ x.digits % 10 = 0 then strip fuel ⟨x.digits / 10, x.exponent + 1⟩ else x

/-- **One grid.** Of the two neighbours of `num / den` among the multiples of `10 ^ e`, the one
that lies between the bounds, or the nearer if both do. The bounds are `low / den` and
`high / den`, and count themselves when `closed`. -/
def onGrid (num den low high : Nat) (closed : Bool) (e : Int) : Option Digits :=
  -- Bring `10 ^ e` to one, so that the grid is the integers.
  let up := if e < 0 then Nat.pow 10 e.natAbs else 1
  let den' := if e < 0 then den else den * Nat.pow 10 e.natAbs
  let below := num * up / den'
  let inside (c : Nat) : Bool :=
    if closed then low * up ≤ c * den' && c * den' ≤ high * up
    else low * up < c * den' && c * den' < high * up
  let nearBelow := 2 * (num * up) ≤ (2 * below + 1) * den'
  if inside below && (nearBelow || !inside (below + 1)) then some ⟨below, e⟩
  else if inside (below + 1) then some ⟨below + 1, e⟩
  else none

/-- **The fewest digits that read back** as the magnitude of a finite double. -/
def shortest (d : Double) : Digits :=
  if d.significand = 0 then ⟨0, 0⟩
  else
    -- Four times the magnitude and its two rounding bounds, over a common denominator.
    let times := Nat.pow 2 (d.scale - 1077)
    let den := Nat.pow 2 (1077 - d.scale)
    let num := 4 * d.significand * times
    let high := (4 * d.significand + 2) * times
    let gap := if d.fractionBits = 0 ∧ 1 < d.exponentBits then 1 else 2
    let low := (4 * d.significand - gap) * times
    let closed := d.significand % 2 = 0
    let top := magnitude num den
    let found := (List.range 17).findSome? fun (k : Nat) =>
      onGrid num den low high closed (top - ((k + 1 : Nat) : Int))
    Digits.strip 20 (found.getD ⟨0, 0⟩)

/-- The sign of a number in front of its digits. -/
def signed (d : Double) (cs : List Char) : List Char := if d.isNegative then '-' :: cs else cs

/-- The digits with a point or an exponent, so that the text always reads as a double. -/
def text (d : Double) : String :=
  let x := d.shortest
  let ds := Decimal.digits x.digits
  let point := (ds.length : Int) + x.exponent
  let cs :=
    if x.digits = 0 then ['0', '.', '0']
    else if 0 ≤ x.exponent ∧ point ≤ 16 then
      ds ++ List.replicate x.exponent.toNat '0' ++ ['.', '0']
    else if 0 < point ∧ point ≤ 16 then ds.take point.toNat ++ '.' :: ds.drop point.toNat
    else if -5 < point ∧ point ≤ 0 then '0' :: '.' :: List.replicate point.natAbs '0' ++ ds
    else
      let mantissa := ds.take 1 ++ (if ds.length = 1 then [] else '.' :: ds.drop 1)
      mantissa ++ 'e' :: (Decimal.intText (point - 1)).toList
  String.ofList (d.signed cs)

end Double

end SymbolContext
