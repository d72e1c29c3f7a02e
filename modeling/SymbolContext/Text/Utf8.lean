/-!
# UTF-8

Octets are read one at a time by a small machine that owes some continuation octets, or none.
It emits `some c` for every character it completes and `none` for every maximal piece that can be
no character.

* `encode` writes text as octets.
* `decode?` reads octets that are wholly well formed.
* `decodeLossy` reads any octets, with one U+FFFD for every ill-formed piece.
-/

namespace SymbolContext.Utf8

/-- The octets of a text. -/
def encode (s : String) : List UInt8 := s.toList.flatMap String.utf8EncodeChar

/-- A character that has begun: how many octets it still needs after the next one, the bounds of
the next octet, and the bits read so far. -/
structure Partial where
  owed : Nat
  low : UInt8
  high : UInt8
  bits : Nat
deriving DecidableEq, Repr

/-- Where the machine stands between two octets. -/
inductive State where
  /-- Between characters. -/
  | start
  /-- Inside a character. -/
  | inside (p : Partial)
deriving DecidableEq, Repr

/-- **The first octet of a character.** The bounds of the second octet rule out overlong forms,
surrogates and values above U+10FFFF. -/
def first (b : UInt8) : List (Option Char) × State :=
  if b ≤ 0x7F then ([some (Char.ofNat b.toNat)], .start)
  else if 0xC2 ≤ b ∧ b ≤ 0xDF then ([], .inside ⟨0, 0x80, 0xBF, b.toNat % 32⟩)
  else if b = 0xE0 then ([], .inside ⟨1, 0xA0, 0xBF, 0⟩)
  else if b = 0xED then ([], .inside ⟨1, 0x80, 0x9F, 13⟩)
  else if 0xE1 ≤ b ∧ b ≤ 0xEF then ([], .inside ⟨1, 0x80, 0xBF, b.toNat % 16⟩)
  else if b = 0xF0 then ([], .inside ⟨2, 0x90, 0xBF, 0⟩)
  else if b = 0xF4 then ([], .inside ⟨2, 0x80, 0x8F, 4⟩)
  else if 0xF1 ≤ b ∧ b ≤ 0xF3 then ([], .inside ⟨2, 0x80, 0xBF, b.toNat % 8⟩)
  else ([none], .start)

/-- **One octet.** An octet that cannot continue the character begun closes the ill-formed piece
and is read again as a first octet. -/
def step : State → UInt8 → List (Option Char) × State
  | .start, b => first b
  | .inside p, b =>
    if p.low ≤ b ∧ b ≤ p.high then
      match p.owed with
      | 0 => ([some (Char.ofNat (p.bits * 64 + b.toNat % 64))], .start)
      | k + 1 => ([], .inside ⟨k, 0x80, 0xBF, p.bits * 64 + b.toNat % 64⟩)
    else (none :: (first b).1, (first b).2)

/-- What is left to emit when the octets end. -/
def finish : State → List (Option Char)
  | .start => []
  | .inside _ => [none]

/-- All that the machine emits from a state. -/
def scanFrom (s : State) : List UInt8 → List (Option Char)
  | [] => finish s
  | b :: rest => (step s b).1 ++ scanFrom (step s b).2 rest

/-- The characters of some octets, with `none` for every maximal ill-formed piece. -/
def scan (bytes : List UInt8) : List (Option Char) := scanFrom .start bytes

/-- The text of well-formed octets. -/
def decode? (bytes : List UInt8) : Option String := ((scan bytes).mapM id).map String.ofList

/-- The text of any octets; each ill-formed piece reads as U+FFFD. -/
def decodeLossy (bytes : List UInt8) : String :=
  String.ofList ((scan bytes).map fun c => c.getD '\uFFFD')

end SymbolContext.Utf8
