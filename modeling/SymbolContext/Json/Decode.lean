import SymbolContext.Json.Value
import SymbolContext.Text.Quoted

/-!
# Decoding payloads

A decoder turns a value into something typed, or says why it cannot.

* `DecodeError` lists the causes and `DecodeError.message` words them.
* `Record` describes a structure with named fields. It is read from an object, whose unknown
  fields are skipped, or from a list of its fields in declaration order. The fields of an object
  are visited in the order of their names and the first bad one is reported; what is missing is
  reported only after that, in declaration order.
-/

namespace SymbolContext

/-- What was met in a payload. -/
inductive Found where
  | null
  | bool (b : Bool)
  | int (i : Int)
  | float (d : Double)
  | text (s : String)
  | sequence
  | map
deriving DecidableEq, Repr

namespace Found

/-- What a value is met as. -/
def ofJson : Json → Found
  | .null => .null
  | .bool b => .bool b
  | .int i => .int i
  | .float d => .float d
  | .str s => .text s
  | .arr _ => .sequence
  | .obj _ => .map

/-- How it is named in a message. -/
def message : Found → String
  | .null => "null"
  | .bool true => "boolean `true`"
  | .bool false => "boolean `false`"
  | .int i => "integer `" ++ Decimal.intText i ++ "`"
  | .float d => "floating point `" ++ d.text ++ "`"
  | .text s => "string " ++ Text.quoted s
  | .sequence => "sequence"
  | .map => "map"

end Found

/-- Why a payload could not be decoded. -/
inductive DecodeError where
  /-- A value of another type than the expected one. -/
  | wrongType (found : Found) (expected : String)
  /-- An integer outside the expected type. -/
  | outOfRange (i : Int) (expected : String)
  /-- A required field that is not there. -/
  | missing (field : String)
  /-- A list with fewer elements than a record has fields. -/
  | tooShort (length : Nat) (record : String) (arity : Nat)
  /-- A list with more elements than a record has fields. -/
  | tooLong (length : Nat)
  /-- A text of the right type that does not parse, with the reason. -/
  | refused (reason : String)
  /-- A value that fits none of the alternatives. -/
  | noAlternative (name : String)
deriving DecidableEq, Repr

/-- The wording of a decoding error. -/
def DecodeError.message : DecodeError → String
  | .wrongType found expected => "invalid type: " ++ found.message ++ ", expected " ++ expected
  | .outOfRange i expected =>
    "invalid value: integer `" ++ Decimal.intText i ++ "`, expected " ++ expected
  | .missing field => "missing field `" ++ field ++ "`"
  | .tooShort length record arity =>
    "invalid length " ++ Decimal.text length ++ ", expected struct " ++ record ++ " with " ++
      Decimal.text arity ++ " elements"
  | .tooLong length =>
    "invalid length " ++ Decimal.text length ++ ", expected fewer elements in array"
  | .refused reason => reason
  | .noAlternative name => "data did not match any variant of untagged enum " ++ name

/-- A decoder. -/
abbrev Decoder (α : Type) := Json → Except DecodeError α

namespace Decoder

/-- Report that `v` is not of the expected type. -/
def mismatch {α : Type} (expected : String) (v : Json) : Except DecodeError α :=
  .error (.wrongType (.ofJson v) expected)

/-- Any value. -/
def any : Decoder Json := .ok

/-- A string. -/
def text : Decoder String
  | .str s => .ok s
  | v => mismatch "a string" v

/-- A truth value. -/
def flag : Decoder Bool
  | .bool b => .ok b
  | v => mismatch "a boolean" v

/-- An integer between two bounds. -/
def intBetween (low high : Int) (expected : String) : Decoder Int
  | .int i => if low ≤ i ∧ i ≤ high then .ok i else .error (.outOfRange i expected)
  | v => mismatch expected v

/-- A signed integer of 32 bits. -/
def int32 : Decoder Int := intBetween (-(Nat.pow 2 31)) (Nat.pow 2 31 - 1) "i32"

/-- An unsigned integer of 32 bits. -/
def nat32 : Decoder Nat := fun v => do return (← intBetween 0 (Nat.pow 2 32 - 1) "u32" v).toNat

/-- Something that may be `null`. -/
def optional {α : Type} (d : Decoder α) : Decoder (Option α)
  | .null => .ok none
  | v => do return some (← d v)

/-- The elements of a list, up to the first that does not decode. -/
def items {α : Type} (d : Decoder α) : List Json → Except DecodeError (List α)
  | [] => .ok []
  | v :: rest => do
    let a ← d v
    let more ← items d rest
    return a :: more

/-- A list. -/
def list {α : Type} (d : Decoder α) : Decoder (List α)
  | .arr vs => items d vs
  | v => mismatch "a sequence" v

/-- The value of a required field. -/
def require {α : Type} (field : String) : Option α → Except DecodeError α
  | some a => .ok a
  | none => .error (.missing field)

end Decoder

/-- **A structure with named fields.** `π` holds what has been read so far. -/
structure Record (π α : Type) where
  /-- The name for messages. -/
  name : String
  /-- The fields in declaration order. -/
  fields : List String
  /-- Nothing read yet. -/
  empty : π
  /-- Read one field. -/
  visit : String → Json → π → Except DecodeError π
  /-- Put the structure together, unless something required is missing. -/
  finish : π → Except DecodeError α

namespace Record

variable {π α : Type}

/-- Visit the known fields of an object. -/
def visitFields (r : Record π α) (p : π) : List (String × Json) → Except DecodeError π
  | [] => .ok p
  | (k, v) :: rest => do
    let p ← if k ∈ r.fields then r.visit k v p else .ok p
    r.visitFields p rest

/-- Visit the elements of a list as the fields in declaration order. -/
def visitItems (r : Record π α) (length : Nat) (p : π) :
    List String → List Json → Except DecodeError π
  | [], _ => .ok p
  | _ :: _, [] => .error (.tooShort length r.name r.fields.length)
  | k :: ks, v :: vs => do
    let p ← r.visit k v p
    r.visitItems length p ks vs

/-- Decode an object or a list of fields. -/
def decode (r : Record π α) : Decoder α
  | .obj fields => do r.finish (← r.visitFields r.empty fields)
  | .arr vs => do
    let a ← r.finish (← r.visitItems vs.length r.empty r.fields vs)
    if r.fields.length < vs.length then .error (.tooLong vs.length) else .ok a
  | v => Decoder.mismatch ("struct " ++ r.name) v

end Record

end SymbolContext
