import SymbolContext.Json.Decode
import SymbolContext.Text.Lines
import SymbolContext.Text.Utf8

/-!
# Scripts

What a scripted language server does with the messages it is sent. A script is data: a list of
rules, each with the messages it applies to and what is done about them.

* `Script.ofJson` reads a script.
-/

namespace SymbolContext.Rehearsal

/-- What a scripted server does. -/
inductive Action where
  /-- Answer the message with a result. -/
  | result (v : Json)
  /-- Answer the message with an error. -/
  | error (v : Json)
  /-- Send a message; the identifier `$ID` stands for that of the message at hand. -/
  | message (v : Json)
  /-- Send a text as the body of a frame. -/
  | body (text : String)
  /-- Send octets as they are. -/
  | bytes (octets : List UInt8)
  /-- Close the output. -/
  | close
  /-- Read no more. -/
  | closeInput
  /-- End. -/
  | exit
deriving Repr

/-- The value of a hexadecimal digit. -/
def hexValue? (c : Char) : Option Nat :=
  if '0' ≤ c ∧ c ≤ '9' then some (c.toNat - '0'.toNat)
  else if 'a' ≤ c ∧ c ≤ 'f' then some (c.toNat - 'a'.toNat + 10)
  else if 'A' ≤ c ∧ c ≤ 'F' then some (c.toNat - 'A'.toNat + 10)
  else none

/-- Octets written as pairs of hexadecimal digits. -/
def ofHex? : List Char → Option (List UInt8)
  | [] => some []
  | [_] => none
  | a :: b :: rest => do
    let high ← hexValue? a
    let low ← hexValue? b
    let more ← ofHex? rest
    return UInt8.ofNat (16 * high + low) :: more

/-- Octets as pairs of hexadecimal digits. -/
def toHex (bytes : List UInt8) : String :=
  String.ofList (bytes.flatMap fun b =>
    [Nat.digitChar (b.toNat / 16), Nat.digitChar (b.toNat % 16)])

/-- A text, if the value is one. -/
def text? : Json → Option String
  | .str s => some s
  | _ => none

/-- The elements, if the value is a list. -/
def list? : Json → Option (List Json)
  | .arr vs => some vs
  | _ => none

/-- The fields, if the value is an object. -/
def fields? : Json → Option (List (String × Json))
  | .obj fields => some fields
  | _ => none

/-- An action in a script. -/
def Action.ofField? : String × Json → Option Action
  | ("result", v) => some (.result v)
  | ("error", v) => some (.error v)
  | ("message", v) => some (.message v)
  | ("text", v) => (text? v).map .body
  | ("bytes", v) => (text? v).map fun s => .bytes (Utf8.encode s)
  | ("hex", v) => do return .bytes (← ofHex? (← text? v).toList)
  | ("close", _) => some .close
  | ("close_input", _) => some .closeInput
  | ("exit", _) => some .exit
  | _ => none

/-- An action in a script. -/
def Action.ofJson? (v : Json) : Option Action := ((fields? v).getD []).findSome? ofField?

/-- The actions in a list; what is none is skipped. -/
def actionList (v : Json) : List Action := ((list? v).getD []).filterMap Action.ofJson?

/-- What is done about some messages. -/
structure Rule where
  method : String
  /-- Pointers into the message, and the values there. -/
  conditions : List (String × Json)
  /-- How often the rule applies. -/
  times : Option Nat
  actions : List Action
deriving Repr

/-- A script. -/
structure Script where
  rules : List Rule := []
  /-- Whether requests that no rule applies to are answered. -/
  defaults : Bool
deriving Repr

/-- Undo the escapes of one step of a pointer. -/
def unescape : List Char → List Char
  | '~' :: '1' :: rest => '/' :: unescape rest
  | '~' :: '0' :: rest => '~' :: unescape rest
  | c :: rest => c :: unescape rest
  | [] => []

/-- One step into a value. -/
def step? (v : Json) (key : List Char) : Option Json :=
  match v with
  | .obj fields => fields.lookup (String.ofList key)
  | .arr vs => do vs[← Decimal.natUpTo? Decimal.wordMax key]?
  | _ => none

/-- The value that a pointer leads to. -/
def lookup? (v : Json) (pointer : String) : Option Json :=
  match Text.splitAtChar '/' pointer.toList with
  | [] :: keys => (keys.map unescape).foldlM step? v
  | _ => none

/-- Whether a rule applies to a message. -/
def Rule.applies (r : Rule) (method : String) (message : Json) : Bool :=
  r.method == method && r.times != some 0 && r.conditions.all fun (pointer, v) =>
    match lookup? message pointer with
    | some w => w.same v
    | none => false

/-- A rule in a script. -/
def Rule.ofJson (v : Json) : Rule where
  method := ((v.field? "method").bind text?).getD ""
  conditions := ((v.field? "match").bind fields?).getD []
  times :=
    match v.field? "times" with
    | some (.int (.ofNat n)) => some n
    | _ => none
  actions := ((v.field? "do").map actionList).getD []

/-- **A script**; whether it answers by default is said there, or by `defaults`. -/
def Script.ofJson (defaults : Bool) (v : Json) : Script where
  rules := (((v.field? "rules").bind list?).getD []).map Rule.ofJson
  defaults :=
    match v.field? "defaults" with
    | some (.bool b) => b
    | _ => defaults

end SymbolContext.Rehearsal
