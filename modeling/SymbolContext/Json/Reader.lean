import SymbolContext.Json.Token

/-!
# Reading JSON

The tokens are consumed by a machine with a stack of the lists and objects that are still open.
At most `depthLimit` of them may be open at once.

* `parse?` reads a whole text as one value.
-/

namespace SymbolContext.Json

/-- How many lists and objects may be open at once. -/
def depthLimit : Nat := 127

/-- A list or an object that is still open: the elements so far in reverse, or the fields so far
and the name read last. -/
inductive Open where
  | list (items : List Json)
  | object (fields : List (String × Json)) (name : String)
deriving Repr

/-- What must come next. -/
inductive Expect where
  /-- A value. -/
  | value
  /-- The first element of a list, or its end. -/
  | firstItem
  /-- The first name of an object, or its end. -/
  | firstName
  /-- A name. -/
  | name
  /-- The colon after a name. -/
  | colon
  /-- A comma, or the end of the innermost list or object. -/
  | more
  /-- Nothing: the text has been read as a value. -/
  | done (v : Json)
deriving Repr

/-- The lists and objects still open, innermost first, and what must come next. -/
structure Reading where
  stack : List Open
  expect : Expect
deriving Repr

/-- A finished value goes to the innermost list or object. -/
def Reading.finish (v : Json) : List Open → Reading
  | [] => ⟨[], .done v⟩
  | .list items :: rest => ⟨.list (v :: items) :: rest, .more⟩
  | .object fields name :: rest => ⟨.object (insert name v fields) name :: rest, .more⟩

/-- Open a list or an object, if that is not too deep. -/
def Reading.open? (o : Open) (expect : Expect) (stack : List Open) : Option Reading :=
  if stack.length < depthLimit then some ⟨o :: stack, expect⟩ else none

/-- The beginning of a value, or a whole one. -/
def Reading.value? (stack : List Open) : Token → Option Reading
  | .scalar v => some (finish v stack)
  | .text s => some (finish (.str s) stack)
  | .openList => open? (.list []) .firstItem stack
  | .openObject => open? (.object [] "") .firstName stack
  | _ => none

/-- Close the innermost list. -/
def Reading.closeList? : List Open → Option Reading
  | .list items :: rest => some (finish (.arr items.reverse) rest)
  | _ => none

/-- Close the innermost object. -/
def Reading.closeObject? : List Open → Option Reading
  | .object fields _ :: rest => some (finish (.obj fields) rest)
  | _ => none

/-- Take the name of a field of the innermost object. -/
def Reading.name? (s : String) : List Open → Option Reading
  | .object fields _ :: rest => some ⟨.object fields s :: rest, .colon⟩
  | _ => none

/-- What a comma asks for next. -/
def Reading.next? : List Open → Option Reading
  | .list items :: rest => some ⟨.list items :: rest, .value⟩
  | .object fields name :: rest => some ⟨.object fields name :: rest, .name⟩
  | [] => none

/-- One token. -/
def Reading.step (r : Reading) (t : Token) : Option Reading :=
  match r.expect, t with
  | .value, t => value? r.stack t
  | .firstItem, .closeList => closeList? r.stack
  | .firstItem, t => value? r.stack t
  | .firstName, .closeObject => closeObject? r.stack
  | .firstName, .text s => name? s r.stack
  | .name, .text s => name? s r.stack
  | .colon, .colon => some ⟨r.stack, .value⟩
  | .more, .comma => next? r.stack
  | .more, .closeList => closeList? r.stack
  | .more, .closeObject => closeObject? r.stack
  | _, _ => none

/-- All tokens from a state on. -/
def Reading.run (r : Reading) : List Token → Option Reading
  | [] => some r
  | t :: ts => do (← r.step t).run ts

/-- The value that a text stands for. -/
def parse? (s : String) : Option Json := do
  let ts ← tokens? s.toList
  match (← (Reading.mk [] .value).run ts).expect with
  | .done v => some v
  | _ => none

end SymbolContext.Json
