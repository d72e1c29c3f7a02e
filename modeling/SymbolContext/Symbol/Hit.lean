import SymbolContext.Location

/-!
# Symbol matches

What a search by name finds. Servers answer in three shapes that carry more or less with a name
and a location, and are trusted more or less.
-/

namespace SymbolContext

/-- A kind of symbol, by its number in the protocol. -/
abbrev SymbolKind := Int

/-- The names of the kinds from 1 on. -/
def SymbolKind.names : List String :=
  ["File", "Module", "Namespace", "Package", "Class", "Method", "Property", "Field",
   "Constructor", "Enum", "Interface", "Function", "Variable", "Constant", "String", "Number",
   "Boolean", "Array", "Object", "Key", "Null", "EnumMember", "Struct", "Event", "Operator",
   "TypeParameter"]

/-- The name of a kind. -/
def SymbolKind.name (kind : SymbolKind) : String :=
  if 1 ≤ kind then (names[kind.toNat - 1]?).getD "Unknown" else "Unknown"

/-- A symbol that a search has found. -/
inductive Hit where
  /-- From an index: the kind always tells something. -/
  | indexed (name : String) (kind : SymbolKind) (container : Option String)
      (location : Location)
  /-- From a light search: the kind tells something only with a container. -/
  | lightweight (name : String) (kind : SymbolKind) (container : Option String)
      (location : Location)
  /-- A name and a location, and no more. -/
  | minimal (name : String) (location : Location)
deriving DecidableEq, Repr

namespace Hit

/-- The name of the symbol. -/
def name : Hit → String
  | indexed n _ _ _ => n
  | lightweight n _ _ _ => n
  | minimal n _ => n

/-- Where the symbol is. -/
def location : Hit → Location
  | indexed _ _ _ l => l
  | lightweight _ _ _ l => l
  | minimal _ l => l

/-- The container to show: present and not empty. -/
def container? : Hit → Option String
  | indexed _ _ c _ => c.filter (· ≠ "")
  | lightweight _ _ c _ => c.filter (· ≠ "")
  | minimal _ _ => none

/-- The kind to show. -/
def kind? : Hit → Option SymbolKind
  | indexed _ k _ _ => some k
  | lightweight n k c l => (container? (lightweight n k c l)).map fun _ => k
  | minimal _ _ => none

/-- Whether the match answers a query. A search has already resolved qualified names, so only the
barest shape is held to its name. -/
def accepts (query : String) : Hit → Bool
  | minimal n _ => n == query
  | _ => true

end Hit

end SymbolContext
