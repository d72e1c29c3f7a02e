import SymbolContext.Symbol.Payload

/-!
# Outlines

The symbols of one file, as a flat list or as a forest. Only their ranges matter here; the rest
is kept so that an outline can be written back.

* `Outline.ofJson` reads an outline; a list that fits both forms is flat.
* `Outline.ranges` lists the ranges of all symbols, parents before their children.
-/

namespace SymbolContext

/-- A symbol with the symbols inside it. -/
inductive OutlineSymbol where
  | mk (name : String) (detail : Option String) (kind : SymbolKind) (tags : Option (List Int))
      (deprecated : Option Bool) (range selection : Range)
      (children : Option (List OutlineSymbol))
deriving Repr

namespace OutlineSymbol

mutual

/-- The ranges of a symbol and of all symbols inside it. -/
def ranges : OutlineSymbol → List Range
  | .mk _ _ _ _ _ range _ none => [range]
  | .mk _ _ _ _ _ range _ (some children) => range :: rangesOf children

/-- The ranges of some symbols and of all symbols inside them. -/
def rangesOf : List OutlineSymbol → List Range
  | [] => []
  | s :: rest => ranges s ++ rangesOf rest

end

/-- What a symbol writes besides its children. -/
def own (name : String) (detail : Option String) (kind : SymbolKind) (tags : Option (List Int))
    (deprecated : Option Bool) (range selection : Range) : List (String × Json) :=
  [("name", .str name), ("kind", .int kind), ("range", range.toJson),
    ("selectionRange", selection.toJson)] ++
    Json.given "detail" .str detail ++
    Json.given "tags" (fun ts => .arr (ts.map .int)) tags ++
    Json.given "deprecated" .bool deprecated

mutual

/-- The symbol as a payload. -/
def toJson : OutlineSymbol → Json
  | .mk name detail kind tags deprecated range selection none =>
    .mkObj (own name detail kind tags deprecated range selection)
  | .mk name detail kind tags deprecated range selection (some children) =>
    .mkObj (own name detail kind tags deprecated range selection ++
      [("children", .arr (toJsons children))])

/-- Some symbols as payloads. -/
def toJsons : List OutlineSymbol → List Json
  | [] => []
  | s :: rest => toJson s :: toJsons rest

end

/-- The fields of a symbol. -/
structure Draft where
  name : Option String := none
  detail : Option String := none
  kind : Option SymbolKind := none
  tags : Option (List Int) := none
  deprecated : Option Bool := none
  range : Option Range := none
  selection : Option Range := none
  children : Option (List OutlineSymbol) := none

/-- A symbol in a payload, given how to read the symbols inside it. -/
def record (inner : Decoder OutlineSymbol) : Record Draft OutlineSymbol where
  name := "DocumentSymbol"
  fields := ["name", "detail", "kind", "tags", "deprecated", "range", "selectionRange",
    "children"]
  empty := {}
  visit := fun field v d =>
    match field with
    | "name" => do return { d with name := some (← Decoder.text v) }
    | "detail" => do return { d with detail := ← Decoder.optional Decoder.text v }
    | "kind" => do return { d with kind := some (← Decoder.int32 v) }
    | "tags" => do return { d with tags := ← Decoder.optional (.list Decoder.int32) v }
    | "deprecated" => do return { d with deprecated := ← Decoder.optional Decoder.flag v }
    | "range" => do return { d with range := some (← Range.record.decode v) }
    | "selectionRange" => do return { d with selection := some (← Range.record.decode v) }
    | _ => do return { d with children := ← Decoder.optional (.list inner) v }
  finish := fun d => do
    let name ← Decoder.require "name" d.name
    let kind ← Decoder.require "kind" d.kind
    let range ← Decoder.require "range" d.range
    let selection ← Decoder.require "selectionRange" d.selection
    return .mk name d.detail kind d.tags d.deprecated range selection d.children

/-- Read a symbol with at most `depth` levels inside it. -/
def ofJsonWithin : Nat → Decoder OutlineSymbol
  | 0 => Decoder.mismatch "struct DocumentSymbol"
  | depth + 1 => (record (ofJsonWithin depth)).decode

/-- Read a symbol. A symbol is nested less deeply than the value it is read from. -/
def ofJson : Decoder OutlineSymbol := fun v => ofJsonWithin (v.depth + 1) v

end OutlineSymbol

/-- The symbols of a file. -/
inductive Outline where
  | flat (symbols : List SymbolInfo)
  | nested (symbols : List OutlineSymbol)
deriving Repr

namespace Outline

/-- The ranges of all symbols. -/
def ranges : Outline → List Range
  | flat symbols => symbols.map fun s => s.place.range
  | nested symbols => OutlineSymbol.rangesOf symbols

/-- Read an outline. -/
def ofJson : Decoder Outline := fun v =>
  match Decoder.list SymbolInfo.record.decode v with
  | .ok symbols => .ok (.flat symbols)
  | .error _ =>
    match Decoder.list OutlineSymbol.ofJson v with
    | .ok symbols => .ok (.nested symbols)
    | .error _ => .error (.noAlternative "DocumentSymbolResponse")

end Outline

end SymbolContext
