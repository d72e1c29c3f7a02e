import SymbolContext.Json.Decode
import SymbolContext.Symbol.Hit

/-!
# Symbol payloads

The structures in which servers describe places and symbols, and what a search result decodes to.

* `Hit.listOfJson` reads a search result: the first of the three shapes that fits the
  whole list is taken, and if none fits the error is that of the last.
-/

namespace SymbolContext

namespace Position

/-- The fields of a position. -/
structure Draft where
  line : Option Nat := none
  character : Option Nat := none

/-- A position in a payload. -/
def record : Record Draft Position where
  name := "Position"
  fields := ["line", "character"]
  empty := {}
  visit := fun field v d =>
    match field with
    | "line" => do return { d with line := some (← Decoder.nat32 v) }
    | _ => do return { d with character := some (← Decoder.nat32 v) }
  finish := fun d => do
    let line ← Decoder.require "line" d.line
    let character ← Decoder.require "character" d.character
    return ⟨line, character⟩

/-- The position as a payload. -/
def toJson (p : Position) : Json :=
  .mkObj [("line", .nat p.line), ("character", .nat p.column)]

end Position

namespace Range

/-- The fields of a range. -/
structure Draft where
  start : Option Position := none
  stop : Option Position := none

/-- A range in a payload. -/
def record : Record Draft Range where
  name := "Range"
  fields := ["start", "end"]
  empty := {}
  visit := fun field v d =>
    match field with
    | "start" => do return { d with start := some (← Position.record.decode v) }
    | _ => do return { d with stop := some (← Position.record.decode v) }
  finish := fun d => do
    let start ← Decoder.require "start" d.start
    let stop ← Decoder.require "end" d.stop
    return ⟨start, stop⟩

/-- The range as a payload. -/
def toJson (r : Range) : Json := .mkObj [("start", r.start.toJson), ("end", r.stop.toJson)]

end Range

/-- A URI in a payload. -/
def Decoder.uri : Decoder Uri := fun v => do
  let text ← Decoder.text v
  match Uri.parse text with
  | .ok u => .ok u
  | .error e => .error (.refused e.message)

/-- A range in the file that a URI names. -/
structure Place where
  uri : Uri
  range : Range
deriving DecidableEq, Repr

namespace Place

/-- The fields of a place. -/
structure Draft where
  uri : Option Uri := none
  range : Option Range := none

/-- A place in a payload. -/
def record : Record Draft Place where
  name := "Location"
  fields := ["uri", "range"]
  empty := {}
  visit := fun field v d =>
    match field with
    | "uri" => do return { d with uri := some (← Decoder.uri v) }
    | _ => do return { d with range := some (← Range.record.decode v) }
  finish := fun d => do
    let uri ← Decoder.require "uri" d.uri
    let range ← Decoder.require "range" d.range
    return ⟨uri, range⟩

/-- The place as a payload. -/
def toJson (p : Place) : Json := .mkObj [("uri", .str p.uri.text), ("range", p.range.toJson)]

/-- The place as a location in a file. -/
def toLocation (p : Place) : Location := ⟨p.uri.filePath, p.range⟩

/-- A file without a range in a payload. -/
def wholeFile : Record (Option Uri) Uri where
  name := "WorkspaceLocation"
  fields := ["uri"]
  empty := none
  visit := fun _ v _ => do return some (← Decoder.uri v)
  finish := Decoder.require "uri"

end Place

/-- The place of a location in a file. -/
def Location.toPlace (l : Location) : Except Uri.Error Place := do
  return ⟨← Uri.ofPath l.path, l.range⟩

/-- A symbol with its place. -/
structure SymbolInfo where
  name : String
  kind : SymbolKind
  tags : Option (List Int)
  deprecated : Option Bool
  place : Place
  container : Option String
deriving DecidableEq, Repr

namespace SymbolInfo

/-- The fields of a symbol with its place. -/
structure Draft where
  name : Option String := none
  kind : Option SymbolKind := none
  tags : Option (List Int) := none
  deprecated : Option Bool := none
  place : Option Place := none
  container : Option String := none

/-- A symbol with its place in a payload. -/
def record : Record Draft SymbolInfo where
  name := "SymbolInformation"
  fields := ["name", "kind", "tags", "deprecated", "location", "containerName"]
  empty := {}
  visit := fun field v d =>
    match field with
    | "name" => do return { d with name := some (← Decoder.text v) }
    | "kind" => do return { d with kind := some (← Decoder.int32 v) }
    | "tags" => do return { d with tags := ← Decoder.optional (.list Decoder.int32) v }
    | "deprecated" => do return { d with deprecated := ← Decoder.optional Decoder.flag v }
    | "location" => do return { d with place := some (← Place.record.decode v) }
    | _ => do return { d with container := ← Decoder.optional Decoder.text v }
  finish := fun d => do
    let name ← Decoder.require "name" d.name
    let kind ← Decoder.require "kind" d.kind
    let place ← Decoder.require "location" d.place
    return ⟨name, kind, d.tags, d.deprecated, place, d.container⟩

/-- The symbol as a payload. -/
def toJson (s : SymbolInfo) : Json :=
  .mkObj ([("name", .str s.name), ("kind", .int s.kind), ("location", s.place.toJson)] ++
    Json.given "tags" (fun ts => .arr (ts.map .int)) s.tags ++
    Json.given "deprecated" .bool s.deprecated ++
    Json.given "containerName" .str s.container)

/-- The symbol as a match. -/
def toMatch (s : SymbolInfo) : Hit :=
  .indexed s.name s.kind s.container s.place.toLocation

end SymbolInfo

/-- A symbol whose place may be a file without a range. -/
structure LooseSymbol where
  name : String
  kind : SymbolKind
  container : Option String
  place : Place ⊕ Uri
deriving DecidableEq, Repr

namespace LooseSymbol

/-- The fields of such a symbol that are kept. -/
structure Draft where
  name : Option String := none
  kind : Option SymbolKind := none
  container : Option String := none
  place : Option (Place ⊕ Uri) := none

/-- A place, or a file if it is no place. -/
def placeOrFile : Decoder (Place ⊕ Uri) := fun v =>
  match Place.record.decode v with
  | .ok p => .ok (.inl p)
  | .error _ =>
    match Place.wholeFile.decode v with
    | .ok u => .ok (.inr u)
    | .error _ => .error (.noAlternative "OneOf")

/-- Such a symbol in a payload. As a list it has all six fields: one that may be null may not be
left out, not even the last. -/
def record : Record Draft LooseSymbol where
  name := "WorkspaceSymbol"
  fields := ["name", "kind", "tags", "containerName", "location", "data"]
  empty := {}
  visit := fun field v d =>
    match field with
    | "name" => do return { d with name := some (← Decoder.text v) }
    | "kind" => do return { d with kind := some (← Decoder.int32 v) }
    | "tags" => do
      let _ ← Decoder.optional (.list Decoder.int32) v
      return d
    | "containerName" => do return { d with container := ← Decoder.optional Decoder.text v }
    | "location" => do return { d with place := some (← placeOrFile v) }
    | _ => .ok d
  finish := fun d => do
    let name ← Decoder.require "name" d.name
    let kind ← Decoder.require "kind" d.kind
    let place ← Decoder.require "location" d.place
    return ⟨name, kind, d.container, place⟩

/-- Where the symbol is; a file without a range stands for its top. -/
def location (s : LooseSymbol) : Location :=
  match s.place with
  | .inl p => p.toLocation
  | .inr u => ⟨u.filePath, .point ⟨0, 0⟩⟩

/-- The symbol as a match. -/
def toMatch (s : LooseSymbol) : Hit :=
  .lightweight s.name s.kind s.container s.location

end LooseSymbol

/-- A name and a place. -/
structure NamedPlace where
  name : String
  place : Place
deriving DecidableEq, Repr

namespace NamedPlace

/-- The fields of a name with a place. -/
structure Draft where
  name : Option String := none
  place : Option Place := none

/-- A name and a place in a payload. -/
def record : Record Draft NamedPlace where
  name := "MinimalWire"
  fields := ["name", "location"]
  empty := {}
  visit := fun field v d =>
    match field with
    | "name" => do return { d with name := some (← Decoder.text v) }
    | _ => do return { d with place := some (← Place.record.decode v) }
  finish := fun d => do
    let name ← Decoder.require "name" d.name
    let place ← Decoder.require "location" d.place
    return ⟨name, place⟩

/-- The name and the place as a match. -/
def toMatch (n : NamedPlace) : Hit := .minimal n.name n.place.toLocation

end NamedPlace

/-- **The matches of a search result**, in the server's order. -/
def Hit.listOfJson (payload : Json) : Except DecodeError (List Hit) :=
  if payload.isNull then .ok []
  else
    match Decoder.list SymbolInfo.record.decode payload with
    | .ok symbols => .ok (symbols.map SymbolInfo.toMatch)
    | .error _ =>
      match Decoder.list LooseSymbol.record.decode payload with
      | .ok symbols => .ok (symbols.map LooseSymbol.toMatch)
      | .error _ => do
        let symbols ← Decoder.list NamedPlace.record.decode payload
        return symbols.map NamedPlace.toMatch

end SymbolContext
