import SymbolContext.Json.Decode
import SymbolContext.Json.Reader
import SymbolContext.Json.Writer

/-!
# Messages

The three kinds of messages that the two ends of a connection exchange. An inbound text is told
apart by whether it has a method, and an identifier that is not null.

* `Message.parse?` reads an inbound text.
* `requestText`, `notificationText` and `Response.text` write outbound ones, with the fields of the
  message in the order in which they are declared.
-/

namespace SymbolContext.Rpc

/-- The error that a response carries. -/
structure ErrorObject where
  code : Int
  text : String
deriving DecidableEq, Repr

namespace ErrorObject

/-- The fields of an error. -/
structure Draft where
  code : Option Int := none
  text : Option String := none

/-- An error in a response. -/
def record : Record Draft ErrorObject where
  name := "ErrorObject"
  fields := ["code", "message", "data"]
  empty := {}
  visit := fun field v d =>
    match field with
    | "code" => do return { d with code := some (← Decoder.int32 v) }
    | "message" => do return { d with text := some (← Decoder.text v) }
    | _ => .ok d
  finish := fun d => do
    let code ← Decoder.require "code" d.code
    let text ← Decoder.require "message" d.text
    return ⟨code, text⟩

end ErrorObject

/-- A call that asks for a response. -/
structure Request where
  id : Json
  method : String
  params : Option Json
deriving Repr

/-- The answer to a request. -/
structure Response where
  id : Json
  result : Option Json
  error : Option ErrorObject
deriving Repr

/-- A call that asks for nothing. -/
structure Notification where
  method : String
  params : Option Json
deriving Repr

/-- The fields of any message; the version must be a string, and any will do. -/
structure Draft where
  version : Option String := none
  id : Option Json := none
  method : Option String := none
  params : Option Json := none
  result : Option Json := none
  error : Option ErrorObject := none

/-- Read one field of a message. -/
def Draft.visit (field : String) (v : Json) (d : Draft) : Except DecodeError Draft :=
  match field with
  | "jsonrpc" => do return { d with version := some (← Decoder.text v) }
  | "id" => .ok { d with id := some v }
  | "method" => do return { d with method := some (← Decoder.text v) }
  | "params" => do return { d with params := ← Decoder.optional Decoder.any v }
  | "result" => do return { d with result := ← Decoder.optional Decoder.any v }
  | _ => do return { d with error := ← Decoder.optional ErrorObject.record.decode v }

/-- A request in a text. -/
def Request.record : Record Draft Request where
  name := "Request"
  fields := ["jsonrpc", "id", "method", "params"]
  empty := {}
  visit := Draft.visit
  finish := fun d => do
    let _ ← Decoder.require "jsonrpc" d.version
    let id ← Decoder.require "id" d.id
    let method ← Decoder.require "method" d.method
    return ⟨id, method, d.params⟩

/-- A response in a text. -/
def Response.record : Record Draft Response where
  name := "Response"
  fields := ["jsonrpc", "id", "result", "error"]
  empty := {}
  visit := Draft.visit
  finish := fun d => do
    let _ ← Decoder.require "jsonrpc" d.version
    let id ← Decoder.require "id" d.id
    return ⟨id, d.result, d.error⟩

/-- A notification in a text. -/
def Notification.record : Record Draft Notification where
  name := "Notification"
  fields := ["jsonrpc", "method", "params"]
  empty := {}
  visit := Draft.visit
  finish := fun d => do
    let _ ← Decoder.require "jsonrpc" d.version
    let method ← Decoder.require "method" d.method
    return ⟨method, d.params⟩

/-- An inbound message. -/
inductive Message where
  | request (r : Request)
  | response (r : Response)
  | notification (n : Notification)
deriving Repr

/-- Whether a value has a field, whatever it holds. -/
def hasField (name : String) (v : Json) : Bool := (v.field? name).isSome

/-- Whether a value has an identifier that is not null. -/
def hasId (v : Json) : Bool :=
  match v.field? "id" with
  | some id => !id.isNull
  | none => false

/-- The message that a value stands for, if any. -/
def Message.ofJson? (v : Json) : Option Message :=
  match hasField "method" v, hasId v with
  | true, true => (Request.record.decode v).toOption.map .request
  | true, false => (Notification.record.decode v).toOption.map .notification
  | false, true => (Response.record.decode v).toOption.map .response
  | false, false => none

/-- The message that a text stands for, if any. -/
def Message.parse? (text : String) : Option Message := do Message.ofJson? (← Json.parse? text)

/-- The field that names the version of the protocol. -/
def versionField : String × Json := ("jsonrpc", .str "2.0")

/-- A request as text. -/
def requestText (id : Nat) (method : String) (params : Option Json) : String :=
  Json.renderFields ([versionField, ("id", .nat id), ("method", .str method)] ++
    Json.given "params" (fun v => v) params)

/-- A notification as text. -/
def notificationText (method : String) (params : Option Json) : String :=
  Json.renderFields ([versionField, ("method", .str method)] ++
    Json.given "params" (fun v => v) params)

/-- An error as a payload. -/
def ErrorObject.toJson (e : ErrorObject) : Json :=
  .obj [("code", .int e.code), ("message", .str e.text)]

/-- The fields of a response, as they are written. -/
def Response.fields (r : Response) : List (String × Json) :=
  [versionField, ("id", r.id)] ++ Json.given "result" (fun v => v) r.result ++
    Json.given "error" ErrorObject.toJson r.error

/-- A response as text. -/
def Response.text (r : Response) : String := Json.renderFields r.fields

/-- The number of the request that a response answers: an identifier that is an unsigned
integer. -/
def Response.number? (r : Response) : Option Nat :=
  match r.id with
  | .int (.ofNat n) => some n
  | _ => none

end SymbolContext.Rpc
