import SymbolContext.Diagnostic
import SymbolContext.Error
import SymbolContext.Rpc.Message

/-!
# Connections

The client's end of a connection, as a machine. It numbers its requests, keeps the numbers of
those that wait for a response, and answers the few requests that a server sends.

The steps are `start` (begin a request), `notify`, `receive` (an inbound text arrives),
`giveUp` (a request has waited long enough), `endInbound` (no more texts will arrive) and
`closeOutbound` (no more texts can be written). `start` and `endInbound` are put together from
smaller ones, which may be interleaved when several requests are on their way: `proceed` is one
move of a request, `markClosed` and `wakeAll` are those of the end.
-/

namespace SymbolContext.Rpc

/-- What a waiting request is woken with: a response, or nothing when none can come any more. -/
abbrev Delivery := Option Response

/-- **The client's end of a connection.** -/
structure Connection where
  /-- The number of the next request. -/
  nextId : Nat := 1
  /-- The requests whose response would be delivered. -/
  pending : List Nat := []
  /-- What has been delivered. -/
  delivered : List (Nat × Delivery) := []
  /-- Whether the inbound texts have ended. -/
  closed : Bool := false
  /-- Texts on their way out. -/
  outbox : List String := []
  /-- Whether texts can still be written. -/
  writable : Bool := true
deriving Repr

/-- How far a request has come. -/
inductive Stage where
  /-- It has a number. -/
  | numbered
  /-- Its number waits for a response. -/
  | expected
  /-- It has found the connection open. -/
  | admitted
  /-- It has been sent. -/
  | waiting
  /-- It has failed, and its number is still to be withdrawn. -/
  | leaving (e : RpcFailure)
  /-- It is over. -/
  | done (outcome : Except RpcFailure Json)

/-- What the one who asks is told when the request `id` has begun. -/
def Stage.begun (id : Nat) : Stage → Except RpcFailure Nat
  | .done (.error e) => .error e
  | _ => .ok id

/-- The code of an answer to an unknown method. -/
def unknownMethodCode : Int := -32601

/-- Whether a request of the server is granted without ado. -/
def isGranted (method : String) : Bool :=
  ["window/workDoneProgress/create", "client/registerCapability",
   "client/unregisterCapability"].contains method

/-- How many items a request for configuration asks for. -/
def itemCount (params : Option Json) : Nat :=
  match params.bind (Json.field? "items") with
  | some (.arr items) => items.length
  | _ => 0

/-- Whether a request of the server is refused. -/
def isRefused (method : String) : Bool :=
  !isGranted method && method != "workspace/configuration"

/-- **The answer to a request of the server.** -/
def reply (r : Request) : Response :=
  if isGranted r.method then ⟨r.id, some .null, none⟩
  else if isRefused r.method then
    ⟨r.id, none, some ⟨unknownMethodCode, "Method not found: " ++ r.method⟩⟩
  else ⟨r.id, some (.arr (List.replicate (itemCount r.params) .null)), none⟩

/-- What the log says of a request of the server. -/
def refusalLog (r : Request) : List LogLine :=
  if isRefused r.method then [.warn ("Refusing unsupported server request: " ++ r.method)] else []

/-- What a response tells the one who asked. -/
def Response.outcome (r : Response) : Except RpcFailure Json :=
  match r.error with
  | some e => .error (.server e.code e.text)
  | none => .ok (r.result.getD .null)

namespace Connection

/-- The failure of a message that cannot be handed over. -/
def unwritable : RpcFailure := .transport "outbound channel closed"

/-- Take a number. -/
def takeNumber (c : Connection) : Nat × Connection := (c.nextId, { c with nextId := c.nextId + 1 })

/-- Wait for the response to a number. -/
def expect (c : Connection) (id : Nat) : Connection := { c with pending := c.pending ++ [id] }

/-- Wait for a response no more. -/
def forget (c : Connection) (id : Nat) : Connection :=
  { c with pending := c.pending.filter (· ≠ id) }

/-- Put a text on its way, if texts can be written. -/
def enqueue (c : Connection) (text : String) : Connection :=
  if c.writable then { c with outbox := c.outbox ++ [text] } else c

/-- **The next move of a request**, which nothing interrupts. The number waits before the request
looks whether the connection is closed: one that finds it open is woken when it closes. -/
def proceed (c : Connection) (id : Nat) (method : String) (params : Option Json) :
    Stage → Stage × Connection
  | .numbered => (.expected, c.expect id)
  | .expected => (if c.closed then .leaving .closed else .admitted, c)
  | .admitted =>
    (if c.writable then .waiting else .leaving unwritable,
      c.enqueue (requestText id method params))
  | .leaving e => (.done (.error e), c.forget id)
  | stage => (stage, c)

/-- **Begin a request**, and give its number if it is on its way. Four moves in a row bring it
there, or end it. -/
def start (c : Connection) (method : String) (params : Option Json) :
    Except RpcFailure Nat × Connection :=
  let id := c.takeNumber.1
  let move (r : Stage × Connection) := r.2.proceed id method params r.1
  let r := move (move (move (move (.numbered, c.takeNumber.2))))
  (r.1.begun id, r.2)

/-- Send a notification. -/
def notify (c : Connection) (method : String) (params : Option Json) :
    Except RpcFailure Unit × Connection :=
  if c.writable then (.ok (), c.enqueue (notificationText method params))
  else (.error unwritable, c)

/-- Deliver a response to the request that waits for it, if one does. -/
def deliver (c : Connection) (r : Response) : Connection :=
  match r.number? with
  | some id =>
    if id ∈ c.pending then { c.forget id with delivered := c.delivered ++ [(id, some r)] } else c
  | none => c

/-- **An inbound text arrives.** -/
def receive (c : Connection) (text : String) : Connection × List LogLine :=
  match Message.parse? text with
  | some (.response r) => (c.deliver r, [])
  | some (.request r) => (c.enqueue (reply r).text, refusalLog r)
  | some (.notification _) => (c, [])
  | none => (c, [])

/-- A request has waited long enough. -/
def giveUp (c : Connection) (id : Nat) : Connection := c.forget id

/-- From here on, a request that begins fails at once. -/
def markClosed (c : Connection) : Connection := { c with closed := true }

/-- Wake everyone who waits; no response will come. -/
def wakeAll (c : Connection) : Connection :=
  { c with pending := [], delivered := c.delivered ++ c.pending.map fun id => (id, none) }

/-- **No more texts will arrive.** -/
def endInbound (c : Connection) : Connection := c.markClosed.wakeAll

/-- **No more texts can be written.** -/
def closeOutbound (c : Connection) : Connection := { c with writable := false, outbox := [] }

/-- What has been delivered to a request. -/
def delivery? (c : Connection) (id : Nat) : Option Delivery := c.delivered.lookup id

end Connection

/-- What a delivery tells the one who asked. -/
def Delivery.outcome : Delivery → Except RpcFailure Json
  | some r => r.outcome
  | none => .error .closed

/-- What an outcome tells one who asked for something typed. -/
def typedOutcome {α : Type} (decode : Decoder α) : Except RpcFailure Json → Except RpcFailure α
  | .error e => .error e
  | .ok v => (decode v).mapError fun e => .undecodable e.message

/-- **A way to exchange messages with a server**, in some monad. -/
structure Channel (m : Type → Type) where
  /-- Ask, and wait for the response no longer than the limit. -/
  request : String → Option Json → Duration → m (Except RpcFailure Json)
  /-- Tell. -/
  notify : String → Option Json → m (Except RpcFailure Unit)

end SymbolContext.Rpc
