import SymbolContext.Rehearsal.Peer
import SymbolContext.Rpc.Connection

/-!
# The link between a client and a scripted server

Client and server take turns in virtual time: whenever the client waits, everything that is under
way is carried over, and time moves only when nothing is. So a request that the server answers is
never late, and one that it does not answer always is.

* `Link.settle` carries everything over.
* `Link.channel` is the link as a way to exchange messages.
-/

namespace SymbolContext.Rehearsal

/-- **A client and a scripted server.** -/
structure Link where
  connection : Rpc.Connection := {}
  peer : Peer
  decoder : Frame.Decoder := {}
  /-- Whether the client has stopped reading. -/
  readEnded : Bool := false
  /-- What the log says of writing to a server that reads no more. -/
  brokenPipe : String := "broken pipe"
  log : List LogLine := []

namespace Link

/-- Add lines to the log. -/
def say (l : Link) (lines : List LogLine) : Link := { l with log := l.log ++ lines }

/-- The client's texts go to the server. -/
def carryOut (l : Link) : Link :=
  if l.connection.outbox.isEmpty then l
  else if l.peer.inputOpen then
    { l with
      peer := l.peer.take l.connection.outbox
      connection := { l.connection with outbox := [] } }
  else
    Link.say { l with connection := l.connection.closeOutbound }
      [.error ("Failed to send message: " ++ (Frame.Error.io l.brokenPipe).message)]

/-- Inbound texts arrive at the client. -/
def arrive (l : Link) : List String → Link
  | [] => l
  | text :: rest =>
    let (connection, lines) := l.connection.receive text
    (Link.say { l with connection } lines).arrive rest

/-- The client stops reading. -/
def endRead (l : Link) : Link :=
  { l with readEnded := true, connection := l.connection.endInbound }

/-- What went wrong at the end of the inbound octets, if they have ended. -/
def readFailure (l : Link) (failure : Option Frame.Error) : Option Frame.Error :=
  match failure with
  | some e => some e
  | none =>
    if l.peer.outputOpen then none
    else
      match l.decoder.last with
      | (.error e, _) => some e
      | (.ok _, _) => none

/-- The server's octets go to the client. -/
def carryIn (l : Link) : Link :=
  let bytes := l.peer.output
  let l := { l with peer := { l.peer with output := [] } }
  if l.readEnded then l
  else
    let (texts, failure, decoder) := (l.decoder.feed bytes).drain
    let l := arrive { l with decoder } texts
    match l.readFailure failure with
    | some e => (l.say [.error ("Failed to receive message: " ++ e.message)]).endRead
    | none => if l.peer.outputOpen then l else l.endRead

/-- One round trip. -/
def exchange (l : Link) : Link := l.carryOut.carryIn

/-- Carry everything over. A second round takes the client's replies to the server, which asks
for nothing more. -/
def settle (l : Link) : Link := l.exchange.exchange

/-- The outcome of a request that has been waited for. -/
def outcome (l : Link) (id : Nat) (method : String) (limit : Duration) :
    Except RpcFailure Json × Link :=
  match l.connection.delivery? id with
  | some d => (d.outcome, l)
  | none => (.error (.timedOut method limit), { l with connection := l.connection.giveUp id })

/-- Begin a request. -/
def start (l : Link) (method : String) (params : Option Json) : Except RpcFailure Nat × Link :=
  let (r, connection) := l.connection.start method params
  (r, { l with connection })

/-- Begin a request that is to be answered within a limit. A limit of no time at all ends the
wait before anything is carried over. -/
def begin (l : Link) (method : String) (params : Option Json) (limit : Duration) :
    Except RpcFailure Nat × Link :=
  match l.start method params with
  | (.ok id, l) =>
    if limit.nanos = 0 then
      (.error (.timedOut method limit), { l with connection := l.connection.giveUp id })
    else (.ok id, l)
  | r => r

/-- Make a request. -/
def request (l : Link) (method : String) (params : Option Json) (limit : Duration) :
    Except RpcFailure Json × Link :=
  match l.begin method params limit with
  | (.error e, l) => (.error e, l)
  | (.ok id, l) => l.settle.outcome id method limit

/-- Send a notification. -/
def notify (l : Link) (method : String) (params : Option Json) : Except RpcFailure Unit × Link :=
  let (r, connection) := l.connection.notify method params
  (r, { l with connection })

/-- Begin several requests, in order. -/
def startAll (l : Link) :
    List (String × Option Json × Duration) →
      List (Except RpcFailure Nat × String × Duration) × Link
  | [] => ([], l)
  | (method, params, limit) :: rest =>
    let (r, l) := l.begin method params limit
    let (started, l) := l.startAll rest
    ((r, method, limit) :: started, l)

/-- The outcomes of requests that have been begun. -/
def outcomes (l : Link) :
    List (Except RpcFailure Nat × String × Duration) → List (Except RpcFailure Json) × Link
  | [] => ([], l)
  | (.error e, _, _) :: rest =>
    let (rs, l) := l.outcomes rest
    (.error e :: rs, l)
  | (.ok id, method, limit) :: rest =>
    let (r, l) := l.outcome id method limit
    let (rs, l) := l.outcomes rest
    (r :: rs, l)

/-- Make several requests at once. -/
def batch (l : Link) (requests : List (String × Option Json × Duration)) :
    List (Except RpcFailure Json) × Link :=
  let (started, l) := l.startAll requests
  l.settle.outcomes started

/-- The server acts on its own. -/
def prompt (l : Link) (actions : List Action) : Link :=
  { l with peer := l.peer.perform .null actions }

/-- Queue what the server does about the next request. -/
def enqueue (l : Link) (actions : List Action) : Link :=
  { l with peer := l.peer.enqueue actions }

/-- The link as a way to exchange messages. -/
def channel : Rpc.Channel (StateM Link) where
  request := fun method params limit l => l.request method params limit
  notify := fun method params l => l.notify method params

end Link

end SymbolContext.Rehearsal
