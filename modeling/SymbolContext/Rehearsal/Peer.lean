import SymbolContext.Frame
import SymbolContext.Rehearsal.Script
import SymbolContext.Rpc.Message

/-!
# The scripted server

A server that follows a script. It takes messages one at a time, keeps what it has received, and
puts octets on its output.
-/

namespace SymbolContext.Rehearsal

/-- **A scripted server.** -/
structure Peer where
  rules : List Rule
  defaults : Bool
  /-- What is done about the next requests, before any rule. -/
  queued : List (List Action) := []
  inputOpen : Bool := true
  outputOpen : Bool := true
  /-- Whether the server is a process of its own: it ends when it is told to. -/
  isProcess : Bool := false
  /-- Everything received, in order. -/
  received : List Json := []
  /-- Octets on their way to the client. -/
  output : List UInt8 := []

namespace Peer

/-- A server with a script. -/
def ofScript (s : Script) (isProcess : Bool) : Peer :=
  { rules := s.rules, defaults := s.defaults, isProcess }

/-- Put octets on the output. -/
def emit (p : Peer) (bytes : List UInt8) : Peer :=
  if p.outputOpen then { p with output := p.output ++ bytes } else p

/-- Send a value as a message. -/
def send (p : Peer) (v : Json) : Peer := p.emit (Frame.encode v.render)

/-- An answer to a message. -/
def answer (id : Json) (field : String) (v : Json) : Json :=
  .mkObj [Rpc.versionField, ("id", id), (field, v)]

/-- A message with its identifier filled in. -/
def fill (id : Json) : Json → Json
  | .obj fields => .obj (fields.map fun (k, v) =>
      match k, v with
      | "id", .str "$ID" => ("id", id)
      | k, v => (k, v))
  | v => v

/-- Close both ends. -/
def finish (p : Peer) : Peer := { p with inputOpen := false, outputOpen := false }

/-- Do one thing about the message with the identifier `id`. -/
def act (id : Json) (p : Peer) : Action → Peer
  | .result v => p.send (answer id "result" v)
  | .error v => p.send (answer id "error" v)
  | .message v => p.send (fill id v)
  | .body text => p.emit (Frame.encode text)
  | .bytes octets => p.emit octets
  | .close => { p with outputOpen := false }
  | .closeInput => if p.isProcess then p else { p with inputOpen := false }
  | .exit => p.finish

/-- Do some things in order. -/
def perform (p : Peer) (id : Json) (actions : List Action) : Peer := actions.foldl (act id) p

/-- Use up one application of a rule. -/
def Rule.used (r : Rule) : Rule := { r with times := r.times.map (· - 1) }

/-- The actions of the first rule that applies, and the rules after its use. -/
def rule? (method : String) (message : Json) : List Rule → Option (List Action × List Rule)
  | [] => none
  | r :: rest =>
    if r.applies method message then some (r.actions, Rule.used r :: rest)
    else (rule? method message rest).map fun (actions, rules) => (actions, r :: rules)

/-- What is answered when no rule applies. -/
def defaultResult (method : String) : Json :=
  if method = "initialize" then .mkObj [("capabilities", .obj [])] else .null

/-- Follow the rules, or else do `otherwise`. -/
def follow (p : Peer) (method : String) (id message : Json) (otherwise : Peer → Peer) : Peer :=
  match rule? method message p.rules with
  | some (actions, rules) => Peer.perform { p with rules } id actions
  | none => otherwise p

/-- A request arrives. -/
def request (p : Peer) (method : String) (id message : Json) : Peer :=
  match p.queued with
  | actions :: queued => Peer.perform { p with queued } id actions
  | [] =>
    p.follow method id message fun p =>
      if p.defaults then p.send (answer id "result" (defaultResult method)) else p

/-- A notification arrives. -/
def notification (p : Peer) (method : String) (message : Json) : Peer :=
  let p := p.follow method .null message id
  if p.isProcess && method == "exit" then p.finish else p

/-- A message arrives. -/
def handle (p : Peer) (message : Json) : Peer :=
  let p := { p with received := p.received ++ [message] }
  match (message.field? "method").bind text?, message.field? "id" with
  | some method, some id => p.request method id message
  | some method, none => p.notification method message
  | none, _ => p

/-- Texts arrive; those behind the end of the input are lost. -/
def take (p : Peer) : List String → Peer
  | [] => p
  | text :: rest =>
    if p.inputOpen then
      match Json.parse? text with
      | some v => (p.handle v).take rest
      | none => p.take rest
    else p

/-- Queue what is done about the next request. -/
def enqueue (p : Peer) (actions : List Action) : Peer :=
  { p with queued := p.queued ++ [actions] }

end Peer

end SymbolContext.Rehearsal
