import SymbolContext.Proofs.Program.Calls
import SymbolContext.Proofs.Trace

/-!
# A world that answers as it likes

The world of a run answers every call with whatever it likes, knowing all that has happened
before. What happens is a list of events, each call with the answer to it.

An event is ordinary if it neither starts nor stops a process nor takes leave of a server.

* `steady_backend`: **in a session nothing but ordinary events happens**, whatever is asked and
  whatever the answers are, **and the session stays open**. With `Sequential` this is carried over
  to queries and to the warm-up.
-/

namespace SymbolContext.Program

open Server
open Trace (Runs answered)

/-- What happens in a run: a call with its answer. -/
inductive Event where
  | currentDirectory (answer : Except String String)
  | canonical (path : String) (answer : Except String String)
  | treeAt (path : String) (answer : Except String FileTree)
  | pause (d : Duration)
  | openLog (s : LogSettings) (answer : Except String Unit)
  | readText (path : String) (answer : Except String String)
  | log (line : LogLine)
  | spawn (launch : Launch) (answer : Except ProcessFailure Unit)
  | takeStreams (answer : Except ProcessFailure Unit)
  | request (method : String) (params : Option Json) (limit : Duration)
      (answer : Except RpcFailure Json)
  | notify (method : String) (params : Option Json) (answer : Except RpcFailure Unit)
  | stop (mode : Stop) (answer : Except ProcessFailure Unit)

/-- **An oracle.** Its answer to a call may depend on all events before it. -/
structure Oracle where
  environment : Environment
  processId : Nat
  currentDirectory : List Event → Except String String
  canonical : List Event → String → Except String String
  treeAt : List Event → String → Except String FileTree
  openLog : List Event → LogSettings → Except String Unit
  readText : List Event → String → Except String String
  spawn : List Event → Launch → Except ProcessFailure Unit
  takeStreams : List Event → Except ProcessFailure Unit
  request : List Event → String → Option Json → Duration → Except RpcFailure Json
  notify : List Event → String → Option Json → Except RpcFailure Unit
  stop : List Event → Stop → Except ProcessFailure Unit

namespace Oracle

variable (o : Oracle)

def channel : Rpc.Channel (StateM (List Event)) where
  request := fun method params limit =>
    answered (.request method params limit) (o.request · method params limit)
  notify := fun method params => answered (.notify method params) (o.notify · method params)

def process : Process (StateM (List Event)) where
  takeStreams := do
    let taken ← answered .takeStreams o.takeStreams
    return taken.map fun _ => o.channel
  stop := fun mode => answered (.stop mode) (o.stop · mode)

/-- The oracle as the world of a run. -/
def world : World (StateM (List Event)) where
  environment := o.environment
  processId := o.processId
  currentDirectory := answered .currentDirectory o.currentDirectory
  canonical := fun path => answered (.canonical path) (o.canonical · path)
  treeAt := fun path => answered (.treeAt path) (o.treeAt · path)
  pause := fun d => answered (fun _ => .pause d) fun _ => ()
  openLog := fun s => answered (.openLog s) (o.openLog · s)
  readText := fun path => answered (.readText path) (o.readText · path)
  log := fun line => answered (fun _ => .log line) fun _ => ()
  spawn := fun launch => do
    let spawned ← answered (.spawn launch) (o.spawn · launch)
    return spawned.map fun _ => o.process

/-- What a session with the server has. -/
def means (limit : Duration) : Session.Means (StateM (List Event)) :=
  ⟨o.channel, limit, o.world.readText⟩

end Oracle

theorem runs_log (o : Oracle) (line : LogLine) (log : List Event) :
    Runs (o.world.log line) log fun _ events => events = [.log line] :=
  .answered (fun _ => Event.log line) fun _ => ()

/-! ## Ordinary events -/

/-- No process is started or stopped, and the server is not taken leave of. -/
def Event.isOrdinary : Event → Bool
  | spawn .. => false
  | takeStreams _ => false
  | stop .. => false
  | request method .. => method != "shutdown"
  | notify method .. => method != "exit"
  | _ => true

def Ordinary (events : List Event) : Prop := ∀ e ∈ events, e.isOrdinary = true

theorem ordinary_nil : Ordinary [] := fun _ h => nomatch h

theorem ordinary_singleton {e : Event} (h : e.isOrdinary = true) : Ordinary [e] := by
  intro e' he
  rwa [List.mem_singleton.1 he]

theorem Ordinary.append {events more : List Event} (h : Ordinary events) (h' : Ordinary more) :
    Ordinary (events ++ more) := by
  intro e he
  exact (List.mem_append.1 he).elim (h e) (h' e)

/-- Ordinary events only. -/
def ordinarily : Sequential (StateM (List Event)) where
  holds := fun x => ∀ log, Runs x log fun _ events => Ordinary events
  pure := fun _ _ => .pure ordinary_nil
  bind := fun hx hf log => (hx log).bind fun a _ hevents => (hf a _).mono fun _ _ hmore =>
    hevents.append hmore

theorem ordinarily_answered {α : Type} (event : α → Event) (answer : List Event → α)
    (h : ∀ a, (event a).isOrdinary = true) : ordinarily.holds (answered event answer) := by
  intro log
  refine (Runs.answered event answer).mono fun a events hevents => ?_
  subst hevents
  exact ordinary_singleton (h a)

theorem ordinarily_log (o : Oracle) (line : LogLine) : ordinarily.holds (o.world.log line) :=
  ordinarily_answered (fun _ => .log line) (fun _ => ()) fun _ => rfl

/-- **Ordinary events only, and `keep` stays as it is.** -/
def steadily {σ κ : Type} (keep : σ → κ) : Sequential (StateT σ (StateM (List Event))) where
  holds := fun x => ∀ s log, Runs (x.run s) log fun r events =>
    keep r.2 = keep s ∧ Ordinary events
  pure := fun _ _ _ => .pure ⟨rfl, ordinary_nil⟩
  bind := by
    intro α β x f hx hf s log
    refine (hx s log).bindState fun a s' events hr => ?_
    refine (hf a s' _).mono fun r more hr' => ?_
    exact ⟨hr'.1.trans hr.1, hr.2.append hr'.2⟩

section
variable {σ κ : Type} {keep : σ → κ}

theorem steadily_lift {α : Type} {x : StateM (List Event) α} (h : ordinarily.holds x) :
    (steadily keep).holds (StateT.lift x) := by
  intro s log
  exact (h log).lift.mono fun r events hr => ⟨congrArg keep hr.1, hr.2⟩

theorem steadily_get {α : Type} {f : σ → StateT σ (StateM (List Event)) α}
    (h : ∀ s, (steadily keep).holds (f s)) : (steadily keep).holds (get >>= f) :=
  fun s log => .get (h s s log)

end

/-! ## Calls of the client -/

section
variable (o : Oracle)

/-- A request adds one event, and its answer is decoded. -/
theorem runs_ask {α : Type} (limit : Duration) (method : String) (params : Option Json)
    (decode : Decoder α) (c : Client) (log : List Event) :
    Runs ((Client.ask o.channel limit method params decode).run c) log fun r events =>
      ∃ answer, events = [.request method params limit answer] ∧
        r.1 = (Rpc.typedOutcome decode answer).mapError .rpc ∧ r.2 = c := by
  refine (Runs.answered _ _).lift.bindState ?_
  rintro answer c events ⟨rfl, rfl⟩
  exact .pure ⟨answer, rfl, rfl, rfl⟩

theorem runs_tell (method : String) (params : Option Json) (c : Client) (log : List Event) :
    Runs ((Client.tell o.channel method params).run c) log fun r events =>
      ∃ answer, events = [.notify method params answer] ∧ r.1 = answer.mapError .rpc ∧
        r.2 = c := by
  refine (Runs.answered _ _).lift.bindState ?_
  rintro answer c events ⟨rfl, rfl⟩
  cases answer with
  | error e => exact .pure ⟨.error e, rfl, rfl, rfl⟩
  | ok u => exact .pure ⟨.ok u, rfl, rfl, rfl⟩

theorem steadily_ask {α : Type} (limit : Duration) (method : String) (params : Option Json)
    (decode : Decoder α) (h : (method != "shutdown") = true) :
    (steadily id).holds (Client.ask o.channel limit method params decode) := by
  intro c log
  refine (runs_ask o limit method params decode c log).mono ?_
  rintro r events ⟨answer, rfl, -, hclient⟩
  exact ⟨hclient, ordinary_singleton h⟩

theorem steadily_tell {method : String} (params : Option Json) (h : (method != "exit") = true) :
    (steadily id).holds (Client.tell o.channel method params) := by
  intro c log
  refine (runs_tell o method params c log).mono ?_
  rintro r events ⟨answer, rfl, -, hclient⟩
  exact ⟨hclient, ordinary_singleton h⟩

theorem steadily_afterHandshake {α : Type}
    {call : Client.Call (StateM (List Event)) (Except ClientFailure α)}
    (h : (steadily id).holds call) : (steadily id).holds (Client.afterHandshake call) := by
  refine steadily_get fun c => ?_
  split
  · exact h
  · exact (steadily id).pure _

theorem steadily_notice (n : FileNotice) : (steadily id).holds (Client.notice o.channel n) := by
  have hmethod : (noticeMethod n != "exit") = true := by cases n <;> rfl
  exact steadily_afterHandshake (steadily_tell o _ hmethod)

/-! ## Calls in a session -/

theorem runs_onClient {α : Type}
    {call : Client.Call (StateM (List Event)) (Except ClientFailure α)} {s : Session}
    {log : List Event} {post : Except ClientFailure α × Client → List Event → Prop}
    (h : Runs (call.run s.client) log post) :
    Runs ((Session.onClient call).run s) log fun r events =>
      ∃ answer client, post (answer, client) events ∧ r.1 = answer.mapError .client ∧
        r.2 = { s with client } := by
  refine h.bind fun r events hpost => .pure ⟨r.1, r.2, ?_, rfl, rfl⟩
  rwa [List.append_nil]

theorem steadily_onClient {α : Type}
    {call : Client.Call (StateM (List Event)) (Except ClientFailure α)}
    (h : (steadily id).holds call) :
    (steadily Session.client).holds (Session.onClient call) := by
  intro s log
  refine (runs_onClient (h s.client log)).mono ?_
  rintro ⟨r, s'⟩ events ⟨answer, client, hr, -, rfl⟩
  exact hr

variable (limit : Duration)

theorem steadily_source (path : String) :
    (steadily Session.client).holds (Session.source (o.means limit) path) :=
  (steadily _).bind (steadily_lift (ordinarily_answered _ _ fun _ => rfl)) fun _ => (steadily _).pure _

theorem steadily_openFile (path : String) :
    (steadily Session.client).holds (Session.openFile (o.means limit) path) := by
  refine (steadily _).bind (steadily_source o limit path) fun text => ?_
  cases text with
  | error e => exact (steadily _).pure _
  | ok text =>
    intro s log
    have hsync := Sequential.sync id (steadily_notice o) path text s.files
    refine .get ((hsync s.client log).lift.bindState ?_)
    rintro ⟨⟨outcome, files⟩, client⟩ s events ⟨rfl, hclient, hordinary⟩
    refine .pure ⟨hclient, ?_⟩
    rwa [List.append_nil]

theorem steadily_references (l : Location) (declaration : Bool) :
    (steadily Session.client).holds (Session.references (o.means limit) l declaration) := by
  unfold Session.references
  cases Session.uriOf l with
  | error e => exact (steadily _).pure _
  | ok uri =>
    refine (steadily _).bind (steadily_onClient (steadily_afterHandshake ?_)) fun _ =>
      (steadily _).pure _
    exact (steadily id).bind (steadily_ask o _ _ _ _ rfl) fun _ => (steadily id).pure _

theorem steadily_definition (l : Location) :
    (steadily Session.client).holds (Session.definition (o.means limit) l) := by
  unfold Session.definition
  cases Session.uriOf l with
  | error e => exact (steadily _).pure _
  | ok uri =>
    have houtline : (steadily Session.client).holds
        (Session.onClient (Client.outline o.channel limit uri)) :=
      steadily_onClient (steadily_afterHandshake (steadily_ask o _ _ _ _ rfl))
    refine (steadily _).bind houtline fun outline => ?_
    cases outline with
    | error e => exact (steadily _).pure _
    | ok outline =>
      refine (steadily _).bind (steadily_source o limit l.path) fun text => ?_
      cases text with
      | error e => exact (steadily _).pure _
      | ok text => exact (steadily _).pure _

theorem steady_backend :
    (steadily Session.client).OfBackend (Session.backend (o.means limit)) := by
  unfold Session.backend
  refine ⟨fun query => ?_, fun path => ?_, fun l declaration => ?_, fun l => ?_⟩ <;> dsimp only
  · exact steadily_onClient (steadily_afterHandshake (steadily_ask o _ _ _ _ rfl))
  · exact steadily_openFile o limit path
  · exact steadily_references o limit l declaration
  · exact steadily_definition o limit l

theorem steady_surroundings :
    (steadily Session.client).OfSurroundings (surroundings o.world (o.means limit)) where
  toOfBackend := steady_backend o limit
  readText := fun _ => steadily_lift (ordinarily_answered _ _ fun _ => rfl)
  note := fun d => steadily_lift (ordinarily_log o d.logLine)

theorem steady_warmUpMeans :
    (steadily Session.client).OfMeans (warmUpMeans o.world (o.means limit)) where
  toOfBackend := steady_backend o limit
  treeAt := fun _ => steadily_lift (ordinarily_answered _ _ fun _ => rfl)
  pause := fun d => steadily_lift
    (ordinarily_answered (fun _ => .pause d) (fun _ => ()) fun _ => rfl)
  note := fun d => steadily_lift (ordinarily_log o d.logLine)

end

end SymbolContext.Program
