import SymbolContext.Proofs.Program.Events
import SymbolContext.Proofs.Uri.File

/-!
# Stopping the server

The courses that a run can take, whatever its calls are answered with. Each part of a run has its
own: the handshake (`Handshake`), starting the server (`Started`), the time with a server
(`Served`), and the run as a whole (`Course`). In all of them the events before the end of the
query are `Ordinary`, and in none does the result depend on how the server takes its leave. How
the capabilities of a server are read is left open: the courses are those of any reading.

* `server_stopped_once`: **a server whose streams have been taken is stopped once**, by force if the
  handshake fails and else gracefully, after the query; **the result is the error of the handshake
  or else that of the query**.
-/

namespace SymbolContext.Program

open Server
open Trace (Runs)

/-! ## The handshake -/

/-- How a handshake ends, and what happens in it. -/
inductive Handshake [Capabilities] (params : Json) (limit : Duration) :
    Except BackendFailure Unit → List Event → Prop
  | unanswered (e : RpcFailure) :
      Handshake params limit (.error (.client (.rpc e)))
        [.request "initialize" (some params) limit (.error e)]
  | undecodable {v : Json} {e : DecodeError} (h : Welcome.record.decode v = .error e) :
      Handshake params limit (.error (.client (.rpc (.undecodable e.message))))
        [.request "initialize" (some params) limit (.ok v)]
  | unconfirmed {v : Json} {w : Welcome} (h : Welcome.record.decode v = .ok w) (e : RpcFailure) :
      Handshake params limit (.error (.client (.rpc e)))
        [.request "initialize" (some params) limit (.ok v),
          .notify "initialized" (some (.obj [])) (.error e)]
  | made {v : Json} {w : Welcome} (h : Welcome.record.decode v = .ok w) :
      Handshake params limit (.ok ())
        [.request "initialize" (some params) limit (.ok v),
          .notify "initialized" (some (.obj [])) (.ok ())]

theorem typedOutcome_of_error {α : Type} {decode : Decoder α} {v : Json} {e : DecodeError}
    (h : decode v = .error e) :
    Rpc.typedOutcome decode (.ok v) = .error (.undecodable e.message) := by
  show (decode v).mapError _ = _
  rw [h]
  rfl

theorem typedOutcome_of_ok {α : Type} {decode : Decoder α} {v : Json} {a : α}
    (h : decode v = .ok a) : Rpc.typedOutcome decode (.ok v) = .ok a := by
  show (decode v).mapError _ = _
  rw [h]
  rfl

section
variable (o : Oracle)

theorem runs_connect [Capabilities] (root : Uri) (limit : Duration) (log : List Event) :
    Runs ((Client.connect o.channel o.processId root limit).run {}) log fun r events =>
      Handshake (handshake o.processId root) limit ((r.1.mapError .client).map fun _ => ())
        events ∧ (r.1.isOk = true → r.2 = ⟨true⟩) := by
  refine .get ?_
  refine (runs_ask o limit "initialize" _ Welcome.record.decode {} log).bindState ?_
  rintro asked c events ⟨answer, rfl, rfl, rfl⟩
  cases answer with
  | error e => exact .pure ⟨.unanswered e, fun h => nomatch h⟩
  | ok v =>
    cases hdecode : Welcome.record.decode v with
    | error e =>
      rw [typedOutcome_of_error hdecode]
      exact .pure ⟨.undecodable hdecode, fun h => nomatch h⟩
    | ok w =>
      rw [typedOutcome_of_ok hdecode]
      refine (runs_tell o "initialized" _ _ _).bindState ?_
      rintro told c events ⟨answer, rfl, rfl, rfl⟩
      cases answer with
      | error e => exact .pure ⟨.unconfirmed hdecode e, fun h => nomatch h⟩
      | ok u => exact .pure ⟨.made hdecode, fun _ => rfl⟩

/-- The handshake that a server is started with. -/
def Greeting [Capabilities] (s : ServerSettings) : Except BackendFailure Unit → List Event → Prop :=
  Handshake (handshake o.processId (Uri.fileUri s.root)) s.handshakeLimit

theorem runs_greet [Capabilities] (s : ServerSettings) (log : List Event) :
    Runs (greet o.world.toHost s (o.means s.requestLimit)) log fun r events =>
      Greeting o s r.1 events ∧ (r.1 = .ok () → r.2 = { client := ⟨true⟩ }) := by
  unfold greet
  rw [Uri.ofPath_eq]
  refine (runs_onClient (s := {}) (runs_connect o _ s.handshakeLimit log)).bind ?_
  rintro ⟨r, session⟩ events ⟨answer, client, ⟨hshake, hclient⟩, rfl, rfl⟩
  refine .pure ⟨?_, fun hr => ?_⟩
  · rw [List.append_nil]
    exact hshake
  · cases answer with
    | error e => cases hr
    | ok w => exact congrArg (Session.mk · {}) (hclient rfl)

/-! ## Starting -/

def launchOf (s : ServerSettings) : Launch := ⟨s.command, s.args, some s.root⟩

/-- A server after the handshake. -/
def Oracle.running (s : ServerSettings) : Running (StateM (List Event)) :=
  ⟨o.process, o.means s.requestLimit, { client := ⟨true⟩ }⟩

/-- How starting a server ends, and what happens until then. -/
inductive Started [Capabilities] (s : ServerSettings) :
    Except BackendFailure (Running (StateM (List Event))) → List Event → Prop
  | notSpawned (e : ProcessFailure) :
      Started s (.error (.process e)) [.spawn (launchOf s) (.error e)]
  | noStreams (e : ProcessFailure) :
      Started s (.error (.process e)) [.spawn (launchOf s) (.ok ()), .takeStreams (.error e)]
  | notGreeted {e : BackendFailure} {greeting : List Event} (h : Greeting o s (.error e) greeting)
      (stopped : Except ProcessFailure Unit) :
      Started s (.error e) (.spawn (launchOf s) (.ok ()) :: .takeStreams (.ok ()) :: (greeting ++
        [.log (.warn ("Language server failed to initialize: " ++ e.message)),
          .stop .force stopped]))
  | greeted {greeting : List Event} (h : Greeting o s (.ok ()) greeting) :
      Started s (.ok (o.running s))
        (.spawn (launchOf s) (.ok ()) :: .takeStreams (.ok ()) :: greeting)

theorem Started.running_eq [Capabilities] {o : Oracle} {s : ServerSettings}
    {running : Running (StateM (List Event))} {events : List Event}
    (h : Started o s (.ok running) events) : running = o.running s := by
  cases h
  rfl

theorem runs_spawn (launch : Launch) (log : List Event) :
    Runs (o.world.spawn launch) log fun r events =>
      ∃ answer, events = [.spawn launch answer] ∧ r = answer.map fun _ => o.process := by
  refine (Runs.answered _ _).bind ?_
  rintro answer events rfl
  exact .pure ⟨answer, rfl, rfl⟩

theorem runs_takeStreams (log : List Event) :
    Runs o.process.takeStreams log fun r events =>
      ∃ answer, events = [.takeStreams answer] ∧ r = answer.map fun _ => o.channel := by
  refine (Runs.answered _ _).bind ?_
  rintro answer events rfl
  exact .pure ⟨answer, rfl, rfl⟩

theorem runs_start [Capabilities] (s : ServerSettings) (log : List Event) :
    Runs (start o.world.toHost s) log (Started o s) := by
  refine (runs_spawn o (launchOf s) log).bind ?_
  rintro _ events ⟨spawned, rfl, rfl⟩
  cases spawned with
  | error e => exact .pure (.notSpawned e)
  | ok u =>
    refine (runs_takeStreams o _).bind ?_
    rintro _ events ⟨taken, rfl, rfl⟩
    cases taken with
    | error e => exact .pure (.noStreams e)
    | ok u =>
      refine (runs_greet o s _).bind ?_
      rintro ⟨welcome, session⟩ greeting ⟨hgreeting, hsession⟩
      cases welcome with
      | error e =>
        refine (runs_log o _ _).bind ?_
        rintro _ events rfl
        refine (Runs.answered (.stop .force) (o.stop · .force)).bind ?_
        rintro stopped events rfl
        exact .pure (.notGreeted hgreeting stopped)
      | ok u =>
        obtain rfl := hsession rfl
        refine .pure ?_
        rw [List.append_nil]
        exact .greeted hgreeting

/-! ## Leaving -/

/-- How taking leave of a server ends, and what happens then. -/
inductive Leave (limit : Duration) : Except ClientFailure Unit → List Event → Prop
  | unanswered (e : RpcFailure) :
      Leave limit (.error (.rpc e)) [.request "shutdown" none limit (.error e)]
  | unheard (v : Json) (e : RpcFailure) :
      Leave limit (.error (.rpc e))
        [.request "shutdown" none limit (.ok v), .notify "exit" none (.error e)]
  | taken (v : Json) :
      Leave limit (.ok ()) [.request "shutdown" none limit (.ok v), .notify "exit" none (.ok ())]

theorem runs_shutdown (limit : Duration) (log : List Event) :
    Runs ((Client.shutdown o.channel limit).run ⟨true⟩) log fun r events =>
      Leave limit r.1 events := by
  refine .get ?_
  refine (runs_ask o limit "shutdown" none Decoder.any ⟨true⟩ log).bindState ?_
  rintro asked c events ⟨answer, rfl, rfl, rfl⟩
  cases answer with
  | error e => exact .pure (.unanswered e)
  | ok v =>
    refine (runs_tell o "exit" none _ _).bindState ?_
    rintro told c events ⟨answer, rfl, rfl, rfl⟩
    cases answer with
    | error e => exact .pure (.unheard v e)
    | ok u => exact .pure (.taken v)

/-- What is said about a step of the cleanup that has failed. -/
def complaint {ε : Type} (text : ε → String) : Except ε Unit → List Event
  | .ok _ => []
  | .error e => [.log (.warn (text e))]

/-- Taking leave of a server, with a complaint if it fails. -/
inductive Farewell (limit : Duration) : List Event → Prop
  | mk {outcome : Except ClientFailure Unit} {leave : List Event}
      (h : Leave limit outcome leave) :
      Farewell limit (leave ++
        complaint (fun e => "Language server shutdown request failed: " ++ e.message) outcome)

theorem runs_farewell (limit : Duration) {session : Session} (h : session.client = ⟨true⟩)
    (log : List Event) :
    Runs ((Session.farewell (o.means limit) o.world.log).run session) log fun _ events =>
      Farewell limit events := by
  have hshutdown := runs_shutdown o limit log
  rw [← h] at hshutdown
  refine (runs_onClient hshutdown).bindState ?_
  rintro _ session leave ⟨outcome, client, hleave, rfl, rfl⟩
  cases outcome with
  | ok u => exact .pure (.mk hleave)
  | error e =>
    refine (runs_log o _ _).lift.mono ?_
    rintro r events ⟨-, rfl⟩
    exact .mk hleave

/-! ## With a server -/

/-- Warming up, unless it is not wanted. -/
def warmed (w : World (StateM (List Event))) (args : CommandLine.Arguments) (s : Settings)
    (means : Session.Means (StateM (List Event))) : Session.Call (StateM (List Event)) Unit :=
  if args.noWarmUp then pure ()
  else WarmUp.warmUp s.server.name s.warmUp (warmUpMeans w means) s.server.root

/-- What happens with a server that has been started, from the warm-up to the end of its
process, and the result of the query. -/
inductive Served (args : CommandLine.Arguments) (s : Settings) (log : List Event) :
    Except QueryFailure String → List Event → Prop
  | mk {session session' : Session} {warming command farewell : List Event}
      {result : Except QueryFailure String}
      (hwarming : ((warmed o.world args s (o.means s.server.requestLimit)).run
        { client := ⟨true⟩ }).run log = (((), session), log ++ warming))
      (hcommand : ((answer (surroundings o.world (o.means s.server.requestLimit)) args.command
        s.contextLines).run session).run (log ++ warming) =
          ((result, session'), log ++ warming ++ command))
      (hordinary : Ordinary (warming ++ command))
      (hfarewell : Farewell s.server.requestLimit farewell)
      (stopped : Except ProcessFailure Unit) :
      Served args s log result (warming ++ command ++ farewell ++
        [.stop (.graceful exitGrace) stopped] ++
        complaint (fun e => "Language server did not shut down cleanly: " ++
          (BackendFailure.process e).message) stopped)

theorem steadily_warmed (args : CommandLine.Arguments) (s : Settings) (limit : Duration) :
    (steadily Session.client).holds (warmed o.world args s (o.means limit)) := by
  unfold warmed
  split
  · exact (steadily _).pure ()
  · exact Sequential.warmUp (steady_warmUpMeans o limit) _ _ _

theorem serve_eq (args : CommandLine.Arguments) (s : Settings)
    (means : Session.Means (StateM (List Event))) :
    serve o.world args s means = (warmed o.world args s means >>= fun _ =>
      answer (surroundings o.world means) args.command s.contextLines) := by
  unfold serve warmed
  split <;> rfl

theorem runs_serve (args : CommandLine.Arguments) (s : Settings) (limit : Duration)
    (start : Session) (log : List Event) :
    Runs ((serve o.world args s (o.means limit)).run start) log fun r events =>
      ∃ session warming command, events = warming ++ command ∧
        ((warmed o.world args s (o.means limit)).run start).run log =
          (((), session), log ++ warming) ∧
        ((answer (surroundings o.world (o.means limit)) args.command s.contextLines).run
          session).run (log ++ warming) = (r, log ++ warming ++ command) ∧
        r.2.client = start.client ∧ Ordinary events := by
  rw [serve_eq]
  refine (steadily_warmed o args s limit start log).exact.bindState ?_
  rintro u session warming ⟨hwarming, hclient, hordinary⟩
  have hanswer := Sequential.answer (steady_surroundings o limit) args.command s.contextLines
  refine (hanswer session _).exact.mono ?_
  rintro r command ⟨hcommand, hclient', hordinary'⟩
  exact ⟨session, warming, command, rfl, hwarming, hcommand, hclient'.trans hclient,
    hordinary.append hordinary'⟩

theorem runs_runningShutdown (limit : Duration) {session : Session}
    (h : session.client = ⟨true⟩) (log : List Event) :
    Runs (Running.shutdown o.world.toHost ⟨o.process, o.means limit, session⟩) log fun r events =>
      ∃ farewell stopped, Farewell limit farewell ∧ r = stopped.mapError .process ∧
        events = farewell ++ [.stop (.graceful exitGrace) stopped] := by
  refine (runs_farewell o limit h log).bind fun _ farewell hfarewell => ?_
  refine (Runs.answered (.stop (.graceful exitGrace)) (o.stop · (.graceful exitGrace))).bind ?_
  rintro stopped events rfl
  exact .pure ⟨farewell, stopped, hfarewell, rfl, rfl⟩

theorem runs_finish (args : CommandLine.Arguments) (s : Settings) (log : List Event) :
    Runs (finish o.world args s (o.running s.server)) log (Served o args s log) := by
  refine (runs_serve o args s _ _ log).bind ?_
  rintro ⟨result, session'⟩ events
    ⟨session, warming, command, rfl, hwarming, hcommand, hclient, hordinary⟩
  -- the client is still as the handshake has left it, so it does take leave of the server
  refine (runs_runningShutdown o _ hclient _).bind ?_
  rintro _ events ⟨farewell, stopped, hfarewell, rfl, rfl⟩
  have hserved := Served.mk hwarming hcommand hordinary hfarewell stopped
  cases stopped with
  | ok u =>
    refine .pure ?_
    simpa [complaint] using hserved
  | error e =>
    refine (runs_log o _ _).bind ?_
    rintro _ events rfl
    refine .pure ?_
    simpa [complaint] using hserved

/-! ## The whole run -/

theorem ordinarily_workspace (given : Option String) :
    ordinarily.holds (workspace o.world given) := by
  have hcanonical : ∀ root, ordinarily.holds (o.world.canonical root >>= fun found =>
      pure (found.mapError (RunFailure.badRoot root))) := fun _ =>
    ordinarily.bind (ordinarily_answered _ _ fun _ => rfl) fun _ => ordinarily.pure _
  cases given with
  | some root => exact hcanonical root
  | none =>
    refine ordinarily.bind (ordinarily_answered _ _ fun _ => rfl) fun directory => ?_
    cases directory with
    | error reason => exact ordinarily.pure _
    | ok root => exact hcanonical root

theorem ordinarily_logAll (lines : List LogLine) : ordinarily.holds (logAll o.world lines) := by
  induction lines with
  | nil => exact ordinarily.pure _
  | cons line rest ih => exact ordinarily.bind (ordinarily_log o line) fun _ => ih

/-- The settings for a run in a workspace. -/
def settingsFor (args : CommandLine.Arguments) (root : String) : Settings :=
  (((Settings.ofEnvironment root o.environment).1.withCommand args.serverPath).withArgs
    args.serverArgs).withContext args.command.contextLines

theorem runs_settings (args : CommandLine.Arguments) (root : String) (log : List Event) :
    Runs (settings o.world args root) log fun s events =>
      s = settingsFor o args root ∧ Ordinary events := by
  refine (ordinarily_logAll o (Settings.ofEnvironment root o.environment).2 log).bind ?_
  rintro _ events hordinary
  refine .pure ⟨rfl, ?_⟩
  rwa [List.append_nil]

/-- **The courses a run can take.** -/
inductive Course [Capabilities] (args : CommandLine.Arguments) (log : List Event) :
    Except RunFailure String → List Event → Prop
  | noWorkspace {e : RunFailure} {finding : List Event}
      (hfind : (workspace o.world args.root).run log = (.error e, log ++ finding))
      (h : Ordinary finding) :
      Course args log (.error e) finding
  | notStarted {root : String} {e : BackendFailure} {finding setting starting : List Event}
      (hfind : (workspace o.world args.root).run log = (.ok root, log ++ finding))
      (h : Ordinary (finding ++ setting))
      (hstart : Started o (settingsFor o args root).server (.error e) starting) :
      Course args log (.error (.start e)) (finding ++ setting ++ starting)
  | served {root : String} {running : Running (StateM (List Event))}
      {finding setting starting serving : List Event} {result : Except QueryFailure String}
      (hfind : (workspace o.world args.root).run log = (.ok root, log ++ finding))
      (h : Ordinary (finding ++ setting))
      (hstart : Started o (settingsFor o args root).server (.ok running) starting)
      (hserved : Served o args (settingsFor o args root)
        (log ++ (finding ++ setting) ++ starting) result serving) :
      Course args log (result.mapError .query) (finding ++ setting ++ starting ++ serving)

theorem runs_run [Capabilities] (args : CommandLine.Arguments) (log : List Event) :
    Runs (run o.world args) log (Course o args log) := by
  refine (ordinarily_workspace o args.root log).exact.bind ?_
  rintro root finding ⟨hfind, hfinding⟩
  cases root with
  | error e =>
    refine .pure ?_
    rw [List.append_nil]
    exact .noWorkspace hfind hfinding
  | ok root =>
    refine (runs_settings o args root _).bind ?_
    rintro _ setting ⟨rfl, hsetting⟩
    have hordinary := hfinding.append hsetting
    refine (runs_start o _ _).bind fun running starting hstarting => ?_
    cases running with
    | error e =>
      refine .pure ?_
      rw [List.append_nil, ← List.append_assoc]
      exact .notStarted hfind hordinary hstarting
    | ok running =>
      obtain rfl := hstarting.running_eq
      refine (runs_finish o args _ _).bind fun result serving hserved => .pure ?_
      rw [List.append_nil, ← List.append_assoc, ← List.append_assoc]
      rw [List.append_assoc log] at hserved
      exact .served hfind hordinary hstarting hserved

end

/-! ## How often the server is stopped -/

def Event.stop? : Event → Option Stop
  | stop mode _ => some mode
  | _ => none

/-- The ways in which the server is stopped. -/
def stops (events : List Event) : List Stop := events.filterMap Event.stop?

@[simp] theorem stops_append (a b : List Event) : stops (a ++ b) = stops a ++ stops b :=
  List.filterMap_append

theorem Ordinary.stops_eq {events : List Event} (h : Ordinary events) : stops events = [] := by
  refine List.filterMap_eq_nil_iff.2 fun e he => ?_
  have hordinary := h e he
  cases e with
  | stop mode answer => cases hordinary
  | _ => rfl

theorem Ordinary.notMem {events : List Event} {e : Event} (h : Ordinary events)
    (he : e.isOrdinary = false) : e ∉ events := by
  intro hmem
  rw [h e hmem] at he
  cases he

theorem Handshake.ordinary [Capabilities] {params : Json} {limit : Duration}
    {r : Except BackendFailure Unit} {events : List Event}
    (h : Handshake params limit r events) : Ordinary events := by
  cases h <;> simp [Ordinary, Event.isOrdinary]

@[simp] theorem stops_complaint {ε : Type} (text : ε → String) (r : Except ε Unit) :
    stops (complaint text r) = [] := by
  cases r <;> rfl

theorem Farewell.stops_eq {limit : Duration} {events : List Event} (h : Farewell limit events) :
    stops events = [] := by
  cases h with
  | mk hleave =>
    rw [stops_append, stops_complaint, List.append_nil]
    cases hleave <;> rfl

section
variable {o : Oracle} {s : ServerSettings} {events : List Event}

theorem Started.of_error [Capabilities] {e : BackendFailure} (h : Started o s (.error e) events) :
    (.takeStreams (.ok ()) ∉ events ∧ stops events = []) ∨
      (.takeStreams (.ok ()) ∈ events ∧ stops events = [.force]) := by
  cases h with
  | notSpawned e => exact .inl ⟨by simp, rfl⟩
  | noStreams e => exact .inl ⟨by simp, rfl⟩
  | notGreeted hgreeting stopped =>
    refine .inr ⟨by simp, ?_⟩
    show stops (_ ++ _) = _
    rw [stops_append, hgreeting.ordinary.stops_eq]
    rfl

theorem Started.of_ok [Capabilities] {running : Running (StateM (List Event))}
    (h : Started o s (.ok running) events) :
    .takeStreams (.ok ()) ∈ events ∧ stops events = [] := by
  cases h with
  | greeted hgreeting =>
    refine ⟨by simp, ?_⟩
    show stops _ = _
    exact hgreeting.ordinary.stops_eq

theorem Served.stops_eq {args : CommandLine.Arguments} {s : Settings} {log : List Event}
    {result : Except QueryFailure String} (h : Served o args s log result events) :
    stops events = [.graceful exitGrace] := by
  cases h with
  | mk hwarming hcommand hordinary hfarewell stopped =>
    rw [stops_append, stops_append, stops_append, hordinary.stops_eq, hfarewell.stops_eq,
      stops_complaint]
    rfl

end

/-- **The server is stopped once**, however its capabilities are read. -/
theorem server_stopped_once [Capabilities] (o : Oracle) (args : CommandLine.Arguments)
    (log : List Event) :
    ∃ result events, (run o.world args).run log = (result, log ++ events) ∧
      Course o args log result events ∧
      (.takeStreams (.ok ()) ∉ events → stops events = []) ∧
      (.takeStreams (.ok ()) ∈ events →
        (∃ e, result = .error (.start e) ∧ stops events = [.force]) ∨
        ∃ r, result = Except.mapError .query r ∧ stops events = [.graceful exitGrace]) := by
  obtain ⟨result, events, hrun, hcourse⟩ := runs_run o args log
  refine ⟨result, events, hrun, hcourse, ?_⟩
  cases hcourse with
  | noWorkspace hfind h => exact ⟨fun _ => h.stops_eq, fun htaken => absurd htaken (h.notMem rfl)⟩
  | notStarted hfind h hstart =>
    have hbefore := h.notMem (e := .takeStreams (.ok ())) rfl
    rw [stops_append, h.stops_eq, List.nil_append, List.mem_append]
    rcases hstart.of_error with ⟨htaken, hstops⟩ | ⟨htaken, hstops⟩
    · exact ⟨fun _ => hstops, fun hmem => absurd hmem (not_or.2 ⟨hbefore, htaken⟩)⟩
    · exact ⟨fun hmem => absurd (.inr htaken) hmem, fun _ => .inl ⟨_, rfl, hstops⟩⟩
  | served hfind h hstart hserved =>
    obtain ⟨htaken, hstops⟩ := hstart.of_ok
    refine ⟨fun hmem => absurd ?_ hmem, fun _ => .inr ⟨_, rfl, ?_⟩⟩
    · exact List.mem_append_left _ (List.mem_append_right _ htaken)
    · rw [stops_append, stops_append, h.stops_eq, hstops, hserved.stops_eq]
      rfl

end SymbolContext.Program
