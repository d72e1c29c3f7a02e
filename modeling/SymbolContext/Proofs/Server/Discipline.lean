import SymbolContext.Proofs.Rpc.Line
import SymbolContext.Server.Client

/-!
# The order of what a client sends

A client makes one call after another on a line whose other end does as it likes. Each call is
declined, and then nothing at all happens (`step_declined`), or it is made, and then it is one of
the `Turn`s (`turns_of_fits`): the only messages that begin and end a session stand at the end of
a handshake and of a farewell that have succeeded. What a turn adds keeps the messages
`Disciplined`, and so does every run. All this holds however the capabilities of the server are
read (`Capabilities`): the handshake has been answered if its answer can be read in that way.

* `session_discipline`: **outside a session a client sends nothing but the handshake, it begins a
  session only when the handshake has been answered, and ends it only when the farewell has.**
-/

namespace SymbolContext.Server

open Rpc (Line Peer Sent)

/-- A call of the client, with its arguments. -/
inductive Command where
  | connect (processId : Nat) (root : Uri) (limit : Duration)
  | shutdown (limit : Duration)
  | searchSymbols (limit : Duration) (query : String)
  | references (limit : Duration) (uri : Uri) (p : Position) (declaration : Bool)
  | outline (limit : Duration) (uri : Uri)
  | notice (n : FileNotice)

namespace Command

def isConnect : Command → Bool
  | connect .. => true
  | _ => false

def isShutdown : Command → Bool
  | shutdown .. => true
  | _ => false

/-- Whether a call belongs between the beginning and the end of a session. -/
def isInner (c : Command) : Bool := !c.isConnect && !c.isShutdown

theorem isShutdown_of_isConnect {c : Command} (h : c.isConnect = true) : c.isShutdown = false := by
  cases c <;> first | rfl | cases h

/-- Whether the client makes the call, outside a session or inside one. -/
def fits (c : Command) (isOpen : Bool) : Prop := isOpen = !c.isConnect

def method : Command → String
  | connect .. => "initialize"
  | shutdown .. => "shutdown"
  | searchSymbols .. => "workspace/symbol"
  | references .. => "textDocument/references"
  | outline .. => "textDocument/documentSymbol"
  | notice n => noticeMethod n

/-- Make the call, and tell whether it succeeds. -/
def perform [Capabilities] {m : Type → Type} [Monad m] (channel : Rpc.Channel m) :
    Command → Client.Call m (Except ClientFailure Unit)
  | connect processId root limit =>
    Except.map (fun _ => ()) <$> Client.connect channel processId root limit
  | shutdown limit => Client.shutdown channel limit
  | searchSymbols limit query =>
    Except.map (fun _ => ()) <$> Client.searchSymbols channel limit query
  | references limit uri p declaration =>
    Except.map (fun _ => ()) <$> Client.references channel limit uri p declaration
  | outline limit uri => Except.map (fun _ => ()) <$> Client.outline channel limit uri
  | notice n => Client.notice channel n

/-- The result of a call that is not made. -/
def declined (c : Command) : Except ClientFailure Unit :=
  if c.isConnect then .error (.protocol "Client already initialized")
  else if c.isShutdown then .ok ()
  else .error .notInitialized

end Command

/-- A client on its line. -/
structure Dialogue where
  client : Client := {}
  line : Line := {}

namespace Dialogue

def step [Capabilities] (peer : Peer) (s : Dialogue) (c : Command) :
    Except ClientFailure Unit × Dialogue :=
  let r := ((c.perform (Line.channel peer)).run s.client).run s.line
  (r.1.1, ⟨r.1.2, r.2⟩)

/-- **A client makes one call after another, from its beginning.** -/
def run [Capabilities] (peer : Peer) (commands : List Command) : Dialogue :=
  commands.foldl (fun s c => (s.step peer c).2) {}

end Dialogue

/-- What a call that is made can come to. -/
inductive Turn [Capabilities] :
    Command → Bool → List Sent → Except ClientFailure Unit → Bool → Prop
  | unsent {c b e} : Turn c b [] (.error (.rpc e)) b
  | attempt {processId root limit id params outcome e} :
    Turn (.connect processId root limit) false [.request id "initialize" params outcome]
      (.error (.rpc e)) false
  | greeting {processId root limit id params params' v w}
    (hw : Welcome.record.decode v = .ok w) :
    Turn (.connect processId root limit) false
      [.request id "initialize" params (.ok v), .notification "initialized" params'] (.ok ()) true
  | asked {c id params outcome r} (hc : c.isInner = true)
    (hr : ∀ e, r = .error e → ∃ f, e = .rpc f) :
    Turn c true [.request id c.method params outcome] r true
  | told {n params} :
    Turn (.notice n) true [.notification (noticeMethod n) params] (.ok ()) true
  | lingering {limit id params outcome e} :
    Turn (.shutdown limit) true [.request id "shutdown" params outcome] (.error (.rpc e)) true
  | farewell {limit id params params' v} :
    Turn (.shutdown limit) true
      [.request id "shutdown" params (.ok v), .notification "exit" params'] (.ok ()) false

namespace Dialogue

variable {peer : Peer} {s : Dialogue}

theorem step_declined [Capabilities] {c : Command} (h : ¬ c.fits s.client.initialized) :
    s.step peer c = (c.declined, s) := by
  obtain ⟨⟨b⟩, line⟩ := s
  cases c <;> cases b <;> first | rfl | exact absurd rfl h

/-! ## Calls that are made -/

/-- A call, made on a dialogue, comes to a result and leads to another dialogue. -/
def Leads {α : Type} (x : Client.Call (StateM Line) α) (s : Dialogue) (a : α) (s' : Dialogue) :
    Prop :=
  (x.run s.client).run s.line = ((a, s'.client), s'.line)

theorem Leads.step_eq [Capabilities] {c : Command} {r : Except ClientFailure Unit} {s' : Dialogue}
    (h : Leads (c.perform (Line.channel peer)) s r s') : s.step peer c = (r, s') := by
  unfold Leads at h
  unfold step
  rw [h]

namespace Leads

variable {α β : Type} {s' s'' : Dialogue} {a : α} {b : β}

theorem bind {x : Client.Call (StateM Line) α} {f : α → Client.Call (StateM Line) β}
    (hx : Leads x s a s') (hf : Leads (f a) s' b s'') : Leads (x >>= f) s b s'' := by
  unfold Leads at hx ⊢
  rw [StateT.run_bind, StateT.run_bind, hx]
  exact hf

theorem map {x : Client.Call (StateM Line) α} (f : α → β) (hx : Leads x s a s') :
    Leads (f <$> x) s (f a) s' := by
  unfold Leads at hx ⊢
  rw [StateT.run_map, StateT.run_map, hx]
  rfl

theorem inside {x y : Client.Call (StateM Line) α} (h : s.client.initialized = true)
    (hx : Leads x s a s') : Leads (do if (← get).initialized then x else y) s a s' := by
  refine bind (a := s.client) rfl ?_
  rwa [if_pos h]

theorem outside {x y : Client.Call (StateM Line) α} (h : s.client.initialized = false)
    (hy : Leads y s a s') : Leads (do if (← get).initialized then x else y) s a s' := by
  refine bind (a := s.client) rfl ?_
  rwa [if_neg (by rw [h]; decide)]

theorem lift {x : StateM Line α} {l : Line} (h : x s.line = (a, l)) :
    Leads (liftM x) s a ⟨s.client, l⟩ := by
  show (((x s.line).1, s.client), (x s.line).2) = _
  rw [h]

section
variable {method : String} {params : Option Json} {limit : Duration} {decode : Decoder α} {l : Line}

theorem ask {outcome : Except RpcFailure Json}
    (h : s.line.request peer method params limit = (outcome, l)) :
    Leads (Client.ask (Line.channel peer) limit method params decode) s
      ((Rpc.typedOutcome decode outcome).mapError .rpc) ⟨s.client, l⟩ :=
  bind (lift h) rfl

theorem tell {sent : Except RpcFailure Unit}
    (h : s.line.notify peer method params = (sent, l)) :
    Leads (Client.tell (Line.channel peer) method params) s (sent.mapError .rpc)
      ⟨s.client, l⟩ := by
  refine bind (lift h) ?_
  cases sent <;> rfl

end

end Leads

theorem typedOutcome_ok {α : Type} {decode : Decoder α} {outcome : Except RpcFailure Json} {a : α}
    (h : Rpc.typedOutcome decode outcome = .ok a) :
    ∃ v, outcome = .ok v ∧ decode v = .ok a := by
  cases outcome with
  | error e => cases h
  | ok v =>
    refine ⟨v, rfl, ?_⟩
    simp only [Rpc.typedOutcome] at h
    cases hv : decode v with
    | error e => rw [hv] at h; cases h
    | ok a' => rw [hv] at h; cases h; rfl

section
variable [Capabilities]

/-- What a call comes to, once it is made. -/
def Turns (peer : Peer) (s : Dialogue) (c : Command) : Prop :=
  ∃ added r s', Leads (c.perform (Line.channel peer)) s r s' ∧
    s.line.Extends peer added s'.line ∧ (added = [] → s.line.isUp peer = false) ∧
    Turn c s.client.initialized added r s'.client.initialized

theorem connect_turns (line : Line) (processId : Nat) (root : Uri) (limit : Duration) :
    Turns peer ⟨⟨false⟩, line⟩ (.connect processId root limit) := by
  rcases line.request_cases peer "initialize" (some (handshake processId root)) limit with
    ⟨e, l, hq, hx, hup⟩ | ⟨id, outcome, l, hq, hx⟩
  · refine ⟨_, _, ⟨⟨false⟩, l⟩, ?_, hx, fun _ => hup, .unsent (e := e)⟩
    -- the result of the handshake is forgotten, so the one before that has to be named
    exact .map (a := Except.error _) _ (.outside rfl (.bind (.ask hq) rfl))
  · cases hd : Rpc.typedOutcome Welcome.record.decode outcome with
    | error e =>
      refine ⟨_, _, ⟨⟨false⟩, l⟩, ?_, hx, nofun, .attempt (e := e)⟩
      refine .map (a := Except.error _) _ (.outside rfl (.bind (.ask hq) ?_))
      rw [hd]
      rfl
    | ok w =>
      obtain ⟨v, rfl, hv⟩ := typedOutcome_ok hd
      rcases l.notify_cases peer "initialized" (some (.obj [])) with
        ⟨e, l', ht, hx', -⟩ | ⟨l', ht, hx'⟩
      · -- answered, but the client cannot say so: it stays outside
        refine ⟨_, _, ⟨⟨false⟩, l'⟩, ?_, hx.trans hx', nofun, .attempt (e := e)⟩
        refine .map (a := Except.error _) _ (.outside rfl (.bind (.ask hq) ?_))
        rw [hd]
        exact .bind (.tell ht) rfl
      · refine ⟨_, _, ⟨⟨true⟩, l'⟩, ?_, hx.trans hx', nofun, .greeting hv⟩
        refine .map (a := Except.ok w) _ (.outside rfl (.bind (.ask hq) ?_))
        rw [hd]
        exact .bind (.tell ht) rfl

theorem shutdown_turns (line : Line) (limit : Duration) :
    Turns peer ⟨⟨true⟩, line⟩ (.shutdown limit) := by
  rcases line.request_cases peer "shutdown" none limit with
    ⟨e, l, hq, hx, hup⟩ | ⟨id, outcome, l, hq, hx⟩
  · refine ⟨_, _, ⟨⟨true⟩, l⟩, ?_, hx, fun _ => hup, .unsent (e := e)⟩
    exact .inside rfl (.bind (.ask hq) rfl)
  · cases outcome with
    | error e =>
      refine ⟨_, _, ⟨⟨true⟩, l⟩, ?_, hx, nofun, .lingering (e := e)⟩
      exact .inside rfl (.bind (.ask hq) rfl)
    | ok v =>
      rcases l.notify_cases peer "exit" none with ⟨e, l', ht, hx', -⟩ | ⟨l', ht, hx'⟩
      · -- the server has let go, but the client has not: it stays inside
        refine ⟨_, _, ⟨⟨true⟩, l'⟩, ?_, hx.trans hx', nofun, .lingering (e := e)⟩
        exact .inside rfl (.bind (.ask hq) (.bind (.tell ht) rfl))
      · refine ⟨_, _, ⟨⟨false⟩, l'⟩, ?_, hx.trans hx', nofun, .farewell⟩
        exact .inside rfl (.bind (.ask hq) (.bind (.tell ht) rfl))

/-- A call within a session that asks the server, and forgets what it is told. -/
theorem asked_turns {α : Type} {line : Line} {c : Command} (limit : Duration)
    (params : Option Json) (decode : Decoder α) (hc : c.isInner = true)
    (hp : ∀ r s', Leads (Client.ask (Line.channel peer) limit c.method params decode)
      ⟨⟨true⟩, line⟩ r s' →
      Leads (c.perform (Line.channel peer)) ⟨⟨true⟩, line⟩ (r.map fun _ => ()) s') :
    Turns peer ⟨⟨true⟩, line⟩ c := by
  rcases line.request_cases peer c.method params limit with
    ⟨e, l, hq, hx, hup⟩ | ⟨id, outcome, l, hq, hx⟩
  · exact ⟨_, _, ⟨⟨true⟩, l⟩, hp _ _ (.ask hq), hx, fun _ => hup, .unsent⟩
  · refine ⟨_, _, ⟨⟨true⟩, l⟩, hp _ _ (.ask hq), hx, nofun, .asked hc ?_⟩
    intro e he
    cases hd : Rpc.typedOutcome decode outcome with
    | error f => rw [hd] at he; cases he; exact ⟨f, rfl⟩
    | ok a => rw [hd] at he; cases he

theorem notice_turns (line : Line) (n : FileNotice) :
    Turns peer ⟨⟨true⟩, line⟩ (.notice n) := by
  rcases line.notify_cases peer (noticeMethod n) (some (noticeParams n)) with
    ⟨e, l, ht, hx, hup⟩ | ⟨l, ht, hx⟩
  · exact ⟨_, _, ⟨⟨true⟩, l⟩, .inside rfl (.tell ht), hx, fun _ => hup, .unsent⟩
  · exact ⟨_, _, ⟨⟨true⟩, l⟩, .inside rfl (.tell ht), hx, nofun, .told⟩

/-- **A call that is made is one of the turns.** -/
theorem turns_of_fits (peer : Peer) {c : Command} (h : c.fits s.client.initialized) :
    Turns peer s c := by
  obtain ⟨⟨b⟩, line⟩ := s
  cases c <;> cases h
  case connect processId root limit => exact connect_turns line processId root limit
  case shutdown limit => exact shutdown_turns line limit
  case searchSymbols limit query =>
    exact asked_turns limit _ _ rfl fun r s' hr => .map _ (.inside rfl hr)
  case references limit uri p declaration =>
    refine asked_turns limit (some (referenceParams uri p declaration))
      (Decoder.optional (Decoder.list Place.record.decode)) rfl fun r s' hr => ?_
    -- an absent list is an empty one, which does not change whether the call succeeds
    have hmap : (r.map fun places => places.getD []).map (fun _ => ()) = r.map fun _ => () := by
      cases r <;> rfl
    rw [← hmap]
    exact .map _ (.inside rfl (hr.bind rfl))
  case outline limit uri =>
    exact asked_turns limit _ _ rfl fun r s' hr => .map _ (.inside rfl hr)
  case notice n => exact notice_turns line n

end

end Dialogue

/-! ## What is sent, in its order -/

/-- Whether a message begins or ends a session. -/
def bounds? : Sent → Option Bool
  | .notification method _ =>
    if method = "initialized" then some true else if method = "exit" then some false else none
  | _ => none

def after (isOpen : Bool) (m : Sent) : Bool := (bounds? m).getD isOpen

/-- Whether a session is open when these messages have been sent. -/
def isOpen (own : List Sent) : Bool := own.foldl after false

/-- **What may follow the messages that have been sent.** -/
structure Allowed [Capabilities] (before : List Sent) (m : Sent) : Prop where
  /-- Outside a session there is nothing but the handshake. -/
  outside : isOpen before = false →
    (∃ id params outcome, m = .request id "initialize" params outcome) ∨
      ∃ params, m = .notification "initialized" params
  begins : ∀ params, m = .notification "initialized" params →
    ∃ earlier id params' v w, before = earlier ++ [.request id "initialize" params' (.ok v)] ∧
      Welcome.record.decode v = .ok w
  ends : ∀ params, m = .notification "exit" params →
    ∃ earlier id params' v, before = earlier ++ [.request id "shutdown" params' (.ok v)]

def Disciplined [Capabilities] (own : List Sent) : Prop :=
  ∀ before m later, own = before ++ m :: later → Allowed before m

theorem isOpen_append (xs ys : List Sent) : isOpen (xs ++ ys) = ys.foldl after (isOpen xs) :=
  List.foldl_append

theorem disciplined_nil [Capabilities] : Disciplined [] := by
  intro before m later h
  simp at h

theorem Disciplined.concat [Capabilities] {own : List Sent} {m : Sent} (h : Disciplined own)
    (hm : Allowed own m) : Disciplined (own ++ [m]) := by
  intro before m' later he
  rcases List.eq_nil_or_concat later with rfl | ⟨later, last, rfl⟩
  · obtain ⟨rfl, hl⟩ := List.append_inj' he rfl
    cases hl
    exact hm
  · rw [List.concat_eq_append, ← List.cons_append, ← List.append_assoc] at he
    exact h before m' later (List.append_inj' he rfl).1

theorem noticeMethod_ne (n : FileNotice) :
    noticeMethod n ≠ "initialized" ∧ noticeMethod n ≠ "exit" := by
  cases n <;> simp [noticeMethod]

namespace Allowed

variable [Capabilities] {own : List Sent}

/-- A request neither begins nor ends a session, so only its place matters. -/
theorem request {id : Nat} {method : String} {params : Option Json}
    {outcome : Except RpcFailure Json} (h : isOpen own = true ∨ method = "initialize") :
    Allowed own (.request id method params outcome) where
  outside := by
    intro hown
    rcases h with h | rfl
    · rw [hown] at h; cases h
    · exact .inl ⟨id, params, outcome, rfl⟩
  begins := nofun
  ends := nofun

theorem initialized {id : Nat} {params params' : Option Json} {v : Json} {w : Welcome}
    (hw : Welcome.record.decode v = .ok w) :
    Allowed (own ++ [.request id "initialize" params (.ok v)])
      (.notification "initialized" params') where
  outside := fun _ => .inr ⟨params', rfl⟩
  begins := fun _ _ => ⟨own, id, params, v, w, rfl, hw⟩
  ends := fun _ e => by simp at e

/-- A notification within a session, which may end it. -/
theorem notification {method : String} {params : Option Json} (h : isOpen own = true)
    (hm : method ≠ "initialized")
    (he : method = "exit" → ∃ earlier id params v,
      own = earlier ++ [.request id "shutdown" params (.ok v)]) :
    Allowed own (.notification method params) where
  outside := fun hown => by rw [h] at hown; cases hown
  begins := fun _ e => absurd (Sent.notification.inj e).1 hm
  ends := fun _ e => he (Sent.notification.inj e).1

end Allowed

section
variable [Capabilities] {c : Command} {b b' : Bool} {added own : List Sent}
  {r : Except ClientFailure Unit}

theorem Turn.foldl_after (h : Turn c b added r b') : added.foldl after b = b' := by
  cases h with
  | told => rename_i n _; simp [after, bounds?, noticeMethod_ne n]
  | _ => rfl

theorem Turn.disciplined (h : Turn c b added r b') (hb : isOpen own = b)
    (hd : Disciplined own) : Disciplined (own ++ added) := by
  cases h with
  | unsent => rwa [List.append_nil]
  | attempt => exact hd.concat (.request (.inr rfl))
  | greeting hw =>
    rw [List.append_cons]
    exact (hd.concat (.request (.inr rfl))).concat (.initialized hw)
  | asked => exact hd.concat (.request (.inl hb))
  | told =>
    rename_i n _
    have hn := noticeMethod_ne n
    exact hd.concat (.notification hb hn.1 fun e => absurd e hn.2)
  | lingering => exact hd.concat (.request (.inl hb))
  | farewell =>
    rename_i id params _ v
    rw [List.append_cons]
    refine (hd.concat (.request (.inl hb))).concat (.notification ?_ (by decide) fun _ => ?_)
    · rw [isOpen_append, hb]; rfl
    · exact ⟨own, id, params, v, rfl⟩

/-- A call that is made and fails leaves the session as it is. -/
theorem Turn.failed (h : Turn c b added r b') {e : ClientFailure} (he : r = .error e) :
    (∃ f, e = .rpc f) ∧ b' = b := by
  cases h with
  | asked _ hr => exact ⟨hr e he, rfl⟩
  | _ => cases he <;> exact ⟨⟨_, rfl⟩, rfl⟩

theorem Turn.succeeded (h : Turn c b added r b') (hr : r = .ok ()) :
    b' = !c.isShutdown := by
  cases h with
  | asked hc => simp only [Command.isInner, Bool.and_eq_true] at hc; exact hc.2.symm
  | _ => cases hr <;> rfl

theorem Turn.head (h : Turn c b added r b') :
    added = [] ∨ ∃ m rest, added = m :: rest ∧ m.method? = some c.method := by
  cases h with
  | unsent => exact .inl rfl
  | _ => exact .inr ⟨_, _, rfl, rfl⟩

end

/-- After the end of a session there is none until the next beginning. -/
theorem isOpen_exit {before between : List Sent} {params : Option Json}
    (h : ∀ params, .notification "initialized" params ∉ between) :
    isOpen (before ++ .notification "exit" params :: between) = false := by
  rw [isOpen_append, List.foldl_cons]
  show between.foldl after false = false
  induction between with
  | nil => rfl
  | cons m between ih =>
    have hm : after false m = false := by
      cases m with
      | notification method p =>
        have hne : method ≠ "initialized" := fun e => h p (e ▸ List.mem_cons_self)
        simp only [after, bounds?, if_neg hne]
        split <;> rfl
      | _ => rfl
    rw [List.foldl_cons, hm]
    exact ih fun params hp => h params (List.mem_cons_of_mem _ hp)

/-! ## Runs -/

/-- **What a call does to a session.** -/
structure Lawful (peer : Peer) (c : Command) (s : Dialogue) (r : Except ClientFailure Unit)
    (s' : Dialogue) : Prop where
  premature : r = .error .notInitialized ↔ s.client.initialized = false ∧ c.isInner = true
  repeated : r = .error (.protocol "Client already initialized") ↔
    s.client.initialized = true ∧ c.isConnect = true
  idle : s.client.initialized = false → c.isShutdown = true → r = .ok ()
  /-- A call that is declined changes nothing, the number of the next request included. -/
  unchanged : r = .error .notInitialized ∨ r = .error (.protocol "Client already initialized") ∨
    (s.client.initialized = false ∧ c.isShutdown = true) → s' = s
  failed : ∀ e, r = .error e → s'.client = s.client
  /-- Any other call that succeeds leaves the client in a session, and the last one outside. -/
  succeeded : r = .ok () → s'.client.initialized = (!c.isShutdown)
  /-- A call that is not declined sends its message, if the connection is open. -/
  sends : c.fits s.client.initialized → s.line.isUp peer = true →
    ∃ m rest, s'.line.own = s.line.own ++ m :: rest ∧ m.method? = some c.method

namespace Dialogue

variable [Capabilities] {peer : Peer} {s : Dialogue}

theorem step_turn (peer : Peer) {c : Command} (h : c.fits s.client.initialized) :
    ∃ added, s.line.Extends peer added (s.step peer c).2.line ∧
      (added = [] → s.line.isUp peer = false) ∧
      Turn c s.client.initialized added (s.step peer c).1
        (s.step peer c).2.client.initialized := by
  obtain ⟨added, r, s', hl, hx, hup, ht⟩ := turns_of_fits peer h
  rw [hl.step_eq]
  exact ⟨added, hx, hup, ht⟩

theorem lawful_of_fits (peer : Peer) {c : Command} (h : c.fits s.client.initialized) :
    Lawful peer c s (s.step peer c).1 (s.step peer c).2 := by
  obtain ⟨added, hx, hup, ht⟩ := step_turn peer h
  generalize s.step peer c = q at hx ht
  -- none of the refusals is a failed exchange, and outside a session only a handshake is made
  have hne : q.1 ≠ .error .notInitialized ∧
      q.1 ≠ .error (.protocol "Client already initialized") := by
    refine ⟨fun he => ?_, fun he => ?_⟩ <;> obtain ⟨⟨f, hf⟩, -⟩ := ht.failed he <;> cases hf
  have hopen : s.client.initialized = !c.isConnect := h
  have hout (ho : s.client.initialized = false) : c.isInner = false ∧ c.isShutdown = false := by
    have hc : c.isConnect = true := by simpa [ho] using hopen
    exact ⟨by simp [Command.isInner, hc], Command.isShutdown_of_isConnect hc⟩
  refine
    { premature := ⟨fun he => absurd he hne.1, fun ⟨ho, hc⟩ => ?_⟩
      repeated := ⟨fun he => absurd he hne.2, fun ⟨ho, hc⟩ => ?_⟩
      idle := fun ho hs => ?_
      unchanged := ?_
      failed := fun e he => congrArg Client.mk (ht.failed he).2
      succeeded := ht.succeeded
      sends := fun _ hline => ?_ }
  · rw [(hout ho).1] at hc
    cases hc
  · rw [ho, hc] at hopen
    cases hopen
  · rw [(hout ho).2] at hs
    cases hs
  · rintro (he | he | ⟨ho, hs⟩)
    · exact absurd he hne.1
    · exact absurd he hne.2
    · rw [(hout ho).2] at hs
      cases hs
  · rcases ht.head with rfl | ⟨m, rest, rfl, hm⟩
    · rw [hup rfl] at hline
      cases hline
    · exact ⟨m, rest, hx.own_eq, hm⟩

theorem lawful_of_not_fits (peer : Peer) {c : Command} (h : ¬ c.fits s.client.initialized) :
    Lawful peer c s (s.step peer c).1 (s.step peer c).2 := by
  rw [step_declined h]
  obtain ⟨⟨b⟩, line⟩ := s
  cases c <;> cases b <;> first
    | exact absurd rfl h
    | constructor <;>
        simp [Command.declined, Command.isInner, Command.isConnect, Command.isShutdown,
          Command.fits]

theorem step_lawful (peer : Peer) (s : Dialogue) (c : Command) :
    Lawful peer c s (s.step peer c).1 (s.step peer c).2 := by
  by_cases h : c.fits s.client.initialized
  · exact lawful_of_fits peer h
  · exact lawful_of_not_fits peer h

/-- What every run keeps. -/
structure Inv (peer : Peer) (s : Dialogue) : Prop where
  sound : s.line.Sound peer
  isOpen_own : isOpen s.line.own = s.client.initialized
  disciplined : Disciplined s.line.own

theorem step_inv (h : Inv peer s) (c : Command) : Inv peer (s.step peer c).2 := by
  by_cases hf : c.fits s.client.initialized
  · obtain ⟨added, hx, -, ht⟩ := step_turn peer hf
    refine ⟨hx.sound h.sound, ?_, ?_⟩
    · rw [hx.own_eq, isOpen_append, h.isOpen_own]
      exact ht.foldl_after
    · rw [hx.own_eq]
      exact ht.disciplined h.isOpen_own h.disciplined
  · rwa [step_declined hf]

theorem foldl_inv (commands : List Command) (h : Inv peer s) :
    Inv peer (commands.foldl (fun s c => (s.step peer c).2) s) := by
  induction commands generalizing s with
  | nil => exact h
  | cons c commands ih => exact ih (step_inv h c)

theorem run_inv (peer : Peer) (commands : List Command) : Inv peer (run peer commands) :=
  foldl_inv commands ⟨.empty peer, rfl, disciplined_nil⟩

end Dialogue

/-- **The discipline of a session**, however the capabilities of the server are read. -/
theorem session_discipline [Capabilities] (peer : Peer) (commands : List Command) :
    let s := Dialogue.run peer commands
    s.line.Sound peer ∧ isOpen s.line.own = s.client.initialized ∧ Disciplined s.line.own ∧
    (∀ before params between m later,
      s.line.own = before ++ .notification "exit" params :: (between ++ m :: later) →
      (∀ params, .notification "initialized" params ∉ between) →
      (∃ id params outcome, m = .request id "initialize" params outcome) ∨
        ∃ params, m = .notification "initialized" params) ∧
    ∀ c, Lawful peer c s (s.step peer c).1 (s.step peer c).2 := by
  intro s
  have h : Dialogue.Inv peer s := Dialogue.run_inv peer commands
  refine ⟨h.sound, h.isOpen_own, h.disciplined, ?_, s.step_lawful peer⟩
  intro before params between m later hown hbetween
  refine (h.disciplined (before ++ .notification "exit" params :: between) m later ?_).outside
    (isOpen_exit hbetween)
  rw [hown, List.append_assoc, List.cons_append]

/-- A whole session, with both exchanges answered. -/
example :
    let welcome :=
      "\x7b\"jsonrpc\":\"2.0\",\"id\":1,\"result\":\x7b\"capabilities\":\x7b\x7d\x7d\x7d"
    let goodbye := "\x7b\"jsonrpc\":\"2.0\",\"id\":2,\"result\":null\x7d"
    let peer : Peer := fun moment =>
      match moment with
      | 1 => [.text welcome]
      | 4 => [.text goodbye]
      | _ => []
    let _ : Capabilities := ⟨Capabilities.unread⟩
    let s := Dialogue.run peer [.connect 1 ⟨"file:///a", "/a"⟩ ⟨5⟩, .shutdown ⟨5⟩]
    s.line.own.map Sent.method? =
      [some "initialize", some "initialized", some "shutdown", some "exit"] := by
  rfl

end SymbolContext.Server
