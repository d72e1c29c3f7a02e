import SymbolContext.Proofs.Rpc.Steps

/-!
# A line to a server that does as it likes

A `Line` is the client's end of a connection together with all that has been sent over it. Before a
message is sent, and while a request waits, any `Arrival`s can reach it: a `Peer` says which, moment
by moment. So a request may be answered with a result or an error, be left unanswered, or lose its
connection, and requests of the server may come in between.

* `Line.Sound`, kept by both steps (`Sound.request`, `Sound.notify`): **what counts as sent is what
  the connection has put on its way, and what counts as answered has been answered by the peer.**
* `request_cases`, `notify_cases`: a request or a notification adds at most itself to the messages
  that the client sends on its own behalf.
-/

namespace SymbolContext.Rpc

/-- What reaches the client's end of a connection without its doing. -/
inductive Arrival where
  /-- A text. -/
  | text (text : String)
  /-- The inbound texts end. -/
  | ended
  /-- No more texts can be written. -/
  | broken

/-- The arrivals of each moment. -/
abbrev Peer := Nat → List Arrival

/-- At some moment the peer sends a text that holds this response to the request `id`. -/
def Peer.Responds (peer : Peer) (id : Nat) (r : Response) : Prop :=
  ∃ moment text, .text text ∈ peer moment ∧ answerTo? id text = some r

/-- The peer answers the request `id` with a result. -/
def Peer.Answers (peer : Peer) (id : Nat) (v : Json) : Prop :=
  ∃ r, peer.Responds id r ∧ r.outcome = .ok v

/-- What has been sent: a request with its outcome, a notification, or a reply to the server. -/
inductive Sent where
  | request (id : Nat) (method : String) (params : Option Json) (outcome : Except RpcFailure Json)
  | notification (method : String) (params : Option Json)
  | reply (text : String)

namespace Sent

def text : Sent → String
  | request id method params _ => requestText id method params
  | notification method params => notificationText method params
  | reply text => text

/-- The method of what the client sent on its own behalf. -/
def method? : Sent → Option String
  | request _ method _ _ | notification method _ => some method
  | reply _ => none

/-- Whether the client sent it on its own behalf. -/
def isOwn : Sent → Bool
  | reply _ => false
  | _ => true

end Sent

namespace Connection

/-- The connection after an arrival, and what was put on its way in reply. -/
def meet (c : Connection) : Arrival → Connection × List String
  | .text text => ((c.receive text).1, (c.receive text).1.outbox.drop c.outbox.length)
  | .ended => (c.endInbound, [])
  | .broken => (c.closeOutbound, [])

def meetAll (c : Connection) : List Arrival → Connection × List String
  | [] => (c, [])
  | a :: rest => (((c.meet a).1.meetAll rest).1, (c.meet a).2 ++ ((c.meet a).1.meetAll rest).2)

/-- What a request has come to when its wait is over. -/
def settle (c : Connection) (id : Nat) (method : String) (limit : Duration) :
    Except RpcFailure Json × Connection :=
  match c.delivery? id with
  | some d => (d.outcome, c)
  | none => (.error (.timedOut method limit), c.giveUp id)

theorem enqueue_outbox {c : Connection} {text : String} (h : c.writable = true) :
    (c.enqueue text).outbox = c.outbox ++ [text] := by
  unfold enqueue
  rw [if_pos h]

/-- A text is replied to with one text at most, behind those that are on their way. -/
theorem receive_outbox (c : Connection) (text : String) :
    ∃ replies, (c.receive text).1.outbox = c.outbox ++ replies := by
  rcases c.receive_cases text with ⟨n, hn, r, h⟩ | h
  · exact ⟨[], by rw [c.receive_eq_of_some hn h, List.append_nil]; rfl⟩
  · rcases c.receive_eq_of_none h with hc | ⟨reply, hc⟩
    · exact ⟨[], by rw [hc, List.append_nil]⟩
    · rw [hc]
      unfold enqueue
      split
      · exact ⟨[reply], rfl⟩
      · exact ⟨[], (List.append_nil _).symm⟩

theorem meet_outbox {c : Connection} {a : Arrival} (h : (c.meet a).1.writable = true) :
    c.writable = true ∧ (c.meet a).1.outbox = c.outbox ++ (c.meet a).2 := by
  cases a with
  | text text =>
    obtain ⟨replies, hr⟩ := c.receive_outbox text
    refine ⟨(c.receive_rest text).2.2.symm.trans h, ?_⟩
    simp only [meet, hr, List.drop_left]
  | ended => exact ⟨h, (List.append_nil _).symm⟩
  | broken => cases h

theorem meetAll_outbox : ∀ (arrivals : List Arrival) {c : Connection},
    (c.meetAll arrivals).1.writable = true →
    c.writable = true ∧ (c.meetAll arrivals).1.outbox = c.outbox ++ (c.meetAll arrivals).2
  | [], _, h => ⟨h, (List.append_nil _).symm⟩
  | a :: rest, c, h => by
    obtain ⟨hrest, hout⟩ := meetAll_outbox rest h
    obtain ⟨hfirst, hout'⟩ := meet_outbox hrest
    refine ⟨hfirst, ?_⟩
    simp only [meetAll, hout, hout', List.append_assoc]

theorem delivery?_meet {c : Connection} {a : Arrival} {n : Nat} {r : Response}
    (h : (c.meet a).1.delivery? n = some (some r)) :
    c.delivery? n = some (some r) ∨ ∃ text, a = .text text ∧ answerTo? n text = some r := by
  cases a with
  | text text =>
    rw [meet, delivery?_receive, Option.or_eq_some_iff] at h
    rcases h with h | ⟨-, h⟩
    · exact .inl h
    · split at h
      · obtain ⟨r', ha, hr⟩ := Option.map_eq_some_iff.1 h
        cases hr
        exact .inr ⟨text, rfl, ha⟩
      · cases h
  | ended =>
    rw [meet, delivery?_endInbound, Option.or_eq_some_iff] at h
    rcases h with h | ⟨-, h⟩
    · exact .inl h
    · split at h <;> cases h
  | broken => exact .inl h

theorem delivery?_meetAll {n : Nat} {r : Response} :
    ∀ (arrivals : List Arrival) {c : Connection},
    (c.meetAll arrivals).1.delivery? n = some (some r) →
    c.delivery? n = some (some r) ∨ ∃ text, .text text ∈ arrivals ∧ answerTo? n text = some r
  | [], _, h => .inl h
  | a :: rest, c, h => by
    rcases delivery?_meetAll rest h with h | ⟨text, ht, ha⟩
    · rcases delivery?_meet h with h | ⟨text, rfl, ha⟩
      · exact .inl h
      · exact .inr ⟨text, List.mem_cons_self, ha⟩
    · exact .inr ⟨text, List.mem_cons_of_mem _ ht, ha⟩

theorem settle_ok {c : Connection} {id : Nat} {method : String} {limit : Duration} {v : Json}
    (h : (c.settle id method limit).1 = .ok v) :
    ∃ r, c.delivery? id = some (some r) ∧ r.outcome = .ok v := by
  unfold settle at h
  split at h
  · rename_i d hd
    cases d with
    | some r => exact ⟨r, hd, h⟩
    | none => cases h
  · cases h

theorem settle_rest (c : Connection) (id : Nat) (method : String) (limit : Duration) :
    (c.settle id method limit).2.writable = c.writable ∧
      (c.settle id method limit).2.outbox = c.outbox ∧
      (c.settle id method limit).2.delivered = c.delivered := by
  unfold settle
  split <;> exact ⟨rfl, rfl, rfl⟩

end Connection

/-- **The client's end of a connection, and all that has been sent over it.** -/
structure Line where
  connection : Connection := {}
  sent : List Sent := []
  /-- The moments that have passed. -/
  time : Nat := 0

namespace Line

/-- What the client has sent on its own behalf. -/
def own (l : Line) : List Sent := l.sent.filter Sent.isOwn

/-- A moment passes. -/
def wait (peer : Peer) (l : Line) : Line where
  connection := (l.connection.meetAll (peer l.time)).1
  sent := l.sent ++ (l.connection.meetAll (peer l.time)).2.map .reply
  time := l.time + 1

/-- Whether the next message finds the connection open. -/
def isUp (peer : Peer) (l : Line) : Bool :=
  !(l.wait peer).connection.closed && (l.wait peer).connection.writable

/-- Make a request: what arrives before it, and while it waits, is up to the peer. -/
def request (peer : Peer) (method : String) (params : Option Json) (limit : Duration) (l : Line) :
    Except RpcFailure Json × Line :=
  let ready := l.wait peer
  match ready.connection.start method params with
  | (.error e, c) => (.error e, { ready with connection := c })
  | (.ok id, c) =>
    -- what it comes to is known only after the wait; its text is on its way before
    let r := (c.meetAll (peer ready.time)).1.settle id method limit
    let asked : Line :=
      { ready with connection := c, sent := ready.sent ++ [.request id method params r.1] }
    (r.1, { asked.wait peer with connection := r.2 })

/-- Send a notification. -/
def notify (peer : Peer) (method : String) (params : Option Json) (l : Line) :
    Except RpcFailure Unit × Line :=
  let ready := l.wait peer
  match ready.connection.notify method params with
  | (.error e, c) => (.error e, { ready with connection := c })
  | (.ok _, c) =>
    (.ok (), { ready with connection := c, sent := ready.sent ++ [.notification method params] })

/-- The line as a way to exchange messages. -/
def channel (peer : Peer) : Channel (StateM Line) where
  request := fun method params limit => request peer method params limit
  notify := fun method params => notify peer method params

/-- **What a line says is what happened.** -/
structure Sound (peer : Peer) (l : Line) : Prop where
  /-- As long as texts can be written, those on their way are those that count as sent. -/
  posted : l.connection.writable = true → l.connection.outbox = l.sent.map Sent.text
  heard : ∀ id r, l.connection.delivery? id = some (some r) → peer.Responds id r
  answered : ∀ id method params v, .request id method params (.ok v) ∈ l.sent → peer.Answers id v

theorem Sound.empty (peer : Peer) : Sound peer {} where
  posted := fun _ => rfl
  heard := fun _ _ h => by cases h
  answered := fun _ _ _ _ h => by cases h

/-- The messages that the client has added on its own behalf, from one line to a later one. -/
structure Extends (peer : Peer) (l : Line) (added : List Sent) (l' : Line) : Prop where
  own_eq : l'.own = l.own ++ added
  sound : l.Sound peer → l'.Sound peer

theorem Extends.trans {peer : Peer} {l l' l'' : Line} {xs ys : List Sent}
    (h : l.Extends peer xs l') (h' : l'.Extends peer ys l'') : l.Extends peer (xs ++ ys) l'' where
  own_eq := by rw [h'.own_eq, h.own_eq, List.append_assoc]
  sound := h'.sound ∘ h.sound

section
variable (peer : Peer) (l : Line) (method : String) (params : Option Json) (limit : Duration)

theorem own_wait : (l.wait peer).own = l.own := by
  simp [own, wait, Sent.isOwn]

variable {peer l}

theorem Sound.wait (h : l.Sound peer) : (l.wait peer).Sound peer where
  posted := by
    intro hw
    obtain ⟨hw', hout⟩ := Connection.meetAll_outbox (peer l.time) hw
    have htexts : ((l.connection.meetAll (peer l.time)).2.map Sent.reply).map Sent.text =
        (l.connection.meetAll (peer l.time)).2 := by simp [Function.comp_def, Sent.text]
    show (l.connection.meetAll (peer l.time)).1.outbox = (l.sent ++ _).map Sent.text
    rw [hout, h.posted hw', List.map_append, htexts]
  heard := by
    intro id r hr
    rcases Connection.delivery?_meetAll _ hr with hr | ⟨text, ht, ha⟩
    · exact h.heard id r hr
    · exact ⟨_, text, ht, ha⟩
  answered := by
    intro id method params v hm
    simp only [Line.wait, List.mem_append, List.mem_map, reduceCtorEq, and_false, exists_false,
      or_false] at hm
    exact h.answered id method params v hm

/-- A text is put on its way, and the message that has it counts as sent. -/
theorem Sound.send {c : Connection} {m : Sent} (h : l.Sound peer)
    (hc : c.outbox = l.connection.outbox) (hw : l.connection.writable = true)
    (hd : c.delivered = l.connection.delivered) (hcw : c.writable = true)
    (hm : ∀ id method params v, m = .request id method params (.ok v) → peer.Answers id v) :
    Sound peer { l with connection := c.enqueue m.text, sent := l.sent ++ [m] } where
  posted := by
    intro _
    show (c.enqueue m.text).outbox = _
    rw [Connection.enqueue_outbox hcw, hc, h.posted hw, List.map_append]
    rfl
  heard := by
    intro id r hr
    refine h.heard id r ?_
    rwa [Connection.delivery?, Connection.enqueue_delivered, hd] at hr
  answered := by
    intro id method params v hs
    rcases List.mem_append.1 hs with hs | hs
    · exact h.answered id method params v hs
    · exact hm id method params v (List.mem_singleton.1 hs).symm

theorem Sound.settle {id : Nat} (h : l.Sound peer) :
    Sound peer { l with connection := (l.connection.settle id method limit).2 } := by
  obtain ⟨hw, hout, hd⟩ := l.connection.settle_rest id method limit
  refine ⟨fun h' => ?_, fun id r hr => ?_, h.answered⟩
  · exact hout.trans (h.posted (hw.symm.trans h'))
  · refine h.heard id r ?_
    rwa [Connection.delivery?, hd] at hr

theorem Sound.request (h : l.Sound peer) : (request peer method params limit l).2.Sound peer := by
  have hready := h.wait
  unfold Line.request
  dsimp only
  rcases (l.wait peer).connection.start_cases method params with
    ⟨-, hs⟩ | ⟨-, hw, hs⟩ | ⟨-, -, hs⟩
  · simp only [hs]
    exact ⟨hready.posted, hready.heard, hready.answered⟩
  · simp only [hs]
    -- what has been heard does not depend on what the request comes to, so it is settled first
    have hsend (outcome : Except RpcFailure Json) :=
      hready.send (c := (l.wait peer).connection.registered)
        (m := .request (l.wait peer).connection.nextId method params outcome) rfl hw rfl hw
    have hheard := (hsend (.error .closed) fun _ _ _ _ e => by cases e).wait.heard
    refine Sound.settle method limit (Sound.wait (hsend _ ?_))
    intro id _ _ v e
    obtain ⟨rfl, -, -, hv⟩ := Sent.request.inj e
    obtain ⟨r, hr, ho⟩ := Connection.settle_ok hv
    exact ⟨r, hheard _ r hr, ho⟩
  · simp only [hs]
    exact ⟨hready.posted, hready.heard, hready.answered⟩

theorem Sound.notify (h : l.Sound peer) : (notify peer method params l).2.Sound peer := by
  have hready := h.wait
  unfold Line.notify Connection.notify
  dsimp only
  cases hw : (l.wait peer).connection.writable with
  | true =>
    simp only [↓reduceIte]
    exact hready.send (m := .notification method params) rfl hw rfl hw
      fun _ _ _ _ e => by cases e
  | false =>
    simp only [Bool.false_eq_true, ↓reduceIte]
    exact hready

variable (peer l)

/-- **A request adds itself** to what the client sends on its own behalf, if the connection is
open. -/
theorem request_cases :
    (∃ e l', request peer method params limit l = (.error e, l') ∧ l.Extends peer [] l' ∧
      l.isUp peer = false) ∨
    (∃ id outcome l', request peer method params limit l = (outcome, l') ∧
      l.Extends peer [.request id method params outcome] l') := by
  have hsound (h : l.Sound peer) := h.request method params limit
  have hown := (own_wait peer l).trans (List.append_nil _).symm
  revert hsound
  unfold request
  dsimp only
  rcases (l.wait peer).connection.start_cases method params with
    ⟨hc, hs⟩ | ⟨-, -, hs⟩ | ⟨-, hw, hs⟩
  · simp only [hs]
    intro hsound
    exact .inl ⟨_, _, rfl, ⟨hown, hsound⟩, by simp [isUp, hc]⟩
  · simp only [hs]
    intro hsound
    refine .inr ⟨(l.wait peer).connection.nextId, _, _, rfl, (own_wait peer _).trans ?_, hsound⟩
    rw [← own_wait peer l]
    simp [own, Sent.isOwn]
  · simp only [hs]
    intro hsound
    exact .inl ⟨_, _, rfl, ⟨hown, hsound⟩, by simp [isUp, hw]⟩

theorem notify_cases :
    (∃ e l', notify peer method params l = (.error e, l') ∧ l.Extends peer [] l' ∧
      l.isUp peer = false) ∨
    (∃ l', notify peer method params l = (.ok (), l') ∧
      l.Extends peer [.notification method params] l') := by
  have hsound (h : l.Sound peer) := h.notify method params
  revert hsound
  unfold notify Connection.notify
  dsimp only
  cases hw : (l.wait peer).connection.writable with
  | true =>
    simp only [↓reduceIte]
    intro hsound
    refine .inr ⟨_, rfl, ?_, hsound⟩
    rw [← own_wait peer l]
    simp [own, Sent.isOwn]
  | false =>
    simp only [Bool.false_eq_true, ↓reduceIte]
    intro hsound
    have hown := (own_wait peer l).trans (List.append_nil _).symm
    exact .inl ⟨_, _, rfl, ⟨hown, hsound⟩, by simp [isUp, hw]⟩

end

end Line

end SymbolContext.Rpc
