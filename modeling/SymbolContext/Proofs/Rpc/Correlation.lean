import SymbolContext.Proofs.Rpc.Steps
import Mathlib.Algebra.Group.Nat.Defs
import Mathlib.Data.List.Induction
import Mathlib.Data.List.Nodup

/-!
# Requests and their responses

Callers begin requests over one connection and wait for what is delivered to them. An `Exchange`
is the connection with the requests made over it, and `Exchange.run` carries out any sequence of
events: requests begin, texts arrive, requests time out, the inbound texts end.

* `Exchange.Inv`, kept by every event (`step_inv`): **the numbers that wait are those of the
  requests without an outcome**, and nothing has been delivered to them.
* `tickets_step`: although all requests share one list of numbers, **each request fares as if it
  watched the events alone** (`Ticket.settledBy`).
* `settle_mem_run`: its outcome is what the first event after its start makes of it that settles
  it.
* `requests_correlate` puts these together.
-/

namespace SymbolContext.Rpc

variable {α : Type}

/-! ## Runs -/

/-- A request as its caller keeps it. -/
structure Ticket (α : Type) where
  id : Nat
  method : String
  limit : Duration
  decode : Decoder α
  /-- What the request came to; none while it waits. -/
  outcome : Option (Except RpcFailure α)

/-- What can happen at the client's end of a connection. -/
inductive Event (α : Type) where
  /-- A request begins. -/
  | start (method : String) (params : Option Json) (limit : Duration) (decode : Decoder α)
  /-- A text arrives. -/
  | receive (text : String)
  /-- A request has waited long enough. -/
  | timeOut (id : Nat)
  /-- No more texts arrive. -/
  | finish

def Event.isStart : Event α → Bool
  | .start .. => true
  | _ => false

/-- The request with an outcome, unless it has one already. -/
def Ticket.settle (t : Ticket α) (outcome : Option (Except RpcFailure α)) : Ticket α :=
  { t with outcome := t.outcome.or outcome }

/-- The request after its caller has looked for a delivery. -/
def Ticket.heard (c : Connection) (t : Ticket α) : Ticket α :=
  t.settle ((c.delivery? t.id).map fun d => typedOutcome t.decode d.outcome)

/-- The request when its time is up. -/
def Ticket.late (t : Ticket α) : Ticket α := t.settle (some (.error (.timedOut t.method t.limit)))

/-- **A connection and the requests made over it**, in the order in which they began. -/
structure Exchange (α : Type) where
  connection : Connection := {}
  tickets : List (Ticket α) := []

namespace Exchange

def begin (s : Exchange α) (method : String) (params : Option Json) (limit : Duration)
    (decode : Decoder α) : Exchange α where
  connection := (s.connection.start method params).2
  tickets := s.tickets ++ [{
    id := s.connection.nextId, method, limit, decode
    outcome := match (s.connection.start method params).1 with
      | .ok _ => none
      | .error e => some (.error e) }]

/-- The connection has changed, and all callers look for a delivery. -/
def wake (s : Exchange α) (c : Connection) : Exchange α := ⟨c, s.tickets.map (Ticket.heard c)⟩

/-- One event. -/
def step (s : Exchange α) : Event α → Exchange α
  | .start method params limit decode => s.begin method params limit decode
  | .receive text => s.wake (s.connection.receive text).1
  | .timeOut id =>
    ⟨s.connection.giveUp id, s.tickets.map fun t => if t.id = id then t.late else t⟩
  | .finish => s.wake s.connection.endInbound

/-- All events, over a fresh connection. -/
def run (events : List (Event α)) : Exchange α := events.foldl step {}

theorem run_append (es fs : List (Event α)) : run (es ++ fs) = fs.foldl step (run es) :=
  List.foldl_append

end Exchange

/-! ## What settles a request -/

namespace Ticket

/-- What an event makes of a request that waits. -/
def settledBy (t : Ticket α) : Event α → Option (Except RpcFailure α)
  | .start .. => none
  | .receive text => (answerTo? t.id text).map fun r => typedOutcome t.decode r.outcome
  | .timeOut id => if id = t.id then some (.error (.timedOut t.method t.limit)) else none
  | .finish => some (.error .closed)

@[simp] theorem settle_id (t : Ticket α) (o : Option (Except RpcFailure α)) :
    (t.settle o).id = t.id := rfl

@[simp] theorem settle_outcome (t : Ticket α) (o : Option (Except RpcFailure α)) :
    (t.settle o).outcome = t.outcome.or o := rfl

@[simp] theorem settledBy_settle (t : Ticket α) (o : Option (Except RpcFailure α)) :
    (t.settle o).settledBy = t.settledBy := rfl

@[simp] theorem settle_none (t : Ticket α) : t.settle none = t := by
  unfold settle; rw [Option.or_none]

theorem settle_settle (t : Ticket α) (a b : Option (Except RpcFailure α)) :
    (t.settle a).settle b = t.settle (a.or b) := by
  unfold settle; simp only [Option.or_assoc]

/-- An outcome is final. -/
theorem settle_of_some {t : Ticket α} {o : Except RpcFailure α} (h : t.outcome = some o)
    (x : Option (Except RpcFailure α)) : t.settle x = t := by
  cases t
  cases h
  rfl

end Ticket

namespace Exchange

/-! ## The invariant -/

/-- **The numbers that wait are those of the requests without an outcome.** -/
structure Inv (s : Exchange α) : Prop where
  ids : s.tickets.map Ticket.id = List.range' 1 s.tickets.length
  next : s.connection.nextId = s.tickets.length + 1
  nodup : s.connection.pending.Nodup
  pending : ∀ n, n ∈ s.connection.pending ↔ ∃ t ∈ s.tickets, t.id = n ∧ t.outcome = none
  /-- Nothing has been delivered to a request that waits. -/
  unheard : ∀ t ∈ s.tickets, t.outcome = none → s.connection.delivery? t.id = none
  /-- Nothing has been delivered to a request that has not begun. -/
  known : ∀ n, s.connection.nextId ≤ n → s.connection.delivery? n = none

theorem inv_fresh : Inv ({} : Exchange α) where
  ids := rfl
  next := rfl
  nodup := List.nodup_nil
  pending := by simp
  unheard := by simp
  known := fun _ _ => rfl

section
variable {s : Exchange α} (h : Inv s)
include h

theorem id_lt {t : Ticket α} (ht : t ∈ s.tickets) : t.id < s.connection.nextId := by
  have hm : t.id ∈ s.tickets.map Ticket.id := List.mem_map_of_mem ht
  rw [h.ids, List.mem_range'_1] at hm
  rw [h.next]
  omega

theorem pending_lt {n : Nat} (hn : n ∈ s.connection.pending) : n < s.connection.nextId := by
  obtain ⟨t, ht, rfl, -⟩ := (h.pending n).1 hn
  exact id_lt h ht

theorem nextId_not_pending : s.connection.nextId ∉ s.connection.pending :=
  fun hn => Nat.lt_irrefl _ (pending_lt h hn)

/-! ## Each request fares as if it were alone -/

/-- The connection delivers what it is said to deliver to the requests that wait, so callers hear
just that. -/
theorem wake_tickets (c : Connection) (heard : Nat → Option Delivery)
    (hc : ∀ n ∈ s.connection.pending, c.delivery? n = (s.connection.delivery? n).or (heard n)) :
    (s.wake c).tickets = s.tickets.map fun t =>
      t.settle ((heard t.id).map fun d => typedOutcome t.decode d.outcome) := by
  show s.tickets.map (Ticket.heard c) = _
  apply List.map_congr_left
  intro t ht
  cases ho : t.outcome with
  -- a request that is over hears nothing more, whatever is delivered to its number
  | some o => rw [Ticket.heard, Ticket.settle_of_some ho, Ticket.settle_of_some ho]
  | none =>
    have hp : t.id ∈ s.connection.pending := (h.pending _).2 ⟨t, ht, rfl, ho⟩
    rw [Ticket.heard, hc _ hp, h.unheard t ht ho, Option.none_or]

theorem receive_tickets (text : String) :
    (s.step (.receive text)).tickets =
      s.tickets.map fun t => t.settle (t.settledBy (.receive text)) := by
  show (s.wake _).tickets = _
  rw [wake_tickets h _ (fun n => (answerTo? n text).map some) fun n hn => by
    rw [Connection.delivery?_receive, if_pos hn]]
  apply List.map_congr_left
  intro t _
  rw [Option.map_map]
  rfl

theorem finish_tickets :
    (s.step .finish).tickets = s.tickets.map fun t => t.settle (t.settledBy .finish) :=
  wake_tickets h _ (fun _ => some none) fun n hn => by
    rw [Connection.delivery?_endInbound, if_pos hn]

end

theorem timeOut_tickets (s : Exchange α) (id : Nat) :
    (s.step (.timeOut id)).tickets =
      s.tickets.map fun t => t.settle (t.settledBy (.timeOut id)) := by
  apply List.map_congr_left
  intro t _
  by_cases ht : t.id = id
  · subst ht; simp [Ticket.settledBy, Ticket.late]
  · simp [Ticket.settledBy, ht, Ne.symm ht]

/-- The request that an event begins, if it begins one. -/
def opened (s : Exchange α) : Event α → List (Ticket α)
  | .start method params limit decode =>
    [{ id := s.connection.nextId, method, limit, decode
       outcome := match (s.connection.start method params).1 with
         | .ok _ => none
         | .error e => some (.error e) }]
  | _ => []

/-- **Each request fares as if it watched the events alone.** -/
theorem tickets_step {s : Exchange α} (h : Inv s) (e : Event α) :
    (s.step e).tickets = s.tickets.map (fun t => t.settle (t.settledBy e)) ++ s.opened e := by
  cases e with
  | start method params limit decode =>
    show s.tickets ++ _ = _
    congr 1
    simp [Ticket.settledBy]
  | receive text => rw [receive_tickets h]; simp [opened]
  | timeOut id => rw [timeOut_tickets]; simp [opened]
  | finish => rw [finish_tickets h]; simp [opened]

theorem mem_tickets_step {s : Exchange α} (h : Inv s) {t : Ticket α} (ht : t ∈ s.tickets)
    (e : Event α) : t.settle (t.settledBy e) ∈ (s.step e).tickets := by
  rw [tickets_step h]
  exact List.mem_append_left _ (List.mem_map_of_mem ht)

/-! ## The invariant is kept -/

theorem step_rest (s : Exchange α) (e : Event α) :
    (s.step e).connection.nextId = s.connection.nextId + (if e.isStart then 1 else 0) ∧
      (s.step e).connection.writable = s.connection.writable := by
  cases e with
  | start method params limit decode =>
    obtain ⟨hn, -, hw, -⟩ := s.connection.start_rest method params
    exact ⟨hn, hw⟩
  | receive text =>
    obtain ⟨hn, -, hw⟩ := s.connection.receive_rest text
    exact ⟨hn, hw⟩
  | timeOut id => exact ⟨rfl, rfl⟩
  | finish => exact ⟨rfl, rfl⟩

theorem step_length {s : Exchange α} (h : Inv s) (e : Event α) :
    (s.step e).tickets.length = s.tickets.length + (if e.isStart then 1 else 0) := by
  rw [tickets_step h]
  cases e <;> simp [opened, Event.isStart]

theorem step_ids {s : Exchange α} (h : Inv s) (e : Event α) :
    (s.step e).tickets.map Ticket.id = List.range' 1 (s.step e).tickets.length := by
  have hm : (s.tickets.map fun t => t.settle (t.settledBy e)).map Ticket.id =
      List.range' 1 s.tickets.length := by
    rw [List.map_map, ← h.ids]
    rfl
  rw [step_length h, tickets_step h, List.map_append, hm]
  cases e with
  | start method params limit decode =>
    rw [Event.isStart, if_pos rfl, List.range'_concat]
    simp [opened, h.next, Nat.add_comm]
  | _ => simp [opened, Event.isStart]

/-- The numbers that wait after an event: those it does not settle, and that of a request which it
sets on its way. -/
theorem pending_step {s : Exchange α} (h : Inv s) (e : Event α) (n : Nat) :
    n ∈ (s.step e).connection.pending ↔
      (∃ t ∈ s.tickets, t.id = n ∧ t.outcome = none ∧ t.settledBy e = none) ∨
        ∃ t ∈ s.opened e, t.id = n ∧ t.outcome = none := by
  cases e with
  | start method params limit decode =>
    show n ∈ (s.connection.start method params).2.pending ↔ _
    rw [Connection.mem_pending_start _ (nextId_not_pending h), h.pending]
    simp only [Ticket.settledBy, and_true, opened, List.mem_singleton, exists_eq_left]
    apply or_congr_right
    rcases s.connection.start_cases method params with ⟨-, hs⟩ | ⟨-, -, hs⟩ | ⟨-, -, hs⟩
    · simp [hs]
    · simp [hs, eq_comm]
    · simp [hs]
  | receive text =>
    show n ∈ (s.connection.receive text).1.pending ↔ _
    rw [Connection.receive_pending, List.mem_filter, h.pending]
    simp only [opened, List.not_mem_nil, false_and, exists_false, or_false, Ticket.settledBy,
      Option.map_eq_none_iff, Option.isNone_iff_eq_none]
    constructor
    · rintro ⟨⟨t, ht, rfl, ho⟩, ha⟩
      exact ⟨t, ht, rfl, ho, ha⟩
    · rintro ⟨t, ht, rfl, ho, ha⟩
      exact ⟨⟨t, ht, rfl, ho⟩, ha⟩
  | timeOut id =>
    show n ∈ (s.connection.forget id).pending ↔ _
    rw [Connection.mem_pending_forget, h.pending]
    simp only [opened, List.not_mem_nil, false_and, exists_false, or_false, Ticket.settledBy,
      ite_eq_right_iff, reduceCtorEq, imp_false]
    constructor
    · rintro ⟨⟨t, ht, rfl, ho⟩, ha⟩
      exact ⟨t, ht, rfl, ho, Ne.symm ha⟩
    · rintro ⟨t, ht, rfl, ho, ha⟩
      exact ⟨⟨t, ht, rfl, ho⟩, Ne.symm ha⟩
  | finish =>
    show n ∈ [] ↔ _
    simp [opened, Ticket.settledBy]

theorem pending_step_nodup {s : Exchange α} (h : Inv s) (e : Event α) :
    (s.step e).connection.pending.Nodup := by
  cases e with
  | start method params limit decode =>
    exact s.connection.start_pending_nodup (nextId_not_pending h) h.nodup
  | receive text =>
    show (s.connection.receive text).1.pending.Nodup
    rw [Connection.receive_pending]
    exact h.nodup.filter _
  | timeOut id => exact h.nodup.filter _
  | finish => exact List.nodup_nil

/-- What is delivered at an event is delivered to a number that waits and that the event
settles. -/
theorem delivery?_step {s : Exchange α} {e : Event α} {n : Nat}
    (hd : s.connection.delivery? n = none)
    (hn : n ∉ s.connection.pending ∨ ∃ t : Ticket α, t.id = n ∧ t.settledBy e = none) :
    (s.step e).connection.delivery? n = none := by
  cases e with
  | start method params limit decode =>
    obtain ⟨-, -, -, hs⟩ := s.connection.start_rest method params
    show (s.connection.start method params).2.delivered.lookup n = none
    rw [hs]
    exact hd
  | receive text =>
    show (s.connection.receive text).1.delivery? n = none
    rw [Connection.delivery?_receive, hd, Option.none_or]
    rcases hn with hn | ⟨t, rfl, ht⟩
    · rw [if_neg hn]
    · have ha : answerTo? t.id text = none := Option.map_eq_none_iff.1 ht
      rw [ha, Option.map_none, ite_self]
  | timeOut id => exact hd
  | finish =>
    show s.connection.endInbound.delivery? n = none
    rw [Connection.delivery?_endInbound, hd, Option.none_or]
    rcases hn with hn | ⟨t, -, ht⟩
    · rw [if_neg hn]
    · cases ht

/-- **Every event keeps the invariant.** -/
theorem step_inv {s : Exchange α} (h : Inv s) (e : Event α) : Inv (s.step e) where
  ids := step_ids h e
  next := by rw [(step_rest s e).1, step_length h, h.next]; omega
  nodup := pending_step_nodup h e
  pending := fun n => by
    rw [pending_step h, tickets_step h]
    simp only [List.mem_append, List.mem_map, or_and_right, exists_or]
    apply or_congr_left
    constructor
    · rintro ⟨t, ht, hid, ho, hs⟩
      exact ⟨_, ⟨t, ht, rfl⟩, hid, by rw [Ticket.settle_outcome, ho, hs]; rfl⟩
    · rintro ⟨_, ⟨t, ht, rfl⟩, hid, ho⟩
      obtain ⟨ho, hs⟩ := Option.or_eq_none_iff.1 ho
      exact ⟨t, ht, hid, ho, hs⟩
  unheard := fun t ht ho => by
    rw [tickets_step h, List.mem_append] at ht
    rcases ht with ht | ht
    · obtain ⟨t₀, ht₀, rfl⟩ := List.mem_map.1 ht
      obtain ⟨ho₀, hs⟩ := Option.or_eq_none_iff.1 ho
      exact delivery?_step (h.unheard t₀ ht₀ ho₀) (.inr ⟨t₀, rfl, hs⟩)
    · cases e with
      | start method params limit decode =>
        cases List.mem_singleton.1 ht
        exact delivery?_step (h.known _ (Nat.le_refl _)) (.inl (nextId_not_pending h))
      | _ => simp [opened] at ht
  known := fun n hn => by
    rw [(step_rest s e).1] at hn
    have hle : s.connection.nextId ≤ n := Nat.le_trans (Nat.le_add_right _ _) hn
    exact delivery?_step (h.known n hle)
      (.inl fun hp => Nat.lt_irrefl _ (Nat.lt_of_lt_of_le (pending_lt h hp) hle))

/-! ## Whole runs -/

theorem foldl_inv : ∀ (events : List (Event α)) {s : Exchange α}, Inv s →
    Inv (events.foldl step s)
  | [], _, h => h
  | e :: events, _, h => foldl_inv events (step_inv h e)

theorem run_inv (events : List (Event α)) : Inv (run events) := foldl_inv events inv_fresh

theorem run_concat (events : List (Event α)) (e : Event α) :
    run (events ++ [e]) = (run events).step e := by
  rw [run_append]
  rfl

theorem run_length (events : List (Event α)) :
    (run events).tickets.length = events.countP Event.isStart := by
  induction events using List.reverseRecOn with
  | nil => rfl
  | append_singleton events e ih =>
    rw [run_concat, step_length (run_inv events), ih, List.countP_append]
    congr 1
    cases e <;> rfl

theorem run_nextId (events : List (Event α)) :
    (run events).connection.nextId = events.countP Event.isStart + 1 := by
  rw [(run_inv events).next, run_length]

theorem run_writable (events : List (Event α)) : (run events).connection.writable = true := by
  induction events using List.reverseRecOn with
  | nil => rfl
  | append_singleton events e ih => rw [run_concat, (step_rest _ e).2, ih]

/-- Until the inbound texts end, requests are not refused. -/
theorem run_not_closed {events : List (Event α)} (h : Event.finish ∉ events) :
    (run events).connection.closed = false := by
  induction events using List.reverseRecOn with
  | nil => rfl
  | append_singleton events e ih =>
    rw [List.mem_append, not_or] at h
    rw [run_concat]
    cases e with
    | start method params limit decode =>
      exact ((run events).connection.start_rest method params).2.1.trans (ih h.1)
    | receive text => exact ((run events).connection.receive_rest text).2.1.trans (ih h.1)
    | timeOut id => exact ih h.1
    | finish => exact absurd (List.mem_singleton.2 rfl) h.2

/-- **A request comes to what the first event makes of it that settles it.** -/
theorem settle_mem_foldl : ∀ (events : List (Event α)) {s : Exchange α} {t : Ticket α}, Inv s →
    t ∈ s.tickets → t.settle (events.findSome? t.settledBy) ∈ (events.foldl step s).tickets
  | [], _, t, _, ht => by rw [List.findSome?_nil, Ticket.settle_none]; exact ht
  | e :: events, s, t, h, ht => by
    have hm := settle_mem_foldl events (step_inv h e) (mem_tickets_step h ht e)
    rw [Ticket.settledBy_settle, Ticket.settle_settle] at hm
    rw [List.findSome?_cons, List.foldl_cons]
    cases hs : t.settledBy e with
    | none => rw [hs, Option.none_or] at hm; exact hm
    | some o => rw [hs, Option.some_or] at hm; exact hm

/-- The request that begins after some events in which the inbound texts do not end. -/
theorem settle_mem_run {before : List (Event α)} (h : Event.finish ∉ before) (after : List (Event α))
    (method : String) (params : Option Json) (limit : Duration) (decode : Decoder α) :
    let t : Ticket α := ⟨before.countP Event.isStart + 1, method, limit, decode, none⟩
    t.settle (after.findSome? t.settledBy) ∈
      (run (before ++ .start method params limit decode :: after)).tickets := by
  intro t
  have ht : t ∈ ((run before).step (.start method params limit decode)).tickets := by
    have hs : ((run before).connection.start method params).1 =
        .ok (run before).connection.nextId := by
      rcases (run before).connection.start_cases method params with
        ⟨hc, -⟩ | ⟨-, -, hs⟩ | ⟨-, hw, -⟩
      · rw [run_not_closed h] at hc; cases hc
      · rw [hs]
      · rw [run_writable] at hw; cases hw
    rw [tickets_step (run_inv before)]
    apply List.mem_append_right
    simp only [opened, hs, run_nextId]
    exact List.mem_singleton.2 rfl
  rw [run_append]
  exact settle_mem_foldl after (step_inv (run_inv before) _) ht

/-! ## Correlation -/

/-- The numbers of all requests, in the order in which they began. -/
theorem run_ids (events : List (Event α)) :
    (run events).tickets.map Ticket.id = List.range' 1 (events.countP Event.isStart) := by
  rw [(run_inv events).ids, run_length]

/-- Numbers that fit into a word are told apart as words. -/
theorem range'_words_nodup {n : Nat} (h : n < 2 ^ 64) :
    ((List.range' 1 n).map UInt64.ofNat).Nodup := by
  apply List.Nodup.map_on _ List.nodup_range'
  intro a ha b hb hab
  rw [List.mem_range'_1] at ha hb
  have ha' : a < 2 ^ 64 := by omega
  have hb' : b < 2 ^ 64 := by omega
  have h1 := congrArg UInt64.toNat hab
  rwa [UInt64.toNat_ofNat_of_lt' ha', UInt64.toNat_ofNat_of_lt' hb'] at h1

/-- A text that answers no request that waits changes no request. -/
theorem receive_unanswered (events : List (Event α)) {text : String}
    (h : ∀ n ∈ (run events).connection.pending, answerTo? n text = none) :
    (run (events ++ [.receive text])).tickets = (run events).tickets ∧
      (run (events ++ [.receive text])).connection.pending = (run events).connection.pending := by
  have hi := run_inv events
  rw [run_concat]
  constructor
  · rw [receive_tickets hi]
    refine (List.map_congr_left fun t ht => ?_).trans (List.map_id _)
    cases ho : t.outcome with
    | some o => exact Ticket.settle_of_some ho _
    | none =>
      have ha := h t.id ((hi.pending _).2 ⟨t, ht, rfl, ho⟩)
      rw [Ticket.settledBy, ha, Option.map_none, Ticket.settle_none]
      rfl
  · show ((run events).connection.receive text).1.pending = _
    rw [Connection.receive_pending]
    exact List.filter_eq_self.2 fun n hn => by rw [h n hn]; rfl

/-- What a response comes to, for one who asked for something typed. -/
theorem typedOutcome_outcome (decode : Decoder α) (r : Response) :
    typedOutcome decode r.outcome =
      match r.error with
      | some e => .error (.server e.code e.text)
      | none =>
        match decode (r.result.getD .null) with
        | .ok a => .ok a
        | .error e => .error (.undecodable e.message) := by
  unfold Response.outcome
  cases r.error with
  | some e => rfl
  | none =>
    show (decode (r.result.getD .null)).mapError _ = _
    cases decode (r.result.getD .null) <;> rfl

/-- **Requests and responses correlate** over every sequence of events with fewer than `2 ^ 64`
requests. The requests have the numbers `1`, `2`, …, which differ as words. The numbers that wait
are those of the requests without an outcome. A request comes to what the first response with its
number says, if that arrives before the request times out and before the inbound texts end. A text
that is no response to a request leaves it alone, and one that is no response to any request that
waits changes nothing. -/
theorem requests_correlate (events : List (Event α)) (h : events.countP Event.isStart < 2 ^ 64) :
    ((run events).tickets.map Ticket.id = List.range' 1 (events.countP Event.isStart) ∧
      ((run events).tickets.map fun t => UInt64.ofNat t.id).Nodup) ∧
    ((run events).connection.pending.Nodup ∧
      ∀ n, n ∈ (run events).connection.pending ↔
        ∃ t ∈ (run events).tickets, t.id = n ∧ t.outcome = none) ∧
    (∀ (before between after : List (Event α)) (method : String) (params : Option Json)
        (limit : Duration) (decode : Decoder α) (text : String) (r : Response) (n : Nat),
      events = before ++ .start method params limit decode ::
        (between ++ .receive text :: after) →
      n = before.countP Event.isStart + 1 →
      .finish ∉ before → .finish ∉ between → .timeOut n ∉ between →
      (∀ text' r', .receive text' ∈ between → Message.parse? text' = some (.response r') →
        r'.id ≠ .nat n) →
      Message.parse? text = some (.response r) → r.id = .nat n →
      ∃ t ∈ (run events).tickets, t.id = n ∧
        t.outcome = some (match r.error with
          | some e => .error (.server e.code e.text)
          | none =>
            match decode (r.result.getD .null) with
            | .ok a => .ok a
            | .error e => .error (.undecodable e.message))) ∧
    (∀ text : String,
      (∀ t ∈ (run events).tickets,
        (∀ r, Message.parse? text = some (.response r) → r.id ≠ .nat t.id) →
        t ∈ (run (events ++ [.receive text])).tickets ∧
          (t.id ∈ (run (events ++ [.receive text])).connection.pending ↔
            t.id ∈ (run events).connection.pending)) ∧
      ((∀ n ∈ (run events).connection.pending, ∀ r,
          Message.parse? text = some (.response r) → r.id ≠ .nat n) →
        (run (events ++ [.receive text])).tickets = (run events).tickets ∧
          (run (events ++ [.receive text])).connection.pending =
            (run events).connection.pending)) := by
  have hi := run_inv events
  refine ⟨⟨run_ids events, ?_⟩, ⟨hi.nodup, hi.pending⟩, ?_, fun text => ⟨?_, ?_⟩⟩
  · have hm := range'_words_nodup h
    rw [← run_ids, List.map_map] at hm
    exact hm
  · -- nothing in between settles the request, so the response is the first event to do so
    intro before between after method params limit decode text r n he hn hb hm ht hfirst hp hid
    subst he hn
    have hs := settle_mem_run hb (between ++ .receive text :: after) method params limit decode
    refine ⟨_, hs, rfl, ?_⟩
    have hnone : between.findSome? (Ticket.settledBy
        ⟨before.countP Event.isStart + 1, method, limit, decode, none⟩) = none := by
      rw [List.findSome?_eq_none_iff]
      intro e hmem
      cases e with
      | start _ _ _ _ => rfl
      | receive text' =>
        exact Option.map_eq_none_iff.2 (answerTo?_eq_none.2 fun r' => hfirst text' r' hmem)
      | timeOut id =>
        refine if_neg fun he => ht ?_
        subst he
        exact hmem
      | finish => exact absurd hmem hm
    rw [Ticket.settle_outcome, Option.none_or, List.findSome?_append, hnone, Option.none_or,
      List.findSome?_cons, Ticket.settledBy, answerTo?_eq_some.2 ⟨hp, hid⟩, Option.map_some,
      typedOutcome_outcome]
  · intro t ht hn
    have ha : answerTo? t.id text = none := answerTo?_eq_none.2 hn
    rw [run_concat]
    constructor
    · have hm := mem_tickets_step hi ht (.receive text)
      rwa [Ticket.settledBy, ha, Option.map_none, Ticket.settle_none] at hm
    · show t.id ∈ ((run events).connection.receive text).1.pending ↔ _
      rw [Connection.receive_pending, List.mem_filter, ha]
      simp
  · intro hn
    exact receive_unanswered events fun n hp => answerTo?_eq_none.2 (hn n hp)

/-- Two requests whose responses cross: the first comes to the first response with its number. -/
theorem requests_correlate_crossing :
    let first : Event Json := .start "a" none ⟨5⟩ Decoder.any
    let second : Event Json := .start "b" none ⟨5⟩ Decoder.any
    let other : Event Json := .receive "\x7b\"jsonrpc\":\"2.0\",\"id\":2,\"result\":0\x7d"
    let text := "\x7b\"jsonrpc\":\"2.0\",\"id\":1,\"result\":7\x7d"
    let events := [first, second, other, .receive text, .timeOut 1, .finish]
    events.countP Event.isStart < 2 ^ 64 ∧
      ∃ t ∈ (run events).tickets, t.id = 1 ∧ t.outcome = some (.ok (.int 7)) := by
  intro first second other text events
  refine ⟨by decide, ?_⟩
  have hp : Message.parse? "\x7b\"jsonrpc\":\"2.0\",\"id\":1,\"result\":7\x7d" =
      some (.response ⟨.nat 1, some (.int 7), none⟩) := by rfl
  obtain ⟨-, -, hc, -⟩ := requests_correlate events (by decide)
  refine hc [] [second, other] [.timeOut 1, .finish] "a" none ⟨5⟩ Decoder.any text
    ⟨.nat 1, some (.int 7), none⟩ 1 rfl rfl ?_ ?_ ?_ ?_ hp rfl
  · simp
  · simp [second, other]
  · simp [second, other]
  · intro text' r' hm hp'
    simp only [second, other, List.mem_cons, reduceCtorEq, Event.receive.injEq, List.not_mem_nil,
      or_false, false_or] at hm
    have hother : Message.parse? text' = some (.response ⟨.nat 2, some (.int 0), none⟩) := by
      rw [hm]; rfl
    rw [hother] at hp'
    cases hp'
    simp [Json.nat]

end Exchange

end SymbolContext.Rpc
