import SymbolContext.Proofs.Rpc.Steps

/-!
# No request is stranded when a connection ends

A request is not begun in one go: it takes a number, waits for the response to it, looks whether
the connection is closed, and only then is sent. The reader of the inbound texts ends in two moves:
it marks the connection closed, and wakes everyone who waits. `Traffic` is a connection with any
number of requests, each at its own `Stage`, and `Traffic.Step` lets all of them move in any order.

* `run_start`: the moves of one request in a row are `Connection.start`; those of the reader are
  `Connection.endInbound` by definition.
* `Traffic.Inv`, kept by every move (`step_inv`): **a request that may still be sent or waits has
  its number in `pending`, or something has been delivered to it**; once the reader has finished,
  only requests that have yet to find the connection closed are in `pending`.
* `no_request_stranded` follows.
-/

namespace SymbolContext.Rpc

/-! ## Moves -/

/-- Whether a request has a move of its own to make. -/
def Stage.busy : Stage → Bool
  | .waiting | .done _ => false
  | _ => true

/-- Whether a request may yet take what is delivered to its number. -/
def Stage.attends : Stage → Bool
  | .expected | .admitted | .waiting => true
  | _ => false

/-- A request on its way. -/
structure Caller where
  method : String
  params : Option Json
  limit : Duration
  stage : Stage

/-- How far the reader of the inbound texts has come. -/
inductive Reader where
  | reading
  /-- It has marked the connection closed. -/
  | closing
  /-- It has woken everyone who waited. -/
  | finished
deriving DecidableEq

/-- **A connection, the requests on their way over it, and its reader.** -/
structure Traffic where
  connection : Connection := {}
  callers : Nat → Option Caller := fun _ => none
  reader : Reader := .reading

/-- What can happen next. -/
inductive Move where
  | begin (method : String) (params : Option Json) (limit : Duration)
  | proceed (id : Nat)
  | hear (id : Nat)
  | expire (id : Nat)
  | receive (text : String)
  | markClosed
  | wakeAll
  | closeOutbound

/-- The request whose move it is, once that has a number. -/
def Move.caller? : Move → Option Nat
  | .proceed id | .hear id | .expire id => some id
  | _ => none

namespace Traffic

/-- A request is at a new stage, and the connection has changed. -/
def put (s : Traffic) (id : Nat) (k : Caller) (c : Connection) : Traffic :=
  { s with connection := c, callers := fun n => if n = id then some k else s.callers n }

/-- A request has made its next move. -/
def advance (s : Traffic) (id : Nat) (k : Caller) : Traffic :=
  let r := s.connection.proceed id k.method k.params k.stage
  s.put id { k with stage := r.1 } r.2

/-- **The moves**, each of them indivisible. -/
inductive Step : Traffic → Move → Traffic → Prop where
  /-- A request takes its number. -/
  | begin (s : Traffic) (method : String) (params : Option Json) (limit : Duration) :
      Step s (.begin method params limit)
        (s.put s.connection.takeNumber.1 ⟨method, params, limit, .numbered⟩
          s.connection.takeNumber.2)
  /-- It makes its next move. -/
  | proceed {s : Traffic} {id : Nat} {k : Caller} (hk : s.callers id = some k)
      (hs : k.stage.busy = true) : Step s (.proceed id) (s.advance id k)
  /-- It waits, and takes what has been delivered to it. -/
  | hear {s : Traffic} {id : Nat} {k : Caller} {d : Delivery} (hk : s.callers id = some k)
      (hs : k.stage = .waiting) (hd : s.connection.delivery? id = some d) :
      Step s (.hear id) (s.put id { k with stage := .done d.outcome } s.connection)
  /-- It waits, nothing has been delivered, and its time is up. -/
  | expire {s : Traffic} {id : Nat} {k : Caller} (hk : s.callers id = some k)
      (hs : k.stage = .waiting) (hd : s.connection.delivery? id = none) :
      Step s (.expire id)
        (s.put id { k with stage := .leaving (.timedOut k.method k.limit) } s.connection)
  /-- The reader takes a text. -/
  | receive {s : Traffic} (hr : s.reader = .reading) (text : String) :
      Step s (.receive text) { s with connection := (s.connection.receive text).1 }
  /-- The reader has come to the end of the texts. -/
  | markClosed {s : Traffic} (hr : s.reader = .reading) :
      Step s .markClosed { s with connection := s.connection.markClosed, reader := .closing }
  /-- The reader wakes everyone who waits. -/
  | wakeAll {s : Traffic} (hr : s.reader = .closing) :
      Step s .wakeAll { s with connection := s.connection.wakeAll, reader := .finished }
  /-- The writer ends. -/
  | closeOutbound (s : Traffic) :
      Step s .closeOutbound { s with connection := s.connection.closeOutbound }

/-- Moves one after the other. -/
inductive Run : Traffic → List Move → Traffic → Prop where
  | nil (s : Traffic) : Run s [] s
  | cons {s t u : Traffic} {m : Move} {ms : List Move} (hs : Step s m t) (hr : Run t ms u) :
      Run s (m :: ms) u

theorem Run.append {s t u : Traffic} {ms ns : List Move} (h : Run s ms t) (h' : Run t ns u) :
    Run s (ms ++ ns) u := by
  induction h with
  | nil s => exact h'
  | cons hs _ ih => exact .cons hs (ih h')

@[simp] theorem put_connection (s : Traffic) (id : Nat) (k : Caller) (c : Connection) :
    (s.put id k c).connection = c := rfl

@[simp] theorem put_reader (s : Traffic) (id : Nat) (k : Caller) (c : Connection) :
    (s.put id k c).reader = s.reader := rfl

@[simp] theorem put_callers_self (s : Traffic) (id : Nat) (k : Caller) (c : Connection) :
    (s.put id k c).callers id = some k := if_pos rfl

theorem put_callers_ne (s : Traffic) {id n : Nat} (h : n ≠ id) (k : Caller) (c : Connection) :
    (s.put id k c).callers n = s.callers n := if_neg h

/-! ## One request alone -/

/-- The next move of a request, if it has one to make. -/
theorem run_proceed {s : Traffic} {id : Nat} {k : Caller} (hk : s.callers id = some k) :
    ∃ ms t, Run s ms t ∧
      t.connection = (s.connection.proceed id k.method k.params k.stage).2 ∧
      t.callers id = some { k with
        stage := (s.connection.proceed id k.method k.params k.stage).1 } := by
  cases hs : k.stage.busy with
  | true =>
    exact ⟨_, s.advance id k, .cons (.proceed hk hs) (.nil _), rfl, put_callers_self _ _ _ _⟩
  | false =>
    obtain ⟨method, params, limit, stage⟩ := k
    cases stage with
    | waiting | done _ => exact ⟨_, s, .nil s, rfl, hk⟩
    | numbered | expected | admitted | leaving _ => cases hs

/-- **The moves of one request in a row begin it** as `Connection.start` does. -/
theorem run_start (s : Traffic) (method : String) (params : Option Json) (limit : Duration) :
    ∃ ms t k, Run s ms t ∧ t.connection = (s.connection.start method params).2 ∧
      t.callers s.connection.nextId = some k ∧
      k.stage.begun s.connection.nextId = (s.connection.start method params).1 := by
  obtain ⟨ms₁, t₁, hr₁, hc₁, hk₁⟩ := run_proceed
    (put_callers_self s s.connection.nextId ⟨method, params, limit, .numbered⟩
      s.connection.takeNumber.2)
  obtain ⟨ms₂, t₂, hr₂, hc₂, hk₂⟩ := run_proceed hk₁
  obtain ⟨ms₃, t₃, hr₃, hc₃, hk₃⟩ := run_proceed hk₂
  obtain ⟨ms₄, t₄, hr₄, hc₄, hk₄⟩ := run_proceed hk₃
  refine ⟨_, t₄, _, .cons (.begin s method params limit)
    (hr₁.append (hr₂.append (hr₃.append hr₄))), ?_, hk₄, ?_⟩
  · rw [hc₄, hc₃, hc₂, hc₁]; rfl
  · rw [hc₃, hc₂, hc₁]; rfl

/-! ## The invariant -/

/-- What holds however the moves are interleaved. -/
structure Inv (s : Traffic) : Prop where
  /-- Requests have the numbers that have been taken. -/
  fresh : ∀ n, s.connection.nextId ≤ n → s.callers n = none
  closed : s.connection.closed = true ↔ s.reader ≠ .reading
  /-- A request that attends to its number is in `pending`, or something has been delivered. -/
  attended : ∀ n k, s.callers n = some k → k.stage.attends = true →
    n ∈ s.connection.pending ∨ ∃ d, s.connection.delivery? n = some d
  /-- Whoever is in `pending` after the reader has finished will find the connection closed. -/
  barred : s.reader = .finished → ∀ n ∈ s.connection.pending,
    ∃ k, s.callers n = some k ∧ (k.stage = .expected ∨ k.stage = .leaving .closed)

theorem inv_fresh : Inv {} where
  fresh := fun _ _ => rfl
  closed := by decide
  attended := fun _ _ hk => by cases hk
  barred := fun hr => by cases hr

theorem lt_nextId {s : Traffic} (h : Inv s) {n : Nat} {k : Caller} (hk : s.callers n = some k) :
    n < s.connection.nextId := by
  rw [← Nat.not_le]
  intro hle
  rw [h.fresh n hle] at hk
  cases hk

/-- Once the reader has finished, whoever has found the connection open is not in `pending`. -/
theorem not_pending {s : Traffic} (h : Inv s) (hf : s.reader = .finished) {n : Nat} {k : Caller}
    (hk : s.callers n = some k) (he : k.stage ≠ .expected) (hl : k.stage ≠ .leaving .closed) :
    n ∉ s.connection.pending := by
  intro hm
  obtain ⟨k₁, hk₁, hst⟩ := h.barred hf n hm
  cases hk.symm.trans hk₁
  rcases hst with hst | hst
  · exact he hst
  · exact hl hst

/-- A move of a request that has a number keeps the invariant if it touches no other number, and
leaves its own in order. -/
theorem put_inv {s : Traffic} {id : Nat} {k k' : Caller} {c : Connection} (h : Inv s)
    (hk : s.callers id = some k) (hn : c.nextId = s.connection.nextId)
    (hc : c.closed = s.connection.closed) (hd : c.delivered = s.connection.delivered)
    (hp : ∀ n, n ≠ id → (n ∈ c.pending ↔ n ∈ s.connection.pending))
    (ha : k'.stage.attends = true →
      id ∈ c.pending ∨ ∃ d, s.connection.delivery? id = some d)
    (hb : s.reader = .finished → id ∈ c.pending →
      k'.stage = .expected ∨ k'.stage = .leaving .closed) :
    Inv (s.put id k' c) where
  fresh := fun n hle => by
    rw [put_connection, hn] at hle
    have hne : n ≠ id := fun e => absurd (lt_nextId h hk) (by omega)
    rw [put_callers_ne s hne]
    exact h.fresh n hle
  closed := by rw [put_connection, put_reader, hc]; exact h.closed
  attended := fun n k₁ hk₁ hat => by
    have hdel : c.delivery? n = s.connection.delivery? n := by
      unfold Connection.delivery?; rw [hd]
    rw [put_connection, hdel]
    by_cases hne : n = id
    · subst hne
      rw [put_callers_self] at hk₁
      cases hk₁
      exact ha hat
    · rw [put_callers_ne s hne] at hk₁
      rw [hp n hne]
      exact h.attended n k₁ hk₁ hat
  barred := fun hr n hm => by
    by_cases hne : n = id
    · subst hne
      exact ⟨k', put_callers_self s n k' c, hb hr hm⟩
    · obtain ⟨k₁, hk₁, hst⟩ := h.barred hr n ((hp n hne).1 hm)
      exact ⟨k₁, by rw [put_callers_ne s hne]; exact hk₁, hst⟩

theorem begin_inv {s : Traffic} (h : Inv s) (k : Caller) (hs : k.stage = .numbered) :
    Inv (s.put s.connection.takeNumber.1 k s.connection.takeNumber.2) where
  fresh := fun n hle => by
    have hle' : s.connection.nextId + 1 ≤ n := hle
    have hne : n ≠ s.connection.nextId := by omega
    refine (put_callers_ne s hne _ _).trans (h.fresh n (by omega))
  closed := h.closed
  attended := fun n k₁ hk₁ hat => by
    by_cases hne : n = s.connection.nextId
    · subst hne
      cases (put_callers_self s _ k _).symm.trans hk₁
      rw [hs] at hat
      cases hat
    · exact h.attended n k₁ ((put_callers_ne s hne _ _).symm.trans hk₁) hat
  barred := fun hr n hm => by
    obtain ⟨k₁, hk₁, hst⟩ := h.barred hr n hm
    have hne : n ≠ s.connection.nextId := Nat.ne_of_lt (lt_nextId h hk₁)
    exact ⟨k₁, (put_callers_ne s hne _ _).trans hk₁, hst⟩

/-- What is delivered comes last, and is found if nothing was before. -/
theorem exists_or_some (d : Option Delivery) (new : Delivery) :
    ∃ d', d.or (some new) = some d' := by
  cases d with
  | none => exact ⟨new, rfl⟩
  | some d => exact ⟨d, rfl⟩

theorem receive_inv {s : Traffic} (h : Inv s) (hr : s.reader = .reading) (text : String) :
    Inv { s with connection := (s.connection.receive text).1 } where
  fresh := by
    rw [(s.connection.receive_rest text).1]
    exact h.fresh
  closed := by
    rw [(s.connection.receive_rest text).2.1]
    exact h.closed
  attended := fun n k hk hat => by
    show n ∈ (s.connection.receive text).1.pending ∨
      ∃ d, (s.connection.receive text).1.delivery? n = some d
    rw [Connection.receive_pending, List.mem_filter, Connection.delivery?_receive]
    rcases h.attended n k hk hat with hp | ⟨d, hd⟩
    · cases ha : answerTo? n text with
      | none => exact .inl ⟨hp, rfl⟩
      | some r =>
        -- what leaves `pending` is delivered
        rw [if_pos hp]
        exact .inr (exists_or_some _ _)
    · rw [hd]
      exact .inr ⟨d, rfl⟩
  barred := fun hf => by
    rw [show s.reader = .finished from hf] at hr
    cases hr

/-- The reader wakes everyone who waits: `pending` is empty, and each in it is told. -/
theorem wakeAll_inv {s : Traffic} (h : Inv s) (hr : s.reader = .closing) :
    Inv { s with connection := s.connection.wakeAll, reader := .finished } where
  fresh := h.fresh
  closed := by
    refine ⟨fun _ => by simp, fun _ => ?_⟩
    exact h.closed.2 (by rw [hr]; decide)
  attended := fun n k hk hat => by
    right
    show ∃ d, s.connection.wakeAll.delivery? n = some d
    rw [Connection.delivery?_wakeAll]
    rcases h.attended n k hk hat with hp | ⟨d, hd⟩
    · rw [if_pos hp]
      exact exists_or_some _ _
    · rw [hd]
      exact ⟨d, rfl⟩
  barred := fun _ n hm => absurd hm List.not_mem_nil

theorem advance_inv {s : Traffic} {id : Nat} {k : Caller} (h : Inv s)
    (hk : s.callers id = some k) (hs : k.stage.busy = true) : Inv (s.advance id k) := by
  obtain ⟨method, params, limit, stage⟩ := k
  cases stage with
  | numbered =>
    refine put_inv h hk rfl rfl rfl (fun n hne => ?_) (fun _ => ?_) (fun _ _ => .inl rfl)
    · show n ∈ s.connection.pending ++ [id] ↔ _
      simp [hne]
    · left
      show id ∈ s.connection.pending ++ [id]
      simp
  | expected =>
    refine put_inv h hk rfl rfl rfl (fun _ _ => Iff.rfl) (fun _ => ?_) (fun hf _ => ?_)
    · exact h.attended id _ hk rfl
    · -- the number was entered before this look at `closed`, which the reader sets before it wakes
      right
      exact if_pos (h.closed.2 (by rw [hf]; decide))
  | admitted =>
    have hp : (s.connection.proceed id method params .admitted).2.pending =
      s.connection.pending := s.connection.enqueue_pending _
    refine put_inv h hk (s.connection.enqueue_nextId _) (s.connection.enqueue_closed _)
      (s.connection.enqueue_delivered _) (fun n _ => by rw [hp]) (fun _ => ?_) (fun hf hm => ?_)
    · rw [hp]
      exact h.attended id _ hk rfl
    · rw [hp] at hm
      exact absurd hm (not_pending h hf hk (by simp) (by simp))
  | leaving e =>
    refine put_inv h hk rfl rfl rfl (fun n hne => ?_) (fun hat => by cases hat) (fun _ hm => ?_)
    · exact (s.connection.mem_pending_forget).trans (and_iff_left hne)
    · exact absurd rfl (s.connection.mem_pending_forget.1 hm).2
  | waiting | done _ => cases hs

/-- **Every move keeps the invariant.** -/
theorem step_inv {s t : Traffic} {m : Move} (h : Inv s) (hs : Step s m t) : Inv t := by
  cases hs with
  | begin method params limit => exact begin_inv h _ rfl
  | proceed hk hst => exact advance_inv h hk hst
  | @hear id k d hk hst hd =>
    refine put_inv h hk rfl rfl rfl (fun _ _ => Iff.rfl) (fun hat => by cases hat) (fun hf hm => ?_)
    exact absurd hm (not_pending h hf hk (by rw [hst]; simp) (by rw [hst]; simp))
  | @expire id k hk hst hd =>
    refine put_inv h hk rfl rfl rfl (fun _ _ => Iff.rfl) (fun hat => by cases hat) (fun hf hm => ?_)
    exact absurd hm (not_pending h hf hk (by rw [hst]; simp) (by rw [hst]; simp))
  | receive hr text => exact receive_inv h hr text
  | markClosed hr =>
    exact ⟨h.fresh, ⟨fun _ => by simp, fun _ => rfl⟩, h.attended, fun hf => by cases hf⟩
  | wakeAll hr => exact wakeAll_inv h hr
  | closeOutbound => exact ⟨h.fresh, h.closed, h.attended, h.barred⟩

theorem run_inv {s t : Traffic} {ms : List Move} (h : Inv s) (hr : Run s ms t) : Inv t := by
  induction hr with
  | nil s => exact h
  | cons hs _ ih => exact ih (step_inv h hs)

/-! ## After the reader has finished -/

/-- No move of another moves a request. -/
theorem step_other {s t : Traffic} {m : Move} {n : Nat} {k : Caller} (h : Inv s)
    (hs : Step s m t) (hm : m.caller? ≠ some n) (hk : s.callers n = some k) :
    t.callers n = some k := by
  have hput : ∀ {id : Nat} (k₁ : Caller) (c : Connection), id ≠ n →
      (s.put id k₁ c).callers n = some k :=
    fun k₁ c hne => (put_callers_ne s (Ne.symm hne) k₁ c).trans hk
  cases hs with
  | begin method params limit => exact hput _ _ (Nat.ne_of_gt (lt_nextId h hk))
  | proceed _ _ | hear _ _ _ | expire _ _ _ =>
    exact hput _ _ fun he => hm (congrArg some he)
  | receive _ _ | markClosed _ | wakeAll _ | closeOutbound => exact hk

theorem step_finished {s t : Traffic} {m : Move} (hs : Step s m t) (hf : s.reader = .finished) :
    t.reader = .finished := by
  cases hs with
  | markClosed hr | receive hr _ => rw [hf] at hr; cases hr
  | wakeAll _ => rfl
  | _ => exact hf

/-- **A request that the end of the connection bars**: it has begun to wait after the reader had
finished, and can only fail. -/
def Barred (n : Nat) (s : Traffic) : Prop :=
  s.reader = .finished ∧ ∃ k, s.callers n = some k ∧
    (k.stage = .expected ∨ k.stage = .leaving .closed ∨ k.stage = .done (.error .closed))

/-- A request that begins to wait after the reader has finished is barred. -/
theorem barred_of_numbered {s t : Traffic} {n : Nat} {k : Caller} (hf : s.reader = .finished)
    (hk : s.callers n = some k) (hst : k.stage = .numbered) (hs : Step s (.proceed n) t) :
    Barred n t ∧ n ∈ t.connection.pending ∧ t.connection.outbox = s.connection.outbox := by
  cases hs with
  | proceed hk₁ _ =>
    cases hk.symm.trans hk₁
    unfold advance
    rw [hst]
    refine ⟨⟨hf, _, put_callers_self _ _ _ _, .inl rfl⟩, ?_, rfl⟩
    show n ∈ s.connection.pending ++ [n]
    simp

/-- The two moves left to a request that is barred. -/
theorem barred_moves {s t : Traffic} {m : Move} {n : Nat} (h : Inv s) (hb : Barred n s)
    (hs : Step s m t) (hm : m.caller? = some n) :
    ∃ k : Caller, t = s.put n { k with stage := .leaving .closed } s.connection ∨
      t = s.put n { k with stage := .done (.error .closed) } (s.connection.forget n) := by
  obtain ⟨hf, k, hk, hst⟩ := hb
  have hcl : s.connection.closed = true := h.closed.2 (by rw [hf]; decide)
  cases hs with
  | @proceed id k₁ hk₁ hst₁ =>
    cases hm
    cases hk.symm.trans hk₁
    refine ⟨k, ?_⟩
    unfold advance
    rcases hst with hst | hst | hst <;> rw [hst]
    · left
      simp [Connection.proceed, hcl]
    · exact .inr rfl
    · rw [hst] at hst₁
      cases hst₁
  | hear hk₁ hst₁ _ | expire hk₁ hst₁ _ =>
    cases hm
    cases hk.symm.trans hk₁
    rw [hst₁] at hst
    simp at hst
  | begin _ _ _ | receive _ _ | markClosed _ | wakeAll _ | closeOutbound => cases hm

theorem barred_step {s t : Traffic} {m : Move} {n : Nat} (h : Inv s) (hb : Barred n s)
    (hs : Step s m t) : Barred n t := by
  refine ⟨step_finished hs hb.1, ?_⟩
  by_cases hm : m.caller? = some n
  · obtain ⟨k, rfl | rfl⟩ := barred_moves h hb hs hm
    · exact ⟨_, put_callers_self _ _ _ _, .inr (.inl rfl)⟩
    · exact ⟨_, put_callers_self _ _ _ _, .inr (.inr rfl)⟩
  · obtain ⟨-, k, hk, hst⟩ := hb
    exact ⟨k, step_other h hs hm hk, hst⟩

theorem barred_run {s t : Traffic} {ms : List Move} {n : Nat} (h : Inv s) (hb : Barred n s)
    (hr : Run s ms t) : Barred n t := by
  induction hr with
  | nil s => exact hb
  | cons hs _ ih => exact ih (step_inv h hs) (barred_step h hb hs)

theorem leaving_ends {s : Traffic} {n : Nat} {k : Caller} (hk : s.callers n = some k)
    (hst : k.stage = .leaving .closed) :
    ∃ t k, Run s [.proceed n] t ∧ t.callers n = some k ∧ k.stage = .done (.error .closed) := by
  refine ⟨_, _, .cons (.proceed hk (by rw [hst]; rfl)) (.nil _), put_callers_self _ _ _ _, ?_⟩
  rw [hst]
  rfl

/-- A request that is barred can always go on by itself, and fails. -/
theorem barred_ends {s : Traffic} {n : Nat} (h : Inv s) (hb : Barred n s) :
    ∃ ms t k, (∀ m ∈ ms, m.caller? = some n) ∧ Run s ms t ∧ t.callers n = some k ∧
      k.stage = .done (.error .closed) := by
  obtain ⟨hf, k, hk, hst⟩ := hb
  have hcl : s.connection.closed = true := h.closed.2 (by rw [hf]; decide)
  rcases hst with hst | hst | hst
  · have hadv : (s.advance n k).callers n = some { k with stage := .leaving .closed } := by
      unfold advance
      simp [hst, Connection.proceed, hcl]
    obtain ⟨t, k₁, hr, hk₁, hst₁⟩ := leaving_ends hadv rfl
    exact ⟨[.proceed n, .proceed n], t, k₁, by simp [Move.caller?],
      .cons (.proceed hk (by rw [hst]; rfl)) hr, hk₁, hst₁⟩
  · obtain ⟨t, k₁, hr, hk₁, hst₁⟩ := leaving_ends hk hst
    exact ⟨[.proceed n], t, k₁, by simp [Move.caller?], hr, hk₁, hst₁⟩
  · exact ⟨[], s, k, by simp, .nil s, hk, hst⟩

/-- Once the reader has finished, something has been delivered to whoever has found the connection
open and attends to it. -/
theorem delivered_of_attends {s : Traffic} (h : Inv s) (hf : s.reader = .finished) {n : Nat}
    {k : Caller} (hk : s.callers n = some k) (hat : k.stage.attends = true)
    (he : k.stage ≠ .expected) : ∃ d, s.connection.delivery? n = some d := by
  have hl : k.stage ≠ .leaving .closed := fun hl => by rw [hl] at hat; cases hat
  exact (h.attended n k hk hat).resolve_left (not_pending h hf hk he hl)

/-- A request that waits when something has been delivered takes it next. -/
theorem waiting_moves {s t : Traffic} {m : Move} {n : Nat} {k : Caller} {d : Delivery}
    (hk : s.callers n = some k) (hst : k.stage = .waiting)
    (hd : s.connection.delivery? n = some d) (hs : Step s m t) (hm : m.caller? = some n) :
    t.callers n = some { k with stage := .done d.outcome } := by
  cases hs with
  | @hear id k₁ d₁ hk₁ hst₁ hd₁ =>
    cases hm
    cases hk.symm.trans hk₁
    cases hd.symm.trans hd₁
    exact put_callers_self _ _ _ _
  | expire hk₁ hst₁ hd₁ =>
    cases hm
    cases hd.symm.trans hd₁
  | proceed hk₁ hst₁ =>
    cases hm
    cases hk.symm.trans hk₁
    rw [hst] at hst₁
    cases hst₁
  | begin _ _ _ | receive _ _ | markClosed _ | wakeAll _ | closeOutbound => cases hm

/-- **No request is stranded by the end of a connection**, whatever the order of moves that led to
a state in which the reader has finished. A request that has found the connection open and is not
over has its number in `pending` no more: it has timed out, or something has been delivered to it,
which it takes next; if that is no response, it fails because the connection is closed. A request
that begins to wait from now on never gets further than finding the connection closed, which it
can always do; it sends nothing. -/
theorem no_request_stranded {ms : List Move} {s : Traffic} (hr : Run {} ms s)
    (hf : s.reader = .finished) :
    (∀ n k, s.callers n = some k →
      k.stage = .admitted ∨ k.stage = .waiting ∨ k.stage = .leaving (.timedOut k.method k.limit) →
      n ∉ s.connection.pending ∧
        (k.stage = .leaving (.timedOut k.method k.limit) ∨
          ∃ d, s.connection.delivery? n = some d ∧
            (k.stage = .waiting → (∃ t, Step s (.hear n) t) ∧
              ∀ m t, Step s m t → m.caller? = some n →
                t.callers n = some { k with
                  stage := .done (match d with
                    | some r => r.outcome
                    | none => .error .closed) }))) ∧
    (∀ n k t, s.callers n = some k → k.stage = .numbered → Step s (.proceed n) t →
      n ∈ t.connection.pending ∧ t.connection.outbox = s.connection.outbox ∧ ∀ ns u, Run t ns u →
      (∃ k, u.callers n = some k ∧
        (k.stage = .expected ∨ k.stage = .leaving .closed ∨ k.stage = .done (.error .closed))) ∧
      (∀ m v, Step u m v → m.caller? = some n →
        v.connection.outbox = u.connection.outbox) ∧
      ∃ rest v k, (∀ m ∈ rest, m.caller? = some n) ∧ Run u rest v ∧
        v.callers n = some k ∧ k.stage = .done (.error .closed)) := by
  have h := run_inv inv_fresh hr
  constructor
  · intro n k hk hst
    constructor
    · apply not_pending h hf hk <;> rcases hst with hst | hst | hst <;> rw [hst] <;> simp
    · rcases hst with hst | hst | hst
      · obtain ⟨d, hd⟩ := delivered_of_attends h hf hk (by rw [hst]; rfl)
          (by rw [hst]; simp)
        exact .inr ⟨d, hd, fun hw => by rw [hst] at hw; cases hw⟩
      · obtain ⟨d, hd⟩ := delivered_of_attends h hf hk (by rw [hst]; rfl)
          (by rw [hst]; simp)
        refine .inr ⟨d, hd, fun hw => ⟨⟨_, .hear hk hw hd⟩, fun m t hs hm => ?_⟩⟩
        rw [waiting_moves hk hw hd hs hm]
        cases d <;> rfl
      · exact .inl hst
  · intro n k t hk hst hs
    obtain ⟨hb, hp, ho⟩ := barred_of_numbered hf hk hst hs
    refine ⟨hp, ho, fun ns u hru => ?_⟩
    have ht := step_inv h hs
    have hu := run_inv ht hru
    have hbu := barred_run ht hb hru
    refine ⟨hbu.2, fun m v hv hm => ?_, barred_ends hu hbu⟩
    obtain ⟨k, rfl | rfl⟩ := barred_moves hu hbu hv hm
    · rfl
    · rfl

/-- A request that is sent just before the connection ends, and one that begins to wait just
after. -/
theorem no_request_stranded_two :
    ∃ ms s, Run {} ms s ∧ s.reader = .finished ∧
      (∃ k, s.callers 1 = some k ∧ k.stage = .waiting ∧ 1 ∉ s.connection.pending) ∧
      ∃ t, Step s (.proceed 2) t ∧ 2 ∈ t.connection.pending ∧
        ∃ rest v k, (∀ m ∈ rest, m.caller? = some 2) ∧ Run t rest v ∧
          v.callers 2 = some k ∧ k.stage = .done (.error .closed) := by
  have hrun : ∃ s, Run {} [.begin "a" none ⟨5⟩, .proceed 1, .proceed 1, .proceed 1,
      .begin "b" none ⟨5⟩, .markClosed, .wakeAll] s ∧ s.reader = .finished ∧
      s.callers 1 = some ⟨"a", none, ⟨5⟩, .waiting⟩ ∧
      s.callers 2 = some ⟨"b", none, ⟨5⟩, .numbered⟩ :=
    ⟨_, .cons (.begin _ _ _ _) (.cons (.proceed rfl rfl) (.cons (.proceed rfl rfl)
      (.cons (.proceed rfl rfl) (.cons (.begin _ _ _ _) (.cons (.markClosed rfl)
        (.cons (.wakeAll rfl) (.nil _))))))), rfl, rfl, rfl⟩
  obtain ⟨s, hr, hf, h1, h2⟩ := hrun
  obtain ⟨hstay, hnew⟩ := no_request_stranded hr hf
  have hs : Step s (.proceed 2) _ := .proceed h2 rfl
  obtain ⟨hp, -, hends⟩ := hnew 2 _ _ h2 rfl hs
  exact ⟨_, s, hr, hf, ⟨_, h1, rfl, (hstay 1 _ h1 (.inr (.inl rfl))).1⟩, _, hs, hp,
    (hends [] _ (.nil _)).2.2⟩

end Traffic

end SymbolContext.Rpc
