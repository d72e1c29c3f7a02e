import SymbolContext.Rpc.Connection

/-!
# What the steps of a connection do

A connection is looked at through the numbers it waits for (`pending`) and what has been delivered
to a number (`delivery?`). For each step there is one lemma for either view, and one for the rest
of the state; the proofs about runs of a connection use these and do not open the steps.

* `answerTo?` is the response that a text holds for a number: **a text is an answer to one number
  at most**, and every other text leaves both views as they are (`receive_pending`,
  `delivery?_receive`).
-/

namespace SymbolContext.Rpc

/-! ## Answers -/

/-- The response to the request `n` that a text holds, if it holds one. -/
def answerTo? (n : Nat) (text : String) : Option Response :=
  match Message.parse? text with
  | some (.response r) => if r.number? = some n then some r else none
  | _ => none

theorem Response.number?_eq_some {r : Response} {n : Nat} : r.number? = some n ↔ r.id = .nat n := by
  unfold Response.number? Json.nat
  split
  · rename_i m hm
    rw [hm]
    simp only [Option.some.injEq, Json.int.injEq, Int.ofNat_eq_natCast, Int.natCast_inj]
  · rename_i hn
    simp only [reduceCtorEq, false_iff]
    exact fun h => hn n h

theorem answerTo?_eq_some {n : Nat} {text : String} {r : Response} :
    answerTo? n text = some r ↔ Message.parse? text = some (.response r) ∧ r.id = .nat n := by
  rw [← Response.number?_eq_some]
  unfold answerTo?
  split
  · rename_i r' h
    rw [h]
    by_cases hn : r'.number? = some n
    · simp only [hn, ↓reduceIte, Option.some.injEq, Message.response.injEq]
      exact ⟨fun h => ⟨h, h ▸ hn⟩, fun h => h.1⟩
    · simp only [hn, ↓reduceIte, reduceCtorEq, Option.some.injEq, Message.response.injEq, false_iff]
      rintro ⟨rfl, h⟩
      exact hn h
  · rename_i hr
    simp only [reduceCtorEq, false_iff]
    exact fun h => hr r h.1

theorem answerTo?_eq_none {n : Nat} {text : String} :
    answerTo? n text = none ↔ ∀ r, Message.parse? text = some (.response r) → r.id ≠ .nat n := by
  rw [Option.eq_none_iff_forall_not_mem]
  simp only [Option.mem_def, answerTo?_eq_some, not_and, ne_eq]

namespace Connection

variable (c : Connection)

/-! ## Deliveries -/

theorem lookup_snoc {β : Type} (l : List (Nat × β)) (m n : Nat) (b : β) :
    (l ++ [(m, b)]).lookup n = (l.lookup n).or (if n = m then some b else none) := by
  rw [List.lookup_append, List.lookup_cons]
  by_cases h : n = m
  · subst h; simp
  · rw [beq_eq_false_iff_ne.2 h, if_neg h]; rfl

theorem lookup_map_const {β : Type} (l : List Nat) (n : Nat) (b : β) :
    (l.map fun m => (m, b)).lookup n = if n ∈ l then some b else none := by
  induction l with
  | nil => rfl
  | cons m l ih =>
    rw [List.map_cons]
    by_cases h : n = m
    · subst h; simp
    · rw [List.lookup_cons, beq_eq_false_iff_ne.2 h]
      simp only [ih, List.mem_cons, h, false_or]

/-! ## Single parts -/

@[simp] theorem mem_pending_forget {n m : Nat} :
    n ∈ (c.forget m).pending ↔ n ∈ c.pending ∧ n ≠ m := by simp [forget]

@[simp] theorem enqueue_pending (text : String) : (c.enqueue text).pending = c.pending := by
  unfold enqueue; split <;> rfl

@[simp] theorem enqueue_delivered (text : String) : (c.enqueue text).delivered = c.delivered := by
  unfold enqueue; split <;> rfl

@[simp] theorem enqueue_closed (text : String) : (c.enqueue text).closed = c.closed := by
  unfold enqueue; split <;> rfl

@[simp] theorem enqueue_nextId (text : String) : (c.enqueue text).nextId = c.nextId := by
  unfold enqueue; split <;> rfl

@[simp] theorem enqueue_writable (text : String) : (c.enqueue text).writable = c.writable := by
  unfold enqueue; split <;> rfl

/-! ## A text arrives -/

/-- A text that holds no answer to a number that waits is at most replied to. -/
theorem receive_eq_of_none {text : String} (h : ∀ n ∈ c.pending, answerTo? n text = none) :
    (c.receive text).1 = c ∨ ∃ reply, (c.receive text).1 = c.enqueue reply := by
  unfold receive
  split
  · rename_i r hr
    left
    show c.deliver r = c
    unfold deliver
    split
    · rename_i n hn
      -- if the number waited, the text would be an answer to it
      have hp : n ∉ c.pending := by
        intro hm
        have ha := answerTo?_eq_some.2 ⟨hr, Response.number?_eq_some.1 hn⟩
        rw [h n hm] at ha
        cases ha
      rw [if_neg hp]
    · rfl
  · exact .inr ⟨_, rfl⟩
  · exact .inl rfl
  · exact .inl rfl

/-- A text that holds an answer to a number that waits is delivered to it. -/
theorem receive_eq_of_some {text : String} {n : Nat} {r : Response} (hn : n ∈ c.pending)
    (h : answerTo? n text = some r) :
    (c.receive text).1 = { c.forget n with delivered := c.delivered ++ [(n, some r)] } := by
  obtain ⟨hr, hid⟩ := answerTo?_eq_some.1 h
  simp only [receive, hr, deliver, Response.number?_eq_some.2 hid, if_pos hn]

/-- **A text is an answer to one number at most.** -/
theorem answerTo?_unique {text : String} {m n : Nat} {r : Response} (h : answerTo? n text = some r) :
    answerTo? m text = if m = n then some r else none := by
  obtain ⟨hr, hid⟩ := answerTo?_eq_some.1 h
  by_cases hm : m = n
  · rw [if_pos hm, hm, h]
  · rw [if_neg hm, answerTo?_eq_none]
    intro r' hr' hid'
    rw [hr] at hr'
    cases hr'
    rw [hid] at hid'
    simp only [Json.nat, Json.int.injEq, Int.natCast_inj] at hid'
    exact hm hid'.symm

/-- What a text does depends on whether it answers a number that waits. -/
theorem receive_cases (text : String) :
    (∃ n ∈ c.pending, ∃ r, answerTo? n text = some r) ∨ ∀ n ∈ c.pending, answerTo? n text = none := by
  by_cases h : ∃ n ∈ c.pending, ∃ r, answerTo? n text = some r
  · exact .inl h
  · refine .inr fun n hn => Option.eq_none_iff_forall_ne_some.2 fun r hr => ?_
    exact h ⟨n, hn, r, hr⟩

theorem receive_pending (text : String) :
    (c.receive text).1.pending = c.pending.filter fun n => (answerTo? n text).isNone := by
  rcases c.receive_cases text with ⟨n, hn, r, h⟩ | h
  · rw [c.receive_eq_of_some hn h]
    show c.pending.filter _ = _
    apply List.filter_congr
    intro m _
    rw [answerTo?_unique h]
    by_cases hm : m = n <;> simp [hm]
  · have hf : c.pending.filter (fun n => (answerTo? n text).isNone) = c.pending :=
      List.filter_eq_self.2 fun n hn => by rw [h n hn]; rfl
    rcases c.receive_eq_of_none h with hc | ⟨reply, hc⟩
    · rw [hc, hf]
    · rw [hc, enqueue_pending, hf]

theorem delivery?_receive (text : String) (n : Nat) :
    (c.receive text).1.delivery? n =
      (c.delivery? n).or (if n ∈ c.pending then (answerTo? n text).map some else none) := by
  rcases c.receive_cases text with ⟨m, hm, r, h⟩ | h
  · rw [c.receive_eq_of_some hm h]
    show (c.delivered ++ [(m, some r)]).lookup n = (c.delivered.lookup n).or _
    rw [lookup_snoc, answerTo?_unique h]
    by_cases hn : n = m
    · subst hn; simp [hm]
    · simp [hn]
  · have hn : (if n ∈ c.pending then (answerTo? n text).map some else none) = none := by
      split
      · rename_i hp; rw [h n hp]; rfl
      · rfl
    rw [hn, Option.or_none]
    rcases c.receive_eq_of_none h with hc | ⟨reply, hc⟩
    · rw [hc]
    · rw [hc]; unfold delivery?; rw [enqueue_delivered]

/-- The rest of the state is untouched by a text, replies apart. -/
theorem receive_rest (text : String) :
    (c.receive text).1.nextId = c.nextId ∧ (c.receive text).1.closed = c.closed ∧
      (c.receive text).1.writable = c.writable := by
  rcases c.receive_cases text with ⟨n, hn, r, h⟩ | h
  · rw [c.receive_eq_of_some hn h]
    exact ⟨rfl, rfl, rfl⟩
  · rcases c.receive_eq_of_none h with hc | ⟨reply, hc⟩
    · rw [hc]; exact ⟨rfl, rfl, rfl⟩
    · rw [hc]; simp

/-! ## A request begins -/

/-- The connection after a request has taken a number and waits for the response to it. -/
def registered : Connection := c.takeNumber.2.expect c.nextId

@[simp] theorem registered_pending : c.registered.pending = c.pending ++ [c.nextId] := rfl

/-- **The three ways in which a request begins**: refused because no response can come, on its
way, or refused because nothing can be written. -/
theorem start_cases (method : String) (params : Option Json) :
    (c.closed = true ∧ c.start method params = (.error .closed, c.registered.forget c.nextId)) ∨
    (c.closed = false ∧ c.writable = true ∧ c.start method params =
      (.ok c.nextId, c.registered.enqueue (requestText c.nextId method params))) ∨
    (c.closed = false ∧ c.writable = false ∧
      c.start method params = (.error unwritable, c.registered.forget c.nextId)) := by
  have hc : c.registered.closed = c.closed := rfl
  have hw : c.registered.writable = c.writable := rfl
  have hfirst : c.takeNumber.2.proceed c.nextId method params .numbered =
      (.expected, c.registered) := rfl
  have hnum : c.takeNumber.1 = c.nextId := rfl
  unfold start
  rw [hnum]
  simp only [hfirst]
  cases hcl : c.closed with
  | true => exact .inl ⟨rfl, by simp [proceed, hc, hcl, Stage.begun]⟩
  | false =>
    cases hwr : c.writable with
    | true => exact .inr (.inl ⟨rfl, rfl, by simp [proceed, hc, hw, hcl, hwr, Stage.begun]⟩)
    | false =>
      exact .inr (.inr ⟨rfl, rfl, by simp [proceed, hc, hw, hcl, hwr, Stage.begun, enqueue]⟩)

/-- The number of a request waits exactly if the request is on its way. -/
theorem mem_pending_start {method : String} {params : Option Json} {n : Nat}
    (h : c.nextId ∉ c.pending) :
    n ∈ (c.start method params).2.pending ↔
      n ∈ c.pending ∨ (n = c.nextId ∧ (c.start method params).1 = .ok c.nextId) := by
  have hne : n ∈ c.pending → n ≠ c.nextId := fun hn e => h (e ▸ hn)
  have hf : n ∈ (c.registered.forget c.nextId).pending ↔ n ∈ c.pending := by
    rw [mem_pending_forget, registered_pending, List.mem_append, List.mem_singleton]
    exact ⟨fun hn => hn.1.resolve_right hn.2, fun hn => ⟨.inl hn, hne hn⟩⟩
  rcases c.start_cases method params with ⟨-, hs⟩ | ⟨-, -, hs⟩ | ⟨-, -, hs⟩
  · rw [hs]; simpa using hf
  · rw [hs]; simp
  · rw [hs]; simpa using hf

theorem start_pending_nodup {method : String} {params : Option Json} (h : c.nextId ∉ c.pending)
    (hd : c.pending.Nodup) : (c.start method params).2.pending.Nodup := by
  have hr : c.registered.pending.Nodup := by
    rw [registered_pending, List.nodup_append]
    refine ⟨hd, by simp, fun a ha b hb => ?_⟩
    rw [List.mem_singleton.1 hb]
    exact fun e => h (e ▸ ha)
  rcases c.start_cases method params with ⟨-, hs⟩ | ⟨-, -, hs⟩ | ⟨-, -, hs⟩
  · rw [hs]; exact hr.filter _
  · rw [hs]; simpa using hr
  · rw [hs]; exact hr.filter _

theorem start_rest (method : String) (params : Option Json) :
    (c.start method params).2.nextId = c.nextId + 1 ∧
      (c.start method params).2.closed = c.closed ∧
      (c.start method params).2.writable = c.writable ∧
      (c.start method params).2.delivered = c.delivered := by
  rcases c.start_cases method params with ⟨-, hs⟩ | ⟨-, -, hs⟩ | ⟨-, -, hs⟩
  · rw [hs]; exact ⟨rfl, rfl, rfl, rfl⟩
  · rw [hs]; simp [registered, takeNumber, expect]
  · rw [hs]; exact ⟨rfl, rfl, rfl, rfl⟩

/-! ## No more texts arrive -/

theorem delivery?_wakeAll (n : Nat) :
    c.wakeAll.delivery? n = (c.delivery? n).or (if n ∈ c.pending then some none else none) := by
  show (c.delivered ++ c.pending.map fun m => (m, none)).lookup n = _
  rw [List.lookup_append, lookup_map_const]
  rfl

theorem delivery?_endInbound (n : Nat) :
    c.endInbound.delivery? n = (c.delivery? n).or (if n ∈ c.pending then some none else none) :=
  c.markClosed.delivery?_wakeAll n

end Connection

end SymbolContext.Rpc
