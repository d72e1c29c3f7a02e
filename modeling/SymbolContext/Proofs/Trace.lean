/-!
# Runs that leave a trace

What a computation does is seen from the events that it leaves behind, of whatever kind they are:
each call adds one, with the answer to it. An answer may depend on all events before, so **what
holds for every way to answer holds however the calls turn out**.

* `Ran x log a events`: run after `log`, `x` answers `a` and adds `events`.
* `Runs x log post`: it does so with an answer and with events that are as in `post`.

A computation is followed step by step, with one lemma for each way to put it together.
-/

namespace SymbolContext.Trace

variable {ε α β : Type} {log events more : List ε} {a : α} {b : β}

/-- A call is answered, and the event goes to the log. -/
def answered (event : α → ε) (answer : List ε → α) : StateM (List ε) α :=
  fun log => (answer log, log ++ [event (answer log)])

/-- Run after `log`, `x` answers `a` and adds `events`. -/
def Ran (x : StateM (List ε) α) (log : List ε) (a : α) (events : List ε) : Prop :=
  x.run log = (a, log ++ events)

namespace Ran

variable {x : StateM (List ε) α} {f : α → StateM (List ε) β}

theorem pure : Ran (Pure.pure a) log a [] := by
  show (a, log) = (a, log ++ [])
  rw [List.append_nil]

theorem bind (hx : Ran x log a events) (hf : Ran (f a) (log ++ events) b more) :
    Ran (x >>= f) log b (events ++ more) := by
  have hrun : (x >>= f).run log = (f (x.run log).1).run (x.run log).2 := rfl
  unfold Ran at *
  rw [hrun, hx, hf, List.append_assoc]

/-- An answer that is only passed on adds no event. -/
theorem map {g : α → β} (hx : Ran x log a events) :
    Ran (x >>= fun a => Pure.pure (g a)) log (g a) events := by
  have hrun := hx.bind (f := fun a => Pure.pure (g a)) pure
  rwa [List.append_nil] at hrun

/-- What adds no event may be left out. -/
theorem silent (hx : Ran x log a []) (hf : Ran (f a) log b events) :
    Ran (x >>= f) log b events := by
  rw [← List.append_nil log] at hf
  exact hx.bind hf

/-- A call adds one event, with its answer. -/
theorem answered {event : α → ε} {answer : List ε → α} (h : answer log = a) :
    Ran (Trace.answered event answer) log a [event a] := by
  subst h
  rfl

end Ran

/-- Run after `log`, `x` ends with an answer and further events as in `post`. -/
def Runs (x : StateM (List ε) α) (log : List ε) (post : α → List ε → Prop) : Prop :=
  ∃ a events, Ran x log a events ∧ post a events

namespace Runs

variable {x : StateM (List ε) α}

theorem pure {post : α → List ε → Prop} (h : post a []) : Runs (Pure.pure a) log post :=
  ⟨a, [], .pure, h⟩

theorem bind {f : α → StateM (List ε) β} {mid : α → List ε → Prop} {post : β → List ε → Prop}
    (hx : Runs x log mid)
    (hf : ∀ a events, mid a events →
      Runs (f a) (log ++ events) fun b more => post b (events ++ more)) :
    Runs (x >>= f) log post := by
  obtain ⟨a, events, hran, hmid⟩ := hx
  obtain ⟨b, more, hrest, hpost⟩ := hf a events hmid
  exact ⟨b, events ++ more, hran.bind hrest, hpost⟩

theorem mono {post post' : α → List ε → Prop} (h : Runs x log post)
    (himp : ∀ a events, post a events → post' a events) : Runs x log post' := by
  obtain ⟨a, events, hran, hpost⟩ := h
  exact ⟨a, events, hran, himp a events hpost⟩

/-- The run itself may be kept in mind. -/
theorem exact {post : α → List ε → Prop} (h : Runs x log post) :
    Runs x log fun a events => Ran x log a events ∧ post a events := by
  obtain ⟨a, events, hran, hpost⟩ := h
  exact ⟨a, events, hran, hran, hpost⟩

/-- A call adds one event, with its answer. -/
theorem answered (event : α → ε) (answer : List ε → α) :
    Runs (Trace.answered event answer) log fun a events => events = [event a] :=
  ⟨answer log, _, .answered rfl, rfl⟩

variable {σ : Type} {s : σ}

theorem bindState {x : StateT σ (StateM (List ε)) α} {f : α → StateT σ (StateM (List ε)) β}
    {mid : α × σ → List ε → Prop} {post : β × σ → List ε → Prop} (hx : Runs (x.run s) log mid)
    (hf : ∀ a s' events, mid (a, s') events →
      Runs ((f a).run s') (log ++ events) fun r more => post r (events ++ more)) :
    Runs ((x >>= f).run s) log post := by
  rw [StateT.run_bind]
  exact hx.bind fun r events hr => hf r.1 r.2 events hr

/-- The state may be looked at. -/
theorem get {f : σ → StateT σ (StateM (List ε)) α} {post : α × σ → List ε → Prop}
    (h : Runs ((f s).run s) log post) : Runs ((MonadState.get >>= f).run s) log post := h

/-- A call outside leaves the state alone. -/
theorem lift {post : α → List ε → Prop} (h : Runs x log post) :
    Runs ((StateT.lift x).run s) log fun r events => r.2 = s ∧ post r.1 events := by
  refine h.bind fun a events hpost => .pure ⟨rfl, ?_⟩
  rwa [List.append_nil]

end Runs

end SymbolContext.Trace
