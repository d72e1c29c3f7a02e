import SymbolContext.Json.Reader
import SymbolContext.Proofs.Json.Literal

/-!
# What is read

A value that has been read is nested no deeper than the limit, its numbers fit 64 bits, and the
fields of its objects are in ascending order (`fits_of_parse?`).
-/

namespace SymbolContext.Json

/-- Fields in strictly ascending order of their names. -/
def Ordered (fields : List (String × Json)) : Prop := fields.Pairwise fun f g => f.1 < g.1

/-- A value that is nested at most `n` deep, and of which every part could have been read. -/
inductive Fits : Nat → Json → Prop
  | null {n : Nat} : Fits n .null
  | bool {n : Nat} (b : Bool) : Fits n (.bool b)
  | number {n : Nat} {v : Json} (h : IsNumber v) : Fits n v
  | str {n : Nat} (s : String) : Fits n (.str s)
  | arr {n : Nat} {items : List Json} (h : ∀ v ∈ items, Fits n v) : Fits (n + 1) (.arr items)
  | obj {n : Nat} {fields : List (String × Json)} (h : ∀ f ∈ fields, Fits n f.2)
      (ordered : Ordered fields) : Fits (n + 1) (.obj fields)

/-! ## Fields -/

theorem mem_insert {name : String} {v : Json} {fields : List (String × Json)}
    {f : String × Json} (h : f ∈ insert name v fields) : f = (name, v) ∨ f ∈ fields := by
  induction fields with
  | nil => exact .inl (List.mem_singleton.1 h)
  | cons g fields ih =>
    obtain ⟨k, w⟩ := g
    rw [insert] at h
    split at h
    · exact List.mem_cons.1 h
    split at h
    · rcases List.mem_cons.1 h with rfl | h
      · exact .inl rfl
      · exact .inr (List.mem_cons_of_mem _ h)
    · rcases List.mem_cons.1 h with rfl | h
      · exact .inr List.mem_cons_self
      · exact (ih h).imp_right (List.mem_cons_of_mem _)

theorem ordered_insert {fields : List (String × Json)} (h : Ordered fields) (name : String)
    (v : Json) : Ordered (insert name v fields) := by
  induction fields with
  | nil => exact List.pairwise_singleton _ _
  | cons g fields ih =>
    obtain ⟨k, w⟩ := g
    obtain ⟨hk, hfields⟩ := List.pairwise_cons.1 h
    rw [insert]
    split
    · rename_i hlt
      refine List.pairwise_cons.2 ⟨fun f hf => ?_, h⟩
      rcases List.mem_cons.1 hf with rfl | hf
      · exact hlt
      · exact String.lt_trans hlt (hk f hf)
    split
    · rename_i heq
      subst heq
      exact List.pairwise_cons.2 ⟨hk, hfields⟩
    · rename_i hge hne
      refine List.pairwise_cons.2 ⟨fun f hf => ?_, ih hfields⟩
      rcases mem_insert hf with rfl | hf
      · exact Std.lt_of_le_of_ne (String.not_lt.1 hge) (Ne.symm hne)
      · exact hk f hf

theorem Ordered.eq_of_mem {fields : List (String × Json)} (h : Ordered fields) {k : String}
    {v w : Json} (hv : (k, v) ∈ fields) (hw : (k, w) ∈ fields) : v = w := by
  induction fields with
  | nil => cases hv
  | cons f fields ih =>
    obtain ⟨hlt, hfields⟩ := List.pairwise_cons.1 h
    rcases List.mem_cons.1 hv with rfl | hv'
    · rcases List.mem_cons.1 hw with heq | hw'
      · cases heq
        rfl
      · exact absurd (hlt (k, w) hw') (String.lt_irrefl k)
    · rcases List.mem_cons.1 hw with rfl | hw'
      · exact absurd (hlt (k, v) hv') (String.lt_irrefl k)
      · exact ih hfields hv' hw'

theorem Fits.fields {n : Nat} {fields : List (String × Json)} (h : Fits n (.obj fields)) :
    ∃ m, n = m + 1 ∧ (∀ f ∈ fields, Fits m f.2) ∧ Ordered fields := by
  cases h with
  | number h => exact absurd h id
  | obj h ordered => exact ⟨_, rfl, h, ordered⟩

theorem mem_of_lookup {fields : List (String × Json)} {name : String} {v : Json}
    (h : fields.lookup name = some v) : (name, v) ∈ fields := by
  obtain ⟨front, behind, rfl, -⟩ := List.lookup_eq_some_iff.1 h
  exact List.mem_append_right _ List.mem_cons_self

theorem fits_mkObj {n : Nat} {fields : List (String × Json)} (h : ∀ f ∈ fields, Fits n f.2) :
    Fits (n + 1) (.mkObj fields) := by
  suffices hfold : ∀ acc : List (String × Json), (∀ f ∈ acc, Fits n f.2) → Ordered acc →
      Fits (n + 1) (.obj (fields.foldl (fun acc f => insert f.1 f.2 acc) acc)) from
    hfold [] (List.forall_mem_nil _) List.Pairwise.nil
  induction fields with
  | nil => exact fun acc hacc hordered => .obj hacc hordered
  | cons f fields ih =>
    intro acc hacc hordered
    obtain ⟨hf, hfields⟩ := List.forall_mem_cons.1 h
    refine ih hfields _ (fun g hg => ?_) (ordered_insert hordered f.1 f.2)
    rcases mem_insert hg with rfl | hg
    · exact hf
    · exact hacc g hg

/-! ## Tokens -/

/-- A token whose value, if it has one, fits everywhere. -/
def Token.Fits : Token → Prop
  | .scalar v => ∀ n, Json.Fits n v
  | _ => True

/-- What a character does to the machine, if it emits only tokens that fit. -/
def Emits (x : Option (List Token × Mode)) : Prop := ∀ out m, x = some (out, m) → ∀ t ∈ out, t.Fits

theorem emits_none : Emits none := fun _ _ h => by cases h

theorem emits_nil (m : Mode) : Emits (some ([], m)) := fun _ _ h => by
  cases h
  exact List.forall_mem_nil _

theorem emits_one {t : Token} (ht : t.Fits) (m : Mode) : Emits (some ([t], m)) := fun _ _ h => by
  cases h
  exact List.forall_mem_singleton.2 ht

theorem emits_ite {p : Prop} [Decidable p] {x y : Option (List Token × Mode)} (hx : Emits x)
    (hy : Emits y) : Emits (if p then x else y) := by
  split
  · exact hx
  · exact hy

/-- What does nothing but change the mode emits nothing. -/
theorem emits_bind_nil {α : Type} (x : Option α) (f : α → Mode) :
    Emits (x.bind fun a => some ([], f a)) := by
  cases x with
  | none => exact emits_none
  | some a => exact emits_nil (f a)

theorem emits_startToken (c : Char) : Emits (startToken c) :=
  emits_ite (emits_nil _) <|
    emits_ite (emits_one (by trivial) _) <| emits_ite (emits_one (by trivial) _) <|
    emits_ite (emits_one (by trivial) _) <| emits_ite (emits_one (by trivial) _) <|
    emits_ite (emits_one (by trivial) _) <| emits_ite (emits_one (by trivial) _) <|
    emits_ite (emits_nil _) <| emits_ite (emits_nil _) <| emits_ite (emits_nil _) emits_none

theorem fits_numberToken? {read : List Char} {t : Token} (h : numberToken? read = some t) :
    t.Fits := by
  obtain ⟨v, hv, rfl⟩ := Option.map_eq_some_iff.1 h
  exact fun n => .number (isNumber_number? hv)

theorem fits_wordToken? {read : List Char} {t : Token} (h : wordToken? read = some t) :
    t.Fits := by
  unfold wordToken? at h
  split at h
  · cases h
    exact fun n => .null
  · cases h
    exact fun n => .bool true
  · cases h
    exact fun n => .bool false
  · cases h

/-- A character that ends a token: what it begins is emitted after that token. -/
theorem emits_after {token? : Option Token} (htoken : ∀ t, token? = some t → t.Fits) (c : Char) :
    Emits (do
      let token ← token?
      let (out, mode) ← startToken c
      return (token :: out, mode)) := by
  intro out m h
  obtain ⟨token, ht, h⟩ := Option.bind_eq_some_iff.1 h
  obtain ⟨⟨out', m'⟩, hstart, h⟩ := Option.bind_eq_some_iff.1 h
  cases h
  exact List.forall_mem_cons.2 ⟨htoken token ht, emits_startToken c out' _ hstart⟩

theorem emits_step (m : Mode) (c : Char) : Emits (m.step c) := by
  cases m with
  | between => exact emits_startToken c
  | inText read =>
    exact emits_ite (emits_one (by trivial) _) <| emits_ite (emits_nil _) <|
      emits_ite emits_none (emits_nil _)
  | escape read => exact emits_bind_nil _ fun mode => mode
  | code read high owed unit =>
    cases hdigit : hexDigit? c with
    | none =>
      rw [Mode.step, hdigit]
      exact emits_none
    | some digit =>
      rw [Mode.step, hdigit]
      exact emits_ite (emits_bind_nil _ fun mode => mode) (emits_nil _)
  | pair read high => exact emits_ite (emits_nil _) emits_none
  | pairEscape read high => exact emits_ite (emits_nil _) emits_none
  | number read => exact emits_ite (emits_nil _) (emits_after (fun t => fits_numberToken?) c)
  | word read => exact emits_ite (emits_nil _) (emits_after (fun t => fits_wordToken?) c)

theorem fits_finish {m : Mode} {out : List Token} (h : m.finish = some out) :
    ∀ t ∈ out, t.Fits := by
  cases m with
  | between =>
    cases h
    exact List.forall_mem_nil _
  | number read =>
    obtain ⟨t, ht, h⟩ := Option.bind_eq_some_iff.1 h
    cases h
    exact List.forall_mem_singleton.2 (fits_numberToken? ht)
  | word read =>
    obtain ⟨t, ht, h⟩ := Option.bind_eq_some_iff.1 h
    cases h
    exact List.forall_mem_singleton.2 (fits_wordToken? ht)
  | _ => cases h

/-- **The values in the tokens of a text fit.** -/
theorem fits_tokensFrom {m : Mode} {cs : List Char} {ts : List Token}
    (h : tokensFrom m cs = some ts) : ∀ t ∈ ts, t.Fits := by
  induction cs generalizing m ts with
  | nil => exact fits_finish h
  | cons c cs ih =>
    obtain ⟨⟨out, next⟩, hstep, h⟩ := Option.bind_eq_some_iff.1 h
    obtain ⟨rest, hrest, h⟩ := Option.bind_eq_some_iff.1 h
    cases h
    intro t ht
    rcases List.mem_append.1 ht with ht | ht
    · exact emits_step m c out next hstep t ht
    · exact ih hrest t ht

/-! ## The stack -/

/-- An open list or object whose parts are nested at most `n` deep. -/
def Open.Fits (n : Nat) : Open → Prop
  | .list items => ∀ v ∈ items, Json.Fits n v
  | .object fields _ => (∀ f ∈ fields, Json.Fits n f.2) ∧ Ordered fields

/-- The parts of an open list or object may be nested as deep as the lists and objects around it
leave room for. -/
def StackFits : List Open → Prop
  | [] => True
  | o :: rest => rest.length < depthLimit ∧ o.Fits (depthLimit - rest.length - 1) ∧ StackFits rest

/-- **The invariant of reading.** -/
def Reading.Fits (r : Reading) : Prop :=
  StackFits r.stack ∧ ∀ v, r.expect = .done v → Json.Fits depthLimit v

theorem Reading.fits_of_stack {stack : List Open} {expect : Expect} (h : StackFits stack)
    (hexpect : ∀ v, expect ≠ .done v) : (Reading.mk stack expect).Fits :=
  ⟨h, fun v hv => absurd hv (hexpect v)⟩

/-- A finished value that fits where it stands keeps the invariant. -/
theorem Reading.finish_fits {v : Json} {stack : List Open} (h : StackFits stack)
    (hv : Json.Fits (depthLimit - stack.length) v) : (Reading.finish v stack).Fits := by
  cases stack with
  | nil =>
    refine ⟨trivial, fun w hw => ?_⟩
    cases hw
    exact hv
  | cons o rest =>
    obtain ⟨hlen, ho, hrest⟩ := h
    rw [List.length_cons, ← Nat.sub_sub] at hv
    cases o with
    | list items =>
      refine Reading.fits_of_stack ⟨hlen, ?_, hrest⟩ (fun w => Expect.noConfusion)
      exact List.forall_mem_cons.2 ⟨hv, ho⟩
    | object fields name =>
      refine Reading.fits_of_stack ⟨hlen, ⟨fun f hf => ?_, ordered_insert ho.2 name v⟩, hrest⟩
        (fun w => Expect.noConfusion)
      rcases mem_insert hf with rfl | hf
      · exact hv
      · exact ho.1 f hf

theorem Reading.value?_fits {stack : List Open} {t : Token} {r : Reading} (h : StackFits stack)
    (ht : t.Fits) (hr : Reading.value? stack t = some r) : r.Fits := by
  cases t with
  | scalar v =>
    cases hr
    exact Reading.finish_fits h (ht _)
  | text s =>
    cases hr
    exact Reading.finish_fits h (.str s)
  | openList =>
    simp only [Reading.value?, Reading.open?] at hr
    split at hr <;> cases hr
    exact Reading.fits_of_stack ⟨‹_›, List.forall_mem_nil _, h⟩ (fun w => Expect.noConfusion)
  | openObject =>
    simp only [Reading.value?, Reading.open?] at hr
    split at hr <;> cases hr
    exact Reading.fits_of_stack ⟨‹_›, ⟨List.forall_mem_nil _, List.Pairwise.nil⟩, h⟩
      (fun w => Expect.noConfusion)
  | _ => cases hr

theorem Reading.closeList?_fits {stack : List Open} {r : Reading} (h : StackFits stack)
    (hr : Reading.closeList? stack = some r) : r.Fits := by
  unfold Reading.closeList? at hr
  split at hr <;> cases hr
  rename_i items rest
  obtain ⟨hlen, hitems, hrest⟩ := h
  refine Reading.finish_fits hrest ?_
  have hroom : depthLimit - rest.length = depthLimit - rest.length - 1 + 1 := by omega
  rw [hroom]
  exact .arr fun v hv => hitems v (List.mem_reverse.1 hv)

theorem Reading.closeObject?_fits {stack : List Open} {r : Reading} (h : StackFits stack)
    (hr : Reading.closeObject? stack = some r) : r.Fits := by
  unfold Reading.closeObject? at hr
  split at hr <;> cases hr
  rename_i fields name rest
  obtain ⟨hlen, hfields, hrest⟩ := h
  refine Reading.finish_fits hrest ?_
  have hroom : depthLimit - rest.length = depthLimit - rest.length - 1 + 1 := by omega
  rw [hroom]
  exact .obj hfields.1 hfields.2

theorem Reading.name?_fits {stack : List Open} {name : String} {r : Reading} (h : StackFits stack)
    (hr : Reading.name? name stack = some r) : r.Fits := by
  unfold Reading.name? at hr
  split at hr <;> cases hr
  exact Reading.fits_of_stack h (fun w => Expect.noConfusion)

theorem Reading.next?_fits {stack : List Open} {r : Reading} (h : StackFits stack)
    (hr : Reading.next? stack = some r) : r.Fits := by
  unfold Reading.next? at hr
  split at hr <;> cases hr
  · exact Reading.fits_of_stack h (fun w => Expect.noConfusion)
  · exact Reading.fits_of_stack h (fun w => Expect.noConfusion)

/-- **A token keeps the invariant.** -/
theorem Reading.step_fits {r r' : Reading} {t : Token} (h : r.Fits) (ht : t.Fits)
    (hr : r.step t = some r') : r'.Fits := by
  unfold Reading.step at hr
  split at hr
  · exact Reading.value?_fits h.1 ht hr
  · exact Reading.closeList?_fits h.1 hr
  · exact Reading.value?_fits h.1 ht hr
  · exact Reading.closeObject?_fits h.1 hr
  · exact Reading.name?_fits h.1 hr
  · exact Reading.name?_fits h.1 hr
  · cases hr
    exact Reading.fits_of_stack h.1 (fun w => Expect.noConfusion)
  · exact Reading.next?_fits h.1 hr
  · exact Reading.closeList?_fits h.1 hr
  · exact Reading.closeObject?_fits h.1 hr
  · cases hr

theorem Reading.run_fits {r r' : Reading} {ts : List Token} (h : r.Fits)
    (hts : ∀ t ∈ ts, t.Fits) (hr : r.run ts = some r') : r'.Fits := by
  induction ts generalizing r with
  | nil =>
    cases hr
    exact h
  | cons t ts ih =>
    obtain ⟨next, hstep, hr⟩ := Option.bind_eq_some_iff.1 hr
    have hnext := Reading.step_fits h (hts t List.mem_cons_self) hstep
    exact ih hnext (fun t' ht' => hts t' (List.mem_cons_of_mem t ht')) hr

/-- **What is read fits the limit.** -/
theorem fits_of_parse? {s : String} {v : Json} (h : parse? s = some v) : Fits depthLimit v := by
  obtain ⟨ts, hts, h⟩ := Option.bind_eq_some_iff.1 h
  obtain ⟨r, hrun, h⟩ := Option.bind_eq_some_iff.1 h
  have hstart : (Reading.mk [] .value).Fits :=
    Reading.fits_of_stack trivial (fun w => Expect.noConfusion)
  have hr := Reading.run_fits hstart (fits_tokensFrom hts) hrun
  split at h
  · rename_i w hw
    cases h
    exact hr.2 _ hw
  · cases h

end SymbolContext.Json
