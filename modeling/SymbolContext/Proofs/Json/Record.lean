import SymbolContext.Json.Decode

/-!
# What a decoded value was decoded from

A record is put together from what its fields were read from. `Record.value?` looks a field up in a
payload without decoding anything, by its name in an object and by its place in a list, and
`Record.Reads` says that a part of a draft comes from one field alone.

* `items_eq_ok_iff`: a list is decoded element by element.
* `visitFields_get` and `Reads.value`: **a field holds what its last value decodes to**, whatever
  other fields are visited in between.
-/

namespace SymbolContext

theorem bind_eq_ok {ε α β : Type} {x : Except ε α} {f : α → Except ε β} {b : β} :
    (x >>= f) = .ok b ↔ ∃ a, x = .ok a ∧ f a = .ok b := by
  cases x <;> simp [bind, Except.bind]

theorem map_eq_ok {ε α β : Type} {x : Except ε α} {f : α → β} {b : β} :
    f <$> x = .ok b ↔ ∃ a, x = .ok a ∧ f a = b := by
  cases x <;> simp [Functor.map, Except.map]

theorem map_eq_error {ε α β : Type} {x : Except ε α} {f : α → β} {e : ε} :
    f <$> x = .error e ↔ x = .error e := by
  cases x <;> simp [Functor.map, Except.map]

theorem exists_map_eq_ok {ε α β : Type} {x : Except ε α} {f : α → β} :
    (∃ b, f <$> x = .ok b) ↔ ∃ a, x = .ok a := by
  cases x <;> simp [Functor.map, Except.map]

/-! ## Lists -/

namespace Decoder

variable {α β : Type} {d : Decoder α}

theorem items_eq_ok_iff {vs : List Json} : ∀ {as : List α},
    items d vs = .ok as ↔ vs.map d = as.map .ok := by
  induction vs with
  | nil =>
    intro as
    cases as <;> simp [items]
  | cons v vs ih =>
    intro as
    simp only [items, bind_eq_ok, ih]
    constructor
    · rintro ⟨a, ha, more, hmore, hcons⟩
      obtain rfl : a :: more = as := Except.ok.inj hcons
      rw [List.map_cons, List.map_cons, ha, hmore]
    · intro h
      cases as with
      | nil => cases h
      | cons a more =>
        obtain ⟨ha, hmore⟩ := List.cons.inj h
        exact ⟨a, ha, more, hmore, rfl⟩

theorem exists_items_iff {vs : List Json} :
    (∃ as, items d vs = .ok as) ↔ ∀ v ∈ vs, ∃ a, d v = .ok a := by
  constructor
  · rintro ⟨as, has⟩ v hv
    have hmem : d v ∈ as.map Except.ok := items_eq_ok_iff.1 has ▸ List.mem_map_of_mem hv
    obtain ⟨a, -, ha⟩ := List.mem_map.1 hmem
    exact ⟨a, ha.symm⟩
  · intro h
    induction vs with
    | nil => exact ⟨[], rfl⟩
    | cons v vs ih =>
      obtain ⟨a, ha⟩ := h v List.mem_cons_self
      obtain ⟨as, has⟩ := ih fun w hw => h w (List.mem_cons_of_mem v hw)
      refine ⟨a :: as, items_eq_ok_iff.2 ?_⟩
      rw [List.map_cons, List.map_cons, ha, items_eq_ok_iff.1 has]

theorem list_eq_ok_iff {v : Json} {as : List α} :
    list d v = .ok as ↔ ∃ vs, v = .arr vs ∧ vs.map d = as.map .ok := by
  cases v with
  | arr vs =>
    rw [list, items_eq_ok_iff]
    exact ⟨fun h => ⟨vs, rfl, h⟩, fun ⟨_, heq, h⟩ => Json.arr.inj heq ▸ h⟩
  | _ => simp [list, mismatch]

theorem exists_list_iff {v : Json} :
    (∃ as, list d v = .ok as) ↔ ∃ vs, v = .arr vs ∧ ∀ x ∈ vs, ∃ a, d x = .ok a := by
  cases v with
  | arr vs =>
    rw [list, exists_items_iff]
    exact ⟨fun h => ⟨vs, rfl, h⟩, fun ⟨_, heq, h⟩ => Json.arr.inj heq ▸ h⟩
  | _ => simp [list, mismatch]

theorem list_map (f : α → β) (v : Json) :
    list (fun x => f <$> d x) v = List.map f <$> list d v := by
  cases v with
  | arr vs =>
    simp only [list]
    induction vs with
    | nil => rfl
    | cons x vs ih =>
      simp only [items, ih]
      cases d x with
      | error e => rfl
      | ok a => cases items d vs <;> rfl
  | _ => rfl

theorem require_eq_ok {field : String} {o : Option α} {a : α} (h : require field o = .ok a) :
    o = some a := by
  cases o with
  | none => cases h
  | some b => rw [Except.ok.inj h]

end Decoder

/-! ## Records -/

namespace Record

variable {π α β : Type} (r : Record π α)

/-- What a value gives for the fields of a record, in the order in which they are visited. -/
def given : Json → List (String × Json)
  | .obj fields => fields
  | .arr items => r.fields.zip items
  | _ => []

/-- The value of a field; the last one, should there be more. -/
def value? (field : String) (v : Json) : Option Json := (r.given v).reverse.lookup field

variable {r}

theorem visitFields_cons (p : π) (k : String) (v : Json) (fs : List (String × Json)) :
    r.visitFields p ((k, v) :: fs) =
      (if k ∈ r.fields then r.visit k v p else .ok p) >>= fun q => r.visitFields q fs := by
  rw [visitFields]
  split <;> rfl

theorem visitFields_zip {length : Nat} {ks : List String} : ∀ {vs : List Json} {p p' : π},
    (∀ k ∈ ks, k ∈ r.fields) → r.visitItems length p ks vs = .ok p' →
    r.visitFields p (ks.zip vs) = .ok p' := by
  induction ks with
  | nil => exact fun _ h => h
  | cons k ks ih =>
    intro vs p p' hks h
    cases vs with
    | nil => cases h
    | cons v vs =>
      obtain ⟨q, hq, hrest⟩ := bind_eq_ok.1 h
      rw [List.zip_cons_cons, visitFields_cons, if_pos (hks k List.mem_cons_self), hq]
      exact ih (fun k' hk' => hks k' (List.mem_cons_of_mem k hk')) hrest

theorem exists_draft {v : Json} {a : α} (h : r.decode v = .ok a) :
    ∃ p, r.visitFields r.empty (r.given v) = .ok p ∧ r.finish p = .ok a := by
  cases v with
  | obj fields => exact bind_eq_ok.1 h
  | arr vs =>
    obtain ⟨p, hp, h⟩ := bind_eq_ok.1 h
    obtain ⟨a', hfinish, h⟩ := bind_eq_ok.1 h
    refine ⟨p, visitFields_zip (fun _ hk => hk) hp, ?_⟩
    split at h
    · cases h
    · rw [hfinish]
      exact h
  | _ => cases h

/-- A part of a draft is read from one field by a decoder, and is left alone by the others. -/
structure Reads (r : Record π α) (field : String) (get : π → Option β) (d : Decoder β) : Prop where
  mem : field ∈ r.fields
  empty : get r.empty = none
  visit : ∀ k ∈ r.fields, ∀ v p p', r.visit k v p = .ok p' →
    if k = field then ∃ b, d v = .ok b ∧ get p' = some b else get p' = get p

section
variable {field : String} {get : π → Option β} {d : Decoder β}

/-- **The last value of a field counts**, whatever is visited after it. -/
theorem visitFields_get (h : r.Reads field get d) (fs : List (String × Json)) :
    ∀ {p p' : π}, r.visitFields p fs = .ok p' →
      (fs.reverse.lookup field = none ∧ get p' = get p) ∨
      ∃ v b, fs.reverse.lookup field = some v ∧ d v = .ok b ∧ get p' = some b := by
  induction fs with
  | nil =>
    intro p p' hp
    cases hp
    exact .inl ⟨rfl, rfl⟩
  | cons f fs ih =>
    obtain ⟨k, w⟩ := f
    intro p p' hp
    rw [visitFields_cons] at hp
    obtain ⟨q, hq, hrest⟩ := bind_eq_ok.1 hp
    rw [List.reverse_cons, List.lookup_append]
    rcases ih hrest with ⟨hnone, hget⟩ | ⟨v, b, hv, hb, hget⟩
    · rw [hnone, hget, Option.none_or]
      by_cases hk : k = field
      · subst hk
        rw [if_pos h.mem] at hq
        have hread := h.visit k h.mem w p q hq
        rw [if_pos rfl] at hread
        obtain ⟨b, hb, hget⟩ := hread
        exact .inr ⟨w, b, by simp, hb, hget⟩
      · have hlookup : [(k, w)].lookup field = none := by
          rw [List.lookup_cons, beq_false_of_ne (Ne.symm hk)]
          rfl
        refine .inl ⟨hlookup, ?_⟩
        split at hq
        · rename_i hmem
          have hread := h.visit k hmem w p q hq
          rwa [if_neg hk] at hread
        · cases hq
          rfl
    · exact .inr ⟨v, b, by rw [hv, Option.some_or], hb, hget⟩

/-- A field that is required and not missed was read from a value. -/
theorem Reads.value {v : Json} {p : π} {b : β} (h : r.Reads field get d)
    (hp : r.visitFields r.empty (r.given v) = .ok p)
    (hb : Decoder.require field (get p) = .ok b) :
    ∃ w, r.value? field v = some w ∧ d w = .ok b := by
  have hsome : get p = some b := Decoder.require_eq_ok hb
  rcases visitFields_get h _ hp with ⟨-, hget⟩ | ⟨w, b', hw, hb', hget⟩
  · rw [hget, h.empty] at hsome
    cases hsome
  · obtain rfl : b' = b := Option.some.inj (hget.symm.trans hsome)
    exact ⟨w, hw, hb'⟩

/-- A record of two required fields is made of what they are read from. -/
theorem decode_pair {γ : Type} {field' : String} {get' : π → Option γ} {d' : Decoder γ}
    {make : β → γ → α} (h : r.Reads field get d) (h' : r.Reads field' get' d')
    (hfinish : ∀ p, r.finish p = do
      let b ← Decoder.require field (get p)
      let c ← Decoder.require field' (get' p)
      return make b c)
    {v : Json} {a : α} (hv : r.decode v = .ok a) :
    ∃ w w' b c, r.value? field v = some w ∧ d w = .ok b ∧ r.value? field' v = some w' ∧
      d' w' = .ok c ∧ make b c = a := by
  obtain ⟨p, hp, ha⟩ := exists_draft hv
  rw [hfinish] at ha
  obtain ⟨b, hb, ha⟩ := bind_eq_ok.1 ha
  obtain ⟨c, hc, ha⟩ := bind_eq_ok.1 ha
  obtain ⟨w, hw, hb⟩ := h.value hp hb
  obtain ⟨w', hw', hc⟩ := h'.value hp hc
  exact ⟨w, w', b, c, hw, hb, hw', hc, Except.ok.inj ha⟩

/-- The same where another required field stands between the two, and more of the draft is kept. -/
theorem decode_around {γ κ : Type} {field' between : String} {get' : π → Option γ}
    {getBetween : π → Option κ} {d' : Decoder γ} {make : π → β → κ → γ → α}
    (h : r.Reads field get d) (h' : r.Reads field' get' d')
    (hfinish : ∀ p, r.finish p = do
      let b ← Decoder.require field (get p)
      let k ← Decoder.require between (getBetween p)
      let c ← Decoder.require field' (get' p)
      return make p b k c)
    {v : Json} {a : α} (hv : r.decode v = .ok a) :
    ∃ w w' p b k c, r.value? field v = some w ∧ d w = .ok b ∧ r.value? field' v = some w' ∧
      d' w' = .ok c ∧ make p b k c = a := by
  obtain ⟨p, hp, ha⟩ := exists_draft hv
  rw [hfinish] at ha
  obtain ⟨b, hb, ha⟩ := bind_eq_ok.1 ha
  obtain ⟨k, -, ha⟩ := bind_eq_ok.1 ha
  obtain ⟨c, hc, ha⟩ := bind_eq_ok.1 ha
  obtain ⟨w, hw, hb⟩ := h.value hp hb
  obtain ⟨w', hw', hc⟩ := h'.value hp hc
  exact ⟨w, w', p, b, k, c, hw, hb, hw', hc, Except.ok.inj ha⟩

end

end Record

end SymbolContext
