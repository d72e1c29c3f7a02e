import SymbolContext.Definition.Expand

/-!
# The innermost symbol around a position

`Definition.innermost?` goes through the ranges of an outline once and keeps one of them at a time.
Enclosing is a partial order on ranges, and each range that is kept lies in the one before it; so

* `foldl_inner`: **what is kept at the end encloses no other range that was seen**, although most of
  them were compared only with what was kept then;
* `innermost?_eq_some_iff`: if the ranges around the position are nested, it is the least of them,
  in whatever order they come.

An outline that is a forest is looked at through `OutlineSymbol.Within` (a symbol at any depth) and
`OutlineSymbol.Preorder` (its symbols in a row, parents before their children).
`innermost_symbol_chosen` puts these together.
-/

namespace SymbolContext

/-! ## Enclosing is a partial order -/

namespace Position

variable {a b c : Position}

theorem le_iff : a ≤ b ↔ a.line < b.line ∨ (a.line = b.line ∧ a.column ≤ b.column) := Iff.rfl

theorem le_refl (a : Position) : a ≤ a := .inr ⟨rfl, Nat.le_refl _⟩

theorem le_trans (hab : a ≤ b) (hbc : b ≤ c) : a ≤ c := by
  rw [le_iff] at *
  omega

theorem le_antisymm (hab : a ≤ b) (hba : b ≤ a) : a = b := by
  obtain ⟨line, column⟩ := a
  obtain ⟨line', column'⟩ := b
  simp only [le_iff] at hab hba
  rw [Position.mk.injEq]
  omega

end Position

namespace Range

variable {a b c : Range}

theorem contains_iff {p : Position} : a.contains p = true ↔ a.start ≤ p ∧ p ≤ a.stop :=
  decide_eq_true_iff

theorem encloses_iff : a.encloses b = true ↔ a.start ≤ b.start ∧ b.stop ≤ a.stop :=
  decide_eq_true_iff

theorem encloses_trans (hab : a.encloses b) (hbc : b.encloses c) : a.encloses c := by
  rw [encloses_iff] at *
  exact ⟨Position.le_trans hab.1 hbc.1, Position.le_trans hbc.2 hab.2⟩

theorem encloses_antisymm (hab : a.encloses b) (hba : b.encloses a) : a = b := by
  rw [encloses_iff] at hab hba
  obtain ⟨start, stop⟩ := a
  obtain ⟨start', stop'⟩ := b
  rw [Range.mk.injEq]
  exact ⟨Position.le_antisymm hab.1 hba.1, Position.le_antisymm hba.2 hab.2⟩

theorem encloses_refl (a : Range) : a.encloses a = true :=
  encloses_iff.2 ⟨Position.le_refl _, Position.le_refl _⟩

end Range

/-! ## One pass over the ranges -/

namespace Definition

/-- What is kept lies in what was kept before, and encloses no other range that was seen. -/
theorem foldl_inner (rs : List Range) (best : Range) :
    ∃ r, rs.foldl inner (some best) = some r ∧ (r = best ∨ r ∈ rs) ∧ best.encloses r ∧
      ∀ s ∈ rs, r.encloses s → s = r := by
  induction rs generalizing best with
  | nil => exact ⟨best, rfl, .inl rfl, best.encloses_refl, by simp⟩
  | cons x rs ih =>
    rw [List.foldl_cons]
    by_cases hx : best.encloses x
    · obtain ⟨r, hr, hmem, hin, hmin⟩ := ih x
      refine ⟨r, by simpa [inner, hx] using hr, .inr ?_, Range.encloses_trans hx hin, ?_⟩
      · simpa using hmem
      · intro s hs hrs
        rcases List.mem_cons.1 hs with rfl | hs
        · exact Range.encloses_antisymm hin hrs
        · exact hmin s hs hrs
    · obtain ⟨r, hr, hmem, hin, hmin⟩ := ih best
      refine ⟨r, by simpa [inner, hx] using hr, ?_, hin, ?_⟩
      · exact hmem.imp_right (List.mem_cons_of_mem x)
      · intro s hs hrs
        rcases List.mem_cons.1 hs with rfl | hs
        -- what is passed over reaches out of the best range then, and so of all later ones
        · exact absurd (Range.encloses_trans hin hrs) hx
        · exact hmin s hs hrs

section
variable {ranges ranges' : List Range} {target : Position} {r : Range}

theorem innermost?_eq_none_iff :
    innermost? ranges target = none ↔ ∀ r ∈ ranges, r.contains target = false := by
  have hnone : ranges.filter (fun r => r.contains target) = [] ↔
      ∀ r ∈ ranges, r.contains target = false := by simp [List.filter_eq_nil_iff]
  rw [← hnone, innermost?]
  cases hrs : ranges.filter fun r => r.contains target with
  | nil => simp
  | cons x rs =>
    obtain ⟨r, hr, -⟩ := foldl_inner rs x
    have hfold : (x :: rs).foldl inner none = some r := hr
    simp [hfold]

/-- **The range that is found is one of those around the position, and no other lies in it.** -/
theorem minimal_of_innermost? (h : innermost? ranges target = some r) :
    r ∈ ranges ∧ r.contains target ∧
      ∀ s ∈ ranges, s.contains target → r.encloses s → s = r := by
  have hmem : ∀ s, s ∈ ranges.filter (fun r => r.contains target) ↔
      s ∈ ranges ∧ s.contains target := fun s => List.mem_filter
  rw [innermost?] at h
  cases hrs : ranges.filter fun r => r.contains target with
  | nil => simp [hrs] at h
  | cons x rs =>
    rw [hrs] at h hmem
    obtain ⟨r', hr', hkept, hbest, hmin⟩ := foldl_inner rs x
    have hfold : (x :: rs).foldl inner none = some r' := hr'
    obtain rfl : r' = r := Option.some.inj (hfold.symm.trans h)
    obtain ⟨hr, hcontains⟩ := (hmem r').1 (List.mem_cons.2 hkept)
    refine ⟨hr, hcontains, fun s hs hcs hin => ?_⟩
    rcases List.mem_cons.1 ((hmem s).2 ⟨hs, hcs⟩) with rfl | hs
    · exact Range.encloses_antisymm hbest hin
    · exact hmin s hs hin

/-- The ranges around the position are nested. -/
def Nested (ranges : List Range) (target : Position) : Prop :=
  ∀ a ∈ ranges, ∀ b ∈ ranges, a.contains target → b.contains target →
    a.encloses b ∨ b.encloses a

/-- **Among nested ranges, the one that is found is the least.** -/
theorem innermost?_eq_some_iff (h : Nested ranges target) :
    innermost? ranges target = some r ↔
      r ∈ ranges ∧ r.contains target ∧ ∀ s ∈ ranges, s.contains target → s.encloses r := by
  have hleast : ∀ x, innermost? ranges target = some x →
      x ∈ ranges ∧ x.contains target ∧ ∀ s ∈ ranges, s.contains target → s.encloses x := by
    intro x hx
    obtain ⟨hmem, hcontains, hmin⟩ := minimal_of_innermost? hx
    refine ⟨hmem, hcontains, fun s hs hcs => ?_⟩
    rcases h s hs x hmem hcs hcontains with hsx | hxs
    · exact hsx
    · rw [hmin s hs hcs hxs]
      exact x.encloses_refl
  refine ⟨hleast r, fun ⟨hmem, hcontains, hall⟩ => ?_⟩
  cases hx : innermost? ranges target with
  | none =>
    rw [innermost?_eq_none_iff.1 hx r hmem] at hcontains
    cases hcontains
  | some x =>
    obtain ⟨hxmem, hxcontains, hxall⟩ := hleast x hx
    rw [Range.encloses_antisymm (hall x hxmem hxcontains) (hxall r hmem hcontains)]

/-- So it does not depend on the order of the ranges. -/
theorem innermost?_perm (h : Nested ranges target) (hperm : ranges.Perm ranges') :
    innermost? ranges' target = innermost? ranges target := by
  have h' : Nested ranges' target := fun a ha b hb =>
    h a (hperm.mem_iff.2 ha) b (hperm.mem_iff.2 hb)
  apply Option.ext
  intro r
  simp only [innermost?_eq_some_iff h, innermost?_eq_some_iff h', hperm.mem_iff]

end

end Definition

/-! ## Outlines -/

namespace OutlineSymbol

def range : OutlineSymbol → Range
  | .mk _ _ _ _ _ range _ _ => range

/-- The symbols right inside a symbol. -/
def inside : OutlineSymbol → List OutlineSymbol
  | .mk _ _ _ _ _ _ _ children => children.getD []

theorem sizeOf_inside (s : OutlineSymbol) : sizeOf s.inside < sizeOf s := by
  obtain ⟨_, _, _, _, _, _, _, children⟩ := s
  cases children with
  | none =>
    simp only [inside, Option.getD_none, OutlineSymbol.mk.sizeOf_spec, List.nil.sizeOf_spec,
      Option.none.sizeOf_spec]
    omega
  | some children =>
    simp only [inside, Option.getD_some, OutlineSymbol.mk.sizeOf_spec, Option.some.sizeOf_spec]
    omega

@[simp] theorem rangesOf_cons (s : OutlineSymbol) (rest : List OutlineSymbol) :
    rangesOf (s :: rest) = s.range :: (rangesOf s.inside ++ rangesOf rest) := by
  obtain ⟨_, _, _, _, _, _, _, children⟩ := s
  cases children <;> simp [rangesOf, ranges, range, inside]

/-- A symbol of a forest, at any depth. -/
inductive Within (s : OutlineSymbol) : List OutlineSymbol → Prop where
  | top {forest : List OutlineSymbol} : s ∈ forest → Within s forest
  | deeper {forest : List OutlineSymbol} {parent : OutlineSymbol} :
    parent ∈ forest → Within s parent.inside → Within s forest

/-- A forest and its symbols in a row: each before those inside it, and these before its
siblings. -/
inductive Preorder : List OutlineSymbol → List OutlineSymbol → Prop where
  | nil : Preorder [] []
  | cons {s : OutlineSymbol} {rest below behind : List OutlineSymbol} :
    Preorder s.inside below → Preorder rest behind → Preorder (s :: rest) (s :: (below ++ behind))

theorem exists_preorder : (forest : List OutlineSymbol) → ∃ row, Preorder forest row
  | [] => ⟨[], .nil⟩
  | s :: rest => by
    obtain ⟨below, hbelow⟩ := exists_preorder s.inside
    obtain ⟨behind, hbehind⟩ := exists_preorder rest
    exact ⟨_, .cons hbelow hbehind⟩
termination_by forest => sizeOf forest
decreasing_by
  · have := s.sizeOf_inside
    simp only [List.cons.sizeOf_spec]
    omega
  · simp only [List.cons.sizeOf_spec]
    omega

theorem Preorder.rangesOf_eq {forest row : List OutlineSymbol} (h : Preorder forest row) :
    rangesOf forest = row.map range := by
  induction h with
  | nil => simp [rangesOf]
  | cons _ _ ihbelow ihbehind => simp [ihbelow, ihbehind]

theorem Within.cons_iff {s t : OutlineSymbol} {rest : List OutlineSymbol} :
    Within s (t :: rest) ↔ s = t ∨ Within s t.inside ∨ Within s rest := by
  constructor
  · intro h
    cases h with
    | top hs =>
      rcases List.mem_cons.1 hs with rfl | hs
      · exact .inl rfl
      · exact .inr (.inr (.top hs))
    | deeper hp hs =>
      rcases List.mem_cons.1 hp with rfl | hp
      · exact .inr (.inl hs)
      · exact .inr (.inr (.deeper hp hs))
  · rintro (rfl | hs | hs)
    · exact .top List.mem_cons_self
    · exact .deeper List.mem_cons_self hs
    · cases hs with
      | top hs => exact .top (List.mem_cons_of_mem t hs)
      | deeper hp hs => exact .deeper (List.mem_cons_of_mem t hp) hs

theorem Preorder.mem_iff {forest row : List OutlineSymbol} (h : Preorder forest row)
    (s : OutlineSymbol) : s ∈ row ↔ Within s forest := by
  induction h with
  | nil =>
    refine ⟨fun hs => absurd hs List.not_mem_nil, fun hs => ?_⟩
    cases hs with
    | top hs => exact hs
    | deeper hp _ => exact absurd hp List.not_mem_nil
  | cons _ _ ihbelow ihbehind =>
    rw [Within.cons_iff, List.mem_cons, List.mem_append, ihbelow, ihbehind]

/-- The same ranges, with siblings in any order at every depth. -/
inductive Reordered : List OutlineSymbol → List OutlineSymbol → Prop where
  | nil : Reordered [] []
  | cons {s t : OutlineSymbol} {rest rest' : List OutlineSymbol} :
    s.range = t.range → Reordered s.inside t.inside → Reordered rest rest' →
      Reordered (s :: rest) (t :: rest')
  | swap (s t : OutlineSymbol) (rest : List OutlineSymbol) :
    Reordered (s :: t :: rest) (t :: s :: rest)
  | trans {a b c : List OutlineSymbol} : Reordered a b → Reordered b c → Reordered a c

theorem Reordered.rangesOf_perm {a b : List OutlineSymbol} (h : Reordered a b) :
    (rangesOf a).Perm (rangesOf b) := by
  induction h with
  | nil => exact .refl _
  | cons hrange _ _ ihinside ihrest =>
    rw [rangesOf_cons, rangesOf_cons, hrange]
    exact (ihinside.append ihrest).cons _
  | swap s t rest =>
    simp only [rangesOf, ← List.append_assoc]
    exact List.perm_append_comm.append_right _
  | trans _ _ ihab ihbc => exact ihab.trans ihbc

end OutlineSymbol

namespace Outline

/-- A range of a symbol of the outline, at any depth. -/
def HasRange : Outline → Range → Prop
  | flat symbols, r => ∃ s ∈ symbols, s.place.range = r
  | nested forest, r => ∃ s, OutlineSymbol.Within s forest ∧ s.range = r

/-- The same outline, with the symbols in another order. -/
inductive Reordered : Outline → Outline → Prop where
  | flat {a b : List SymbolInfo} : a.Perm b → Reordered (.flat a) (.flat b)
  | nested {a b : List OutlineSymbol} : OutlineSymbol.Reordered a b →
    Reordered (.nested a) (.nested b)

theorem mem_ranges {outline : Outline} {r : Range} : r ∈ outline.ranges ↔ outline.HasRange r := by
  cases outline with
  | flat symbols => simp [ranges, HasRange]
  | nested forest =>
    obtain ⟨row, hrow⟩ := OutlineSymbol.exists_preorder forest
    simp only [ranges, HasRange, hrow.rangesOf_eq, List.mem_map, hrow.mem_iff]

theorem Reordered.ranges_perm {a b : Outline} (h : Reordered a b) : a.ranges.Perm b.ranges := by
  cases h with
  | flat h => exact h.map _
  | nested h => exact h.rangesOf_perm

end Outline

/-! ## The symbol that is chosen -/

namespace Definition

/-- **The innermost symbol is chosen.** There is none exactly if no symbol is around the position;
no symbol around the position lies strictly inside the one that is found; if those around the
position are nested, the least of them is found, however the symbols are ordered; and a forest is
searched as its symbols in a row are. -/
theorem innermost_symbol_chosen (outline : Outline) (target : Position) :
    (innermost? outline.ranges target = none ↔
      ∀ r, outline.HasRange r → r.contains target = false) ∧
    (∀ r, innermost? outline.ranges target = some r →
      outline.HasRange r ∧ r.contains target ∧
        ¬ ∃ s, outline.HasRange s ∧ s.contains target ∧ r.encloses s ∧ s ≠ r) ∧
    ((∀ a b, outline.HasRange a → outline.HasRange b → a.contains target → b.contains target →
        a.encloses b ∨ b.encloses a) →
      (∀ r, innermost? outline.ranges target = some r ↔
        outline.HasRange r ∧ r.contains target ∧
          ∀ s, outline.HasRange s → s.contains target → s.encloses r) ∧
      ∀ outline', outline.Reordered outline' →
        innermost? outline'.ranges target = innermost? outline.ranges target) ∧
    (∀ forest, outline = .nested forest → ∃ row, OutlineSymbol.Preorder forest row ∧
      ∀ symbols : List SymbolInfo, symbols.map (·.place.range) = row.map OutlineSymbol.range →
        innermost? outline.ranges target = innermost? (Outline.flat symbols).ranges target ∧
        ∀ path text location, expand path text (some outline) location =
          expand path text (some (.flat symbols)) location) := by
  simp only [← Outline.mem_ranges]
  refine ⟨innermost?_eq_none_iff, fun r hr => ?_, fun hnested => ?_, ?_⟩
  · obtain ⟨hmem, hcontains, hmin⟩ := minimal_of_innermost? hr
    refine ⟨hmem, hcontains, ?_⟩
    rintro ⟨s, hs, hcs, hrs, hne⟩
    exact hne (hmin s hs hcs hrs)
  · have hn : Nested outline.ranges target := fun a ha b hb => hnested a b ha hb
    exact ⟨fun r => innermost?_eq_some_iff hn, fun _ h => innermost?_perm hn h.ranges_perm⟩
  · rintro forest rfl
    obtain ⟨row, hrow⟩ := OutlineSymbol.exists_preorder forest
    refine ⟨row, hrow, fun symbols hsymbols => ?_⟩
    have hranges : (Outline.nested forest).ranges = (Outline.flat symbols).ranges := by
      show OutlineSymbol.rangesOf forest = symbols.map (·.place.range)
      rw [hrow.rangesOf_eq, hsymbols]
    refine ⟨by rw [hranges], fun path text location => ?_⟩
    have hchosen : chosen (some (.nested forest)) location.range =
        chosen (some (.flat symbols)) location.range := by
      simp only [chosen, Option.map_some, hranges]
    simp only [expand, hchosen]

/-- Two siblings in a symbol, the first of them around the position: in either order. -/
theorem innermost_symbol_chosen_siblings :
    let leaf : Range → OutlineSymbol := fun r => .mk "f" none 12 none none r r none
    let first := leaf ⟨⟨3, 4⟩, ⟨5, 5⟩⟩
    let second := leaf ⟨⟨6, 4⟩, ⟨8, 5⟩⟩
    let whole : List OutlineSymbol → Outline := fun children =>
      .nested [.mk "c" none 5 none none ⟨⟨1, 0⟩, ⟨9, 1⟩⟩ ⟨⟨1, 6⟩, ⟨1, 7⟩⟩ (some children)]
    innermost? (whole [first, second]).ranges ⟨3, 8⟩ = some ⟨⟨3, 4⟩, ⟨5, 5⟩⟩ ∧
      innermost? (whole [second, first]).ranges ⟨3, 8⟩ = some ⟨⟨3, 4⟩, ⟨5, 5⟩⟩ := by
  intro leaf first second whole
  have hranges : (whole [first, second]).ranges =
      [⟨⟨1, 0⟩, ⟨9, 1⟩⟩, ⟨⟨3, 4⟩, ⟨5, 5⟩⟩, ⟨⟨6, 4⟩, ⟨8, 5⟩⟩] := by rfl
  have hfound : innermost? (whole [first, second]).ranges ⟨3, 8⟩ = some ⟨⟨3, 4⟩, ⟨5, 5⟩⟩ := by
    rw [hranges]
    decide
  have haround : Nested (whole [first, second]).ranges ⟨3, 8⟩ := by
    rw [hranges]
    unfold Nested
    decide
  have hswap : (whole [first, second]).Reordered (whole [second, first]) :=
    .nested (.cons rfl (.swap first second []) .nil)
  obtain ⟨-, -, hnested, -⟩ := innermost_symbol_chosen (whole [first, second]) ⟨3, 8⟩
  obtain ⟨-, hreordered⟩ := hnested fun a b ha hb =>
    haround a (Outline.mem_ranges.2 ha) b (Outline.mem_ranges.2 hb)
  exact ⟨hfound, (hreordered _ hswap).trans hfound⟩

end Definition

end SymbolContext
