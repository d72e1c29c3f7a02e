import Mathlib.Data.List.Pairwise
import Mathlib.Tactic.Choose
import SymbolContext.Proofs.Excerpt.Merge

/-!
# The normal form of some lines

A list of ranges in normal form can be read off the lines it covers: its first range begins at the
least of them and ends before the first gap, and so on behind the gap.

* `Normal.not_covers_next`: **behind a range in normal form there is a gap.**
* `Normal.eq_of_covers`: so **two normal forms of the same lines are equal**.
* `Normal.length_le`: no range of another list reaches over the gap, so **no list with the same
  lines is shorter**.
* `merge_unique_normal_form`: merging gives that list.
-/

namespace SymbolContext.LineRange

/-- Both ends are machine words. -/
def IsWord (r : LineRange) : Prop := r.first ≤ Decimal.wordMax ∧ r.last ≤ Decimal.wordMax

/-- Two lists have the same lines, not counting line zero, which does not exist. -/
def SameLines (rs rs' : List LineRange) : Prop := ∀ n, 1 ≤ n → (Covers rs n ↔ Covers rs' n)

/-! ## Neighbours -/

/-- A gap between neighbours is a gap between any two ranges, as none is empty. -/
theorem normal_of_neighbours {rs : List LineRange}
    (hlines : ∀ r ∈ rs, 1 ≤ r.first ∧ r.first ≤ r.last)
    (hgaps : rs.IsChain fun a b => a.last + 1 < b.first) : Normal rs := by
  refine ⟨hlines, ?_⟩
  induction rs with
  | nil => exact List.Pairwise.nil
  | cons a rs ih =>
    have hrest := ih (fun r hr => hlines r (List.mem_cons_of_mem a hr)) hgaps.of_cons
    refine List.pairwise_cons.2 ⟨fun c hc => ?_, hrest⟩
    cases rs with
    | nil => exact absurd hc List.not_mem_nil
    | cons b rs =>
      have hab : a.last + 1 < b.first := (List.isChain_cons_cons.1 hgaps).1
      have hb := hlines b (List.mem_cons_of_mem a List.mem_cons_self)
      rcases List.mem_cons.1 hc with rfl | hc
      · exact hab
      · have hbc := (List.pairwise_cons.1 hrest).1 c hc
        omega

/-! ## Gaps -/

namespace Normal

variable {a : LineRange} {rs rs' : List LineRange}

theorem tail (h : Normal (a :: rs)) : Normal rs where
  lines := fun r hr => h.lines r (List.mem_cons_of_mem a hr)
  apart := (List.pairwise_cons.1 h.apart).2

/-- The first range begins at the least line. -/
theorem first_le (h : Normal (a :: rs)) {n : Nat} (hn : Covers (a :: rs) n) : a.first ≤ n := by
  have ha := h.lines a List.mem_cons_self
  obtain ⟨r, hr, hfirst, -⟩ := hn
  rcases List.mem_cons.1 hr with rfl | hr
  · exact hfirst
  · have hgap := (List.pairwise_cons.1 h.apart).1 r hr
    omega

/-- **Behind a range there is a gap.** -/
theorem not_covers_next (h : Normal rs) (ha : a ∈ rs) : ¬ Covers rs (a.last + 1) := by
  rintro ⟨b, hb, hfirst, hlast⟩
  have hlines := h.lines
  -- neither of two ranges, in whichever order they stand, reaches the line behind the other
  have hapart : rs.Pairwise fun x y => ¬ y.Has (x.last + 1) ∧ ¬ x.Has (y.last + 1) := by
    refine h.apart.imp_of_mem fun {x y} hx hy hgap => ?_
    have hyl := hlines y hy
    simp only [Has]
    omega
  have hall : ∀ x ∈ rs, ∀ y ∈ rs, ¬ y.Has (x.last + 1) ∧ ¬ x.Has (y.last + 1) := by
    have : Std.Symm fun x y : LineRange => ¬ y.Has (x.last + 1) ∧ ¬ x.Has (y.last + 1) :=
      ⟨fun _ _ hxy => hxy.symm⟩
    intro x hx y hy
    refine List.Pairwise.forall_of_forall (fun z _ => ?_) hapart hx hy
    simp only [Has]
    omega
  exact (hall a ha b hb).1 ⟨hfirst, hlast⟩

/-- The lines behind the first range are those of the others. -/
theorem covers_tail (h : Normal (a :: rs)) {n : Nat} :
    Covers rs n ↔ Covers (a :: rs) n ∧ a.last < n := by
  constructor
  · rintro ⟨r, hr, hhas⟩
    have hgap := (List.pairwise_cons.1 h.apart).1 r hr
    have hfirst := hhas.1
    exact ⟨⟨r, List.mem_cons_of_mem a hr, hhas⟩, by omega⟩
  · rintro ⟨hcov, hn⟩
    rcases covers_cons.1 hcov with ha | hrest
    · exact absurd ha.2 (Nat.not_le.2 hn)
    · exact hrest

/-! ## Uniqueness -/

/-- A first range ends no later than the first range of another normal form of the same lines. -/
theorem last_le {b : LineRange} (h' : Normal (b :: rs')) (hfirst : a.first = b.first)
    (hc : ∀ n, Covers (a :: rs) n ↔ Covers (b :: rs') n) : a.last ≤ b.last := by
  have hb := h'.lines b List.mem_cons_self
  refine Nat.le_of_not_lt fun hlt => h'.not_covers_next List.mem_cons_self ((hc _).1 ?_)
  exact ⟨a, List.mem_cons_self, by omega, hlt⟩

/-- **Two normal forms of the same lines are equal.** -/
theorem eq_of_covers (h : Normal rs) (h' : Normal rs') (hc : ∀ n, Covers rs n ↔ Covers rs' n) :
    rs = rs' := by
  induction rs generalizing rs' with
  | nil =>
    cases rs' with
    | nil => rfl
    | cons b rs' =>
      have hb : Covers (b :: rs') b.first :=
        ⟨b, List.mem_cons_self, Nat.le_refl _, (h'.lines b List.mem_cons_self).2⟩
      obtain ⟨r, hr, -⟩ := (hc b.first).2 hb
      exact absurd hr List.not_mem_nil
  | cons a rs ih =>
    have ha : Covers (a :: rs) a.first :=
      ⟨a, List.mem_cons_self, Nat.le_refl _, (h.lines a List.mem_cons_self).2⟩
    cases rs' with
    | nil =>
      obtain ⟨r, hr, -⟩ := (hc a.first).1 ha
      exact absurd hr List.not_mem_nil
    | cons b rs' =>
      have hb : Covers (b :: rs') b.first :=
        ⟨b, List.mem_cons_self, Nat.le_refl _, (h'.lines b List.mem_cons_self).2⟩
      have hfirst : a.first = b.first :=
        Nat.le_antisymm (h.first_le ((hc _).2 hb)) (h'.first_le ((hc _).1 ha))
      have hlast : a.last = b.last :=
        Nat.le_antisymm (last_le h' hfirst hc) (last_le h hfirst.symm fun n => (hc n).symm)
      have hrest : rs = rs' := by
        refine ih h.tail h'.tail fun n => ?_
        rw [h.covers_tail, h'.covers_tail, hc n, hlast]
      rw [hrest, show a = b from congr (congrArg LineRange.mk hfirst) hlast]

/-! ## The least number of ranges -/

/-- **No list with the same lines is shorter**: each range of a normal form begins in a range of
its own, since a range that holds two beginnings holds the gap between them. -/
theorem length_le (h : Normal rs) (hsame : SameLines rs rs') : rs.length ≤ rs'.length := by
  have hbegin : ∀ a, ∃ x, a ∈ rs → x ∈ rs' ∧ x.Has a.first := by
    intro a
    by_cases ha : a ∈ rs
    · have hline := h.lines a ha
      obtain ⟨x, hx, hhas⟩ := (hsame a.first hline.1).1 ⟨a, ha, Nat.le_refl _, hline.2⟩
      exact ⟨x, fun _ => ⟨hx, hhas⟩⟩
    · exact ⟨a, fun hmem => absurd hmem ha⟩
  choose holder hholder using hbegin
  have hnodup : (rs.map holder).Nodup := by
    refine List.pairwise_map.2 (h.apart.imp_of_mem fun {a b} ha hb hgap heq => ?_)
    obtain ⟨hmem, hfirst⟩ := hholder a ha
    have hsecond := heq ▸ (hholder b hb).2
    have hline := h.lines a ha
    have hbetween : (holder a).Has (a.last + 1) := by
      have hlow := hfirst.1
      have hhigh := hsecond.2
      simp only [Has]
      omega
    exact h.not_covers_next ha ((hsame _ (Nat.le_add_left 1 _)).2 ⟨holder a, hmem, hbetween⟩)
  have hsubset : rs.map holder ⊆ rs' := by
    intro x hx
    obtain ⟨a, ha, rfl⟩ := List.mem_map.1 hx
    exact (hholder a ha).1
  have hlength := hnodup.length_le_of_subset hsubset
  rwa [List.length_map] at hlength

end Normal

/-! ## Merging -/

section
variable {ranges others : List LineRange}

theorem sameLines_of_mem_iff (h : ∀ r, r ∈ others ↔ r ∈ ranges) : SameLines others ranges := by
  intro n _
  simp only [Covers, h]

theorem sameLines_merge (h : ∀ r ∈ ranges, r.IsWord) : SameLines (merge ranges) ranges := by
  intro n hn
  rw [covers_merge fun r hr => (h r hr).1]
  exact and_iff_right hn

/-- What is merged from machine words is made of machine words. -/
theorem isWord_of_mem_merge (h : ∀ r ∈ ranges, r.IsWord) : ∀ r ∈ merge ranges, r.IsWord := by
  intro r hr
  have hline := (normal_merge fun r hr => (h r hr).1).lines r hr
  obtain ⟨x, hx, -, hlast⟩ :=
    (sameLines_merge h r.last (by omega)).1 ⟨r, hr, hline.2, Nat.le_refl _⟩
  have hword := (h x hx).2
  exact ⟨by omega, by omega⟩

theorem merge_eq_of_sameLines (h : ∀ r ∈ ranges, r.IsWord) (h' : ∀ r ∈ others, r.IsWord)
    (hsame : SameLines others ranges) : merge others = merge ranges := by
  have hw : ∀ r ∈ ranges, r.first ≤ Decimal.wordMax := fun r hr => (h r hr).1
  have hw' : ∀ r ∈ others, r.first ≤ Decimal.wordMax := fun r hr => (h' r hr).1
  refine (normal_merge hw').eq_of_covers (normal_merge hw) fun n => ?_
  rw [covers_merge hw', covers_merge hw]
  exact and_congr_right (hsame n)

/-- **Merging is a normal form.** Of all lists of ranges that are not empty and begin at line one or
later, with a gap between neighbours, the merged list is the only one that covers the lines of the
given ranges from line one on. So it depends on these lines alone, and no list that covers them is
shorter. -/
theorem merge_unique_normal_form (ranges : List LineRange) (h : ∀ r ∈ ranges, r.IsWord) :
    (∀ rs : List LineRange,
      ((∀ r ∈ rs, 1 ≤ r.first ∧ r.first ≤ r.last) ∧
        (rs.IsChain fun a b => a.last + 1 < b.first) ∧
        ∀ n, Covers rs n ↔ 1 ≤ n ∧ Covers ranges n) ↔ rs = merge ranges) ∧
    (∀ others : List LineRange, (∀ r ∈ others, r.IsWord) → SameLines others ranges →
      merge others = merge ranges) ∧
    (∀ others : List LineRange, (∀ r, r ∈ others ↔ r ∈ ranges) → merge others = merge ranges) ∧
    merge (merge ranges) = merge ranges ∧
    (∀ others : List LineRange, SameLines others ranges →
      (merge ranges).length ≤ others.length) := by
  have hw : ∀ r ∈ ranges, r.first ≤ Decimal.wordMax := fun r hr => (h r hr).1
  have hnormal := normal_merge hw
  have hsame := sameLines_merge h
  refine ⟨fun rs => ⟨?_, ?_⟩, fun others h' hlines => merge_eq_of_sameLines h h' hlines,
    fun others hmem => ?_, merge_eq_of_sameLines h (isWord_of_mem_merge h) hsame,
    fun others hlines => hnormal.length_le fun n hn => ?_⟩
  · rintro ⟨hlines, hgaps, hcovers⟩
    refine (normal_of_neighbours hlines hgaps).eq_of_covers hnormal fun n => ?_
    rw [hcovers, covers_merge hw]
  · rintro rfl
    exact ⟨hnormal.lines, hnormal.apart.isChain, covers_merge hw⟩
  · exact merge_eq_of_sameLines h (fun r hr => h r ((hmem r).1 hr)) (sameLines_of_mem_iff hmem)
  · rw [hsame n hn, hlines n hn]

end

/-- Nested, touching, inverted and empty ranges, line zero, and the greatest line number. -/
theorem merge_unique_normal_form_greatest :
    merge [⟨9, 12⟩, ⟨5, Decimal.wordMax⟩, ⟨0, 0⟩, ⟨7, 3⟩, ⟨0, 2⟩, ⟨3, 3⟩] =
      [⟨1, 3⟩, ⟨5, Decimal.wordMax⟩] := by
  have hmax : 12 ≤ Decimal.wordMax := by decide
  have hform := merge_unique_normal_form
    [⟨9, 12⟩, ⟨5, Decimal.wordMax⟩, ⟨0, 0⟩, ⟨7, 3⟩, ⟨0, 2⟩, ⟨3, 3⟩]
    (by simp only [List.forall_mem_cons, IsWord]; decide)
  refine ((hform.1 _).1 ⟨?_, ?_, fun n => ?_⟩).symm
  · simp only [List.forall_mem_cons]
    decide
  · decide
  · have hnone : ¬ Covers [] n := fun ⟨_, hr, _⟩ => List.not_mem_nil hr
    simp only [covers_cons, Has, hnone, or_false]
    omega

end SymbolContext.LineRange
