import SymbolContext.Excerpt.LineRange

/-!
# Merged ranges

A list of ranges stands for the lines it covers (`Covers`). Merging sorts the ranges by their
first line and joins neighbours, so what it goes through is a list in order (`Ordered`), and what
it gives is a list in normal form (`Normal`).

* `covers_coalesce`, `normal_coalesce`: **joining neighbours keeps the lines and leaves a gap
  between any two ranges**; both follow the recursion of `coalesce`, whose current range stands
  for all that has been joined to it.
* `covers_merge`, `normal_merge`: the same of `merge`, for ranges of machine words.
* `covers_windows`, `last_le_of_mem_windows`: the windows of a text cover **the lines near a point
  of the text**, and end within it.
-/

namespace SymbolContext.LineRange

/-- A line is one of the range. -/
def Has (r : LineRange) (n : Nat) : Prop := r.first ≤ n ∧ n ≤ r.last

/-- A line is one of some ranges. -/
def Covers (rs : List LineRange) (n : Nat) : Prop := ∃ r ∈ rs, r.Has n

/-- Ascending, without line zero, none empty, and with a line between neighbours. -/
structure Normal (rs : List LineRange) : Prop where
  lines : ∀ r ∈ rs, 1 ≤ r.first ∧ r.first ≤ r.last
  apart : rs.Pairwise fun a b => a.last + 1 < b.first

/-- In the order of the first lines, without line zero, none empty, and of machine words. -/
structure Ordered (rs : List LineRange) : Prop where
  lines : ∀ r ∈ rs, 1 ≤ r.first ∧ r.first ≤ r.last
  words : ∀ r ∈ rs, r.first ≤ Decimal.wordMax
  ascending : rs.Pairwise fun a b => a.first ≤ b.first

/-! ## Covered lines -/

theorem covers_cons {r : LineRange} {rs : List LineRange} {n : Nat} :
    Covers (r :: rs) n ↔ r.Has n ∨ Covers rs n := by
  simp [Covers]

/-- Machine words do not notice that adding to the greatest one stops. -/
theorem le_down_one {n k : Nat} (h : n ≤ Decimal.wordMax) : n ≤ down k 1 ↔ n ≤ k + 1 := by
  unfold down
  omega

/-! ## Joining neighbours -/

/-- Two ranges as one. -/
def join (a b : LineRange) : LineRange := ⟨a.first, max a.last b.last⟩

section
variable {current r : LineRange} {rest : List LineRange}

theorem Ordered.tail (h : Ordered (r :: rest)) : Ordered rest where
  lines := fun x hx => h.lines x (List.mem_cons_of_mem r hx)
  words := fun x hx => h.words x (List.mem_cons_of_mem r hx)
  ascending := (List.pairwise_cons.1 h.ascending).2

theorem Ordered.join (h : Ordered (current :: r :: rest)) : Ordered (current.join r :: rest) := by
  obtain ⟨hfirst, hrest⟩ := List.pairwise_cons.1 h.ascending
  have hc := h.lines current List.mem_cons_self
  refine ⟨?_, ?_, ?_⟩
  · intro x hx
    rcases List.mem_cons.1 hx with rfl | hx
    · simp only [LineRange.join]
      omega
    · exact h.tail.tail.lines x hx
  · intro x hx
    rcases List.mem_cons.1 hx with rfl | hx
    · exact h.words current List.mem_cons_self
    · exact h.tail.tail.words x hx
  · exact List.pairwise_cons.2
      ⟨fun x hx => hfirst x (List.mem_cons_of_mem r hx), h.tail.tail.ascending⟩

/-- Where the second of two ranges begins in the first or right behind it, no line lies between
them. -/
theorem has_join (h : Ordered (current :: r :: rest)) (htouch : r.first ≤ down current.last 1)
    {n : Nat} : (current.join r).Has n ↔ current.Has n ∨ r.Has n := by
  have hr : r ∈ current :: r :: rest := List.mem_cons_of_mem current List.mem_cons_self
  have hnext := (le_down_one (h.words r hr)).1 htouch
  have hfirst := (List.pairwise_cons.1 h.ascending).1 r List.mem_cons_self
  have hc := h.lines current List.mem_cons_self
  have hrl := h.lines r hr
  simp only [Has, LineRange.join]
  omega

/-- **Joining neighbours keeps the lines.** -/
theorem covers_coalesce (h : Ordered (current :: rest)) (n : Nat) :
    Covers (coalesce current rest) n ↔ Covers (current :: rest) n := by
  fun_induction coalesce current rest with
  | case1 current => rfl
  | case2 current r rest htouch ih =>
    rw [ih h.join, covers_cons, covers_cons, covers_cons, ← or_assoc]
    exact or_congr_left (has_join h htouch)
  | case3 current r rest _ ih => rw [covers_cons, ih h.tail, ← covers_cons]

theorem first_le_of_mem_coalesce (h : Ordered (current :: rest)) :
    ∀ x ∈ coalesce current rest, current.first ≤ x.first := by
  fun_induction coalesce current rest with
  | case1 current => simp
  | case2 current r rest _ ih => exact ih h.join
  | case3 current r rest _ ih =>
    have hfirst := (List.pairwise_cons.1 h.ascending).1 r List.mem_cons_self
    intro x hx
    rcases List.mem_cons.1 hx with rfl | hx
    · exact Nat.le_refl _
    · exact Nat.le_trans hfirst (ih h.tail x hx)

/-- **Joining neighbours leaves a line between any two ranges.** -/
theorem normal_coalesce (h : Ordered (current :: rest)) : Normal (coalesce current rest) := by
  fun_induction coalesce current rest with
  | case1 current => exact ⟨h.lines, List.pairwise_singleton _ _⟩
  | case2 current r rest _ ih => exact ih h.join
  | case3 current r rest hapart ih =>
    have hr : r ∈ current :: r :: rest := List.mem_cons_of_mem current List.mem_cons_self
    have hgap : current.last + 1 < r.first := by
      rw [le_down_one (h.words r hr)] at hapart
      omega
    obtain ⟨hlines, hpairs⟩ := ih h.tail
    refine ⟨?_, ?_⟩
    · intro x hx
      rcases List.mem_cons.1 hx with rfl | hx
      · exact h.lines _ List.mem_cons_self
      · exact hlines x hx
    · refine List.pairwise_cons.2 ⟨fun x hx => ?_, hpairs⟩
      exact Nat.lt_of_lt_of_le hgap (first_le_of_mem_coalesce h.tail x hx)

end

/-! ## Merging -/

theorem before_iff {a b : LineRange} :
    before a b = true ↔ a.first < b.first ∨ (a.first = b.first ∧ a.last ≤ b.last) := by
  simp [before]

/-- The ranges that are joined, in their order. -/
def sorted (ranges : List LineRange) : List LineRange :=
  ((ranges.map fromOne).filter hasLine).mergeSort before

theorem merge_eq (ranges : List LineRange) : merge ranges = coalesceAll (sorted ranges) := rfl

theorem mem_sorted {ranges : List LineRange} {x : LineRange} :
    x ∈ sorted ranges ↔ (∃ r ∈ ranges, r.fromOne = x) ∧ x.first ≤ x.last := by
  simp [sorted, hasLine]

theorem ordered_sorted {ranges : List LineRange} (h : ∀ r ∈ ranges, r.first ≤ Decimal.wordMax) :
    Ordered (sorted ranges) := by
  have hone : 1 ≤ Decimal.wordMax := by decide
  refine ⟨?_, ?_, ?_⟩
  · intro x hx
    obtain ⟨⟨r, -, rfl⟩, hline⟩ := mem_sorted.1 hx
    exact ⟨Nat.le_max_right _ _, hline⟩
  · intro x hx
    obtain ⟨⟨r, hr, rfl⟩, -⟩ := mem_sorted.1 hx
    exact Nat.max_le.2 ⟨h r hr, hone⟩
  · have hsorted : (sorted ranges).Pairwise fun a b => before a b = true :=
      List.pairwise_mergeSort (fun a b c hab hbc => by rw [before_iff] at *; omega)
        (fun a b => by rw [Bool.or_eq_true, before_iff, before_iff]; omega) _
    refine hsorted.imp fun hab => ?_
    rw [before_iff] at hab
    omega

theorem covers_sorted {ranges : List LineRange} {n : Nat} :
    Covers (sorted ranges) n ↔ 1 ≤ n ∧ Covers ranges n := by
  constructor
  · rintro ⟨x, hx, hfirst, hlast⟩
    obtain ⟨⟨r, hr, rfl⟩, -⟩ := mem_sorted.1 hx
    simp only [fromOne] at hfirst hlast
    exact ⟨by omega, r, hr, by omega, hlast⟩
  · rintro ⟨hn, r, hr, hfirst, hlast⟩
    have hline : r.fromOne.Has n := by
      simp only [Has, fromOne]
      omega
    exact ⟨r.fromOne, mem_sorted.2 ⟨⟨r, hr, rfl⟩, Nat.le_trans hline.1 hline.2⟩, hline⟩

/-- **Merging keeps the lines from one on.** -/
theorem covers_merge {ranges : List LineRange} (h : ∀ r ∈ ranges, r.first ≤ Decimal.wordMax)
    (n : Nat) : Covers (merge ranges) n ↔ 1 ≤ n ∧ Covers ranges n := by
  have hordered := ordered_sorted h
  rw [merge_eq, ← covers_sorted]
  cases hs : sorted ranges with
  | nil => rfl
  | cons r rest => exact covers_coalesce (hs ▸ hordered) n

/-- **Merging gives a normal form.** -/
theorem normal_merge {ranges : List LineRange} (h : ∀ r ∈ ranges, r.first ≤ Decimal.wordMax) :
    Normal (merge ranges) := by
  have hordered := ordered_sorted h
  rw [merge_eq]
  cases hs : sorted ranges with
  | nil => exact ⟨fun _ hr => absurd hr List.not_mem_nil, List.Pairwise.nil⟩
  | cons r rest => exact normal_coalesce (hs ▸ hordered)

/-! ## Windows -/

section
variable {points : List Nat} {total context : Nat}

/-- The windows before they are merged. -/
def windowList (points : List Nat) (total context : Nat) : List LineRange :=
  (points.filter fun p => 1 ≤ p ∧ p ≤ total).map fun p => around p context total

theorem first_le_of_mem_windowList (h : total ≤ Decimal.wordMax) :
    ∀ r ∈ windowList points total context, r.first ≤ Decimal.wordMax := by
  intro r hr
  obtain ⟨p, hp, rfl⟩ := List.mem_map.1 hr
  have hin := of_decide_eq_true (List.mem_filter.1 hp).2
  simp only [around]
  omega

/-- Within a text, the end of a window is where adding does not stop. -/
theorem has_around {p n : Nat} (h : total ≤ Decimal.wordMax) (hn : 1 ≤ n) :
    (around p context total).Has n ↔ n ≤ total ∧ n ≤ p + context ∧ p ≤ n + context := by
  simp only [Has, around, down]
  omega

/-- **The windows of a text cover the lines near a point of the text.** -/
theorem covers_windows (h : total ≤ Decimal.wordMax) (n : Nat) :
    Covers (windows points total context) n ↔ (1 ≤ n ∧ n ≤ total) ∧
      ∃ p ∈ points, (1 ≤ p ∧ p ≤ total) ∧ n ≤ p + context ∧ p ≤ n + context := by
  have hwords : ∀ r ∈ windowList points total context, r.first ≤ Decimal.wordMax :=
    first_le_of_mem_windowList h
  show Covers (merge (windowList points total context)) n ↔ _
  rw [covers_merge hwords, and_assoc]
  refine and_congr_right fun hn => ?_
  constructor
  · rintro ⟨r, hr, hhas⟩
    obtain ⟨p, hp, rfl⟩ := List.mem_map.1 hr
    obtain ⟨hmem, hin⟩ := List.mem_filter.1 hp
    obtain ⟨htotal, hnear⟩ := (has_around h hn).1 hhas
    exact ⟨htotal, p, hmem, of_decide_eq_true hin, hnear⟩
  · rintro ⟨htotal, p, hp, hin, hnear⟩
    refine ⟨around p context total, ?_, (has_around h hn).2 ⟨htotal, hnear⟩⟩
    exact List.mem_map.2 ⟨p, List.mem_filter.2 ⟨hp, decide_eq_true hin⟩, rfl⟩

theorem normal_windows (h : total ≤ Decimal.wordMax) : Normal (windows points total context) :=
  normal_merge (first_le_of_mem_windowList h)

/-- The windows of a text end within it. -/
theorem last_le_of_mem_windows (h : total ≤ Decimal.wordMax) {r : LineRange}
    (hr : r ∈ windows points total context) : r.last ≤ total := by
  have hline := (normal_windows h).lines r hr
  exact ((covers_windows h r.last).1 ⟨r, hr, hline.2, Nat.le_refl _⟩).1.2

end

end SymbolContext.LineRange
