import SymbolContext.Proofs.Excerpt.NormalForm

/-!
# Windows up to the greatest line number

A window is cut off at line one, at the end of the text and at the greatest machine word, and
points outside the text are dropped. None of it is seen in the lines that are covered:

* `windows_congr`: the windows depend on **which lines of the text are points**, and on nothing
  else.
* `Normal.exists_enclosing`: lines without a gap lie in one range of a normal form, so **a range
  only grows with the context** (`exists_wider`).
* `windows_exact`: the windows cover the lines **at most as far from a point as the context says**,
  with the distance taken in the integers.
-/

namespace SymbolContext.LineRange

theorem Normal.exists_enclosing {rs : List LineRange} (h : Normal rs) {first last : Nat}
    (hle : first ≤ last) (hc : ∀ n, first ≤ n → n ≤ last → Covers rs n) :
    ∃ r ∈ rs, r.first ≤ first ∧ last ≤ r.last := by
  obtain ⟨r, hr, hfirst, hreach⟩ := hc first (Nat.le_refl _) hle
  refine ⟨r, hr, hfirst, Nat.le_of_not_lt fun hlt => ?_⟩
  exact h.not_covers_next hr (hc (r.last + 1) (by omega) hlt)

section
variable {points others : List Nat} {total context wider : Nat}

theorem windows_congr (h : total ≤ Decimal.wordMax)
    (hsame : ∀ p, 1 ≤ p → p ≤ total → (p ∈ others ↔ p ∈ points)) :
    windows others total context = windows points total context := by
  refine (normal_windows h).eq_of_covers (normal_windows h) fun n => ?_
  rw [covers_windows h, covers_windows h]
  refine and_congr_right fun _ => exists_congr fun p => ?_
  constructor
  · rintro ⟨hp, hin, hnear⟩
    exact ⟨(hsame p hin.1 hin.2).1 hp, hin, hnear⟩
  · rintro ⟨hp, hin, hnear⟩
    exact ⟨(hsame p hin.1 hin.2).2 hp, hin, hnear⟩

theorem covers_windows_mono (h : total ≤ Decimal.wordMax) (hle : context ≤ wider) {n : Nat}
    (hn : Covers (windows points total context) n) : Covers (windows points total wider) n := by
  obtain ⟨hline, p, hp, hin, hnear⟩ := (covers_windows h n).1 hn
  exact (covers_windows h n).2 ⟨hline, p, hp, hin, by omega⟩

theorem exists_wider (h : total ≤ Decimal.wordMax) (hle : context ≤ wider) {r : LineRange}
    (hr : r ∈ windows points total context) :
    ∃ r' ∈ windows points total wider, r'.first ≤ r.first ∧ r.last ≤ r'.last := by
  have hline := (normal_windows h).lines r hr
  apply (normal_windows h).exists_enclosing hline.2
  intro n hfirst hlast
  exact covers_windows_mono h hle ⟨r, hr, hfirst, hlast⟩

end

/-- **Windows are exact at the limits of machine words.** In a text with as many lines as a word can
count, the windows cover the lines whose distance from a point of the text is at most the context,
and no others, and lie within the text; points outside the text, repeated or in another order make
no difference; and with more context no line is lost, nor is a range cut in two. -/
theorem windows_exact (points : List Nat) {total : Nat} (h : total ≤ Decimal.wordMax)
    (context : Nat) :
    (∀ n, Covers (windows points total context) n ↔ (1 ≤ n ∧ n ≤ total) ∧
      ∃ p ∈ points, (1 ≤ p ∧ p ≤ total) ∧ ((n : Int) - p).natAbs ≤ context) ∧
    (∀ r ∈ windows points total context, 1 ≤ r.first ∧ r.first ≤ r.last ∧ r.last ≤ total) ∧
    (∀ others : List Nat, (∀ p, 1 ≤ p → p ≤ total → (p ∈ others ↔ p ∈ points)) →
      windows others total context = windows points total context) ∧
    (∀ wider, context ≤ wider →
      (∀ n, Covers (windows points total context) n → Covers (windows points total wider) n) ∧
      ∀ r ∈ windows points total context, ∃ r' ∈ windows points total wider,
        r'.first ≤ r.first ∧ r.last ≤ r'.last) := by
  refine ⟨fun n => ?_, fun r hr => ?_, fun others hsame => windows_congr h hsame,
    fun wider hle => ⟨fun n hn => covers_windows_mono h hle hn, fun r hr => exists_wider h hle hr⟩⟩
  · have hdistance : ∀ p : Nat, ((n : Int) - p).natAbs ≤ context ↔
        n ≤ p + context ∧ p ≤ n + context := by omega
    simp only [covers_windows h, hdistance]
  · have hline := (normal_windows h).lines r hr
    exact ⟨hline.1, hline.2, last_le_of_mem_windows h hr⟩

/-- A text of the greatest length with a point on its last line: the context that reaches line two
does not reach line one, and one more does. -/
theorem windows_exact_greatest :
    let last := Decimal.wordMax
    last ≤ Decimal.wordMax ∧
      (∀ n, Covers (windows [0, last, last] last (last - 2)) n ↔ 2 ≤ n ∧ n ≤ last) ∧
      (∀ n, Covers (windows [last] last (last - 1)) n ↔ 1 ≤ n ∧ n ≤ last) ∧
      windows [0, last, last] last (last - 2) = windows [last] last (last - 2) := by
  intro last
  have hmax : 2 ≤ last := by decide
  have hle : last ≤ Decimal.wordMax := Nat.le_refl _
  refine ⟨hle, fun n => ?_, fun n => ?_, ?_⟩
  · rw [(windows_exact [0, last, last] hle (last - 2)).1 n]
    simp only [List.mem_cons, List.not_mem_nil, or_false, exists_eq_or_imp, exists_eq_left]
    omega
  · rw [(windows_exact [last] hle (last - 1)).1 n]
    simp only [List.mem_singleton, exists_eq_left]
    omega
  · refine (windows_exact [last] hle (last - 2)).2.2.1 [0, last, last] fun p hp _ => ?_
    simp only [List.mem_cons, List.not_mem_nil, or_false]
    omega

end SymbolContext.LineRange
