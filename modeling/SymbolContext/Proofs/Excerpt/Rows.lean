import SymbolContext.Excerpt.Numbered
import SymbolContext.Proofs.Excerpt.Merge
import SymbolContext.Proofs.Text.Decimal
import SymbolContext.Proofs.Text.Lines

/-!
# Reading rows back

A reader of a numbered text cuts it at its newlines and each row at its first bar. What stands
before the bar is a number behind some blanks, and what stands after it is the line: `Shows`. No
line holds a newline, and no number holds a bar, so

* `row_inj`: **a row has one number and one line**, however wide it is;
* `shows_rows_append`, `shows_excerpt`: numbered lines show **the lines they were made from and
  nothing else**, and marks between them show nothing.
-/

namespace SymbolContext.Excerpt

/-- One of the rows of `shown` is a number `n`, behind some blanks, and a line. -/
def Shows (shown : String) (n : Nat) (line : String) : Prop :=
  ∃ k, String.ofList (List.replicate k ' ' ++ Decimal.digits n) ++ "|" ++ line ∈ Text.pieces shown

/-! ## One row -/

theorem notMem_label {c : Char} (hblank : c ≠ ' ') (hdigit : c.isDigit = false) (k n : Nat) :
    c ∉ List.replicate k ' ' ++ Decimal.digits n := by
  intro h
  rcases List.mem_append.1 h with h | h
  · exact hblank (List.eq_of_mem_replicate h)
  · rw [Decimal.isDigit_of_mem_digits h] at hdigit
    cases hdigit

theorem label_inj {j k m n : Nat}
    (h : List.replicate j ' ' ++ Decimal.digits m = List.replicate k ' ' ++ Decimal.digits n) :
    m = n := by
  have hdrop : ∀ k n, (List.replicate k ' ' ++ Decimal.digits n).dropWhile (· = ' ') =
      Decimal.digits n := by
    intro k n
    have hstart : (Decimal.digits n).dropWhile (· = ' ') = Decimal.digits n := by
      obtain ⟨d, ds, hd⟩ := List.exists_cons_of_ne_nil (Decimal.digits_ne_nil n)
      have hdigit := Decimal.isDigit_of_mem_digits (hd ▸ List.mem_cons_self : d ∈ Decimal.digits n)
      have hne : d ≠ ' ' := by
        rintro rfl
        cases hdigit
      simp [hd, hne]
    simp [hstart]
  apply Decimal.digits_inj
  rw [← hdrop j m, h, hdrop]

/-- **A row has one number and one line.** -/
theorem row_inj {j k m n : Nat} {line line' : String}
    (h : String.ofList (List.replicate j ' ' ++ Decimal.digits m) ++ "|" ++ line =
      String.ofList (List.replicate k ' ' ++ Decimal.digits n) ++ "|" ++ line') :
    m = n ∧ line = line' := by
  have hbar : ∀ k n, '|' ∉ List.replicate k ' ' ++ Decimal.digits n :=
    notMem_label (by decide) (by decide)
  have hchars : (List.replicate j ' ' ++ Decimal.digits m) ++ '|' :: line.toList =
      (List.replicate k ' ' ++ Decimal.digits n) ++ '|' :: line'.toList := by
    simpa using congrArg String.toList h
  have hcut := congrArg (Text.splitAtChar '|') hchars
  rw [Text.splitAtChar_append (hbar j m), Text.splitAtChar_append (hbar k n)] at hcut
  have hlabel := (List.cons.inj hcut).1
  rw [hlabel] at hchars
  have hline := List.append_cancel_left hchars
  exact ⟨label_inj hlabel, String.toList_inj.1 (List.cons.inj hline).2⟩

/-! ## Rows -/

section
variable {n : Nat} {line : String}

theorem not_shows_empty : ¬ Shows "" n line := by
  rintro ⟨k, h⟩
  simp [Text.pieces, Text.splitAtChar] at h

/-- A line of a text that has no bar in it is no row. -/
theorem shows_append_of_noBar {other rest : String} (hline : '\n' ∉ other.toList)
    (hbar : '|' ∉ other.toList) : Shows (other ++ "\n" ++ rest) n line ↔ Shows rest n line := by
  unfold Shows
  rw [Text.pieces_line hline]
  refine exists_congr fun k => ?_
  rw [List.mem_cons]
  refine or_iff_right fun h => hbar ?_
  rw [← h]
  simp

/-- A row is one line of what is shown. -/
theorem pieces_row_append {width m : Nat} {text : String} (htext : '\n' ∉ text.toList)
    (rest : String) :
    Text.pieces (row width m text ++ rest) =
      (String.ofList (padLeft width (Decimal.digits m)) ++ "|" ++ text) :: Text.pieces rest := by
  have hnewline :
      '\n' ∉ (String.ofList (padLeft width (Decimal.digits m)) ++ "|" ++ text).toList := by
    have hlabel := notMem_label (c := '\n') (by decide) (by decide)
      (width - (Decimal.digits m).length) m
    simp [padLeft] at hlabel ⊢
    exact ⟨hlabel, htext⟩
  exact Text.pieces_line hnewline rest

theorem shows_row_append {width m : Nat} {text rest : String} (htext : '\n' ∉ text.toList) :
    Shows (row width m text ++ rest) n line ↔ (n = m ∧ line = text) ∨ Shows rest n line := by
  unfold Shows
  rw [pieces_row_append htext]
  simp only [List.mem_cons, exists_or]
  refine or_congr_left ⟨?_, ?_⟩
  · rintro ⟨k, h⟩
    exact row_inj h
  · rintro ⟨rfl, rfl⟩
    exact ⟨width - (Decimal.digits n).length, rfl⟩

/-- **Numbered lines show these lines.** -/
theorem shows_rows_append {width start : Nat} {lines : List String} {rest : String}
    (hlines : ∀ l ∈ lines, '\n' ∉ l.toList) :
    Shows (rows width start lines ++ rest) n line ↔
      (start ≤ n ∧ lines[n - start]? = some line) ∨ Shows rest n line := by
  induction lines generalizing start with
  | nil => simp [rows]
  | cons l lines ih =>
    obtain ⟨hl, hrest⟩ := List.forall_mem_cons.1 hlines
    rw [rows, String.append_assoc, shows_row_append hl, ih hrest, ← or_assoc]
    refine or_congr_left ?_
    rcases Nat.lt_trichotomy n start with hlt | rfl | hlt
    · simp only [Nat.ne_of_lt hlt, false_and, false_or]
      omega
    · have hnext : ¬ n + 1 ≤ n := Nat.not_succ_le_self n
      simp [hnext, eq_comm]
    · have hindex : n - start = n - (start + 1) + 1 := by omega
      rw [hindex, List.getElem?_cons_succ]
      simp only [Nat.ne_of_gt hlt, false_and, false_or]
      exact and_congr_left fun _ => by omega

theorem shows_numberText_append {text rest : String} {start : Nat} :
    Shows (numberText text start ++ rest) n line ↔
      (start ≤ n ∧ (Text.pieces text)[n - start]? = some line) ∨ Shows rest n line :=
  shows_rows_append fun _ hl => Text.newline_notMem_pieces hl

/-! ## Excerpts -/

theorem shows_rowsOf_append {lines : List String} (hlines : ∀ l ∈ lines, '\n' ∉ l.toList)
    {r : LineRange} {rest : String} :
    Shows (rowsOf lines r ++ rest) n line ↔
      ((1 ≤ n ∧ r.Has n) ∧ lines[n - 1]? = some line) ∨ Shows rest n line := by
  rw [rowsOf, shows_rows_append fun l hl => hlines l (List.mem_of_mem_drop (List.mem_of_mem_take hl))]
  refine or_congr_left ?_
  rw [List.getElem?_take, List.getElem?_drop]
  have hindex : max r.first 1 ≤ n → max r.first 1 - 1 + (n - max r.first 1) = n - 1 := by omega
  constructor
  · rintro ⟨hfirst, h⟩
    split at h
    · rename_i hlast
      rw [hindex hfirst] at h
      simp only [LineRange.Has]
      exact ⟨by omega, h⟩
    · cases h
  · rintro ⟨⟨hn, hfirst, hlast⟩, h⟩
    have hstart : max r.first 1 ≤ n := by omega
    rw [if_pos (by omega), hindex hstart]
    exact ⟨hstart, h⟩

theorem shows_gap_append {shownTo : Option Nat} {r : LineRange} {rest : String} :
    Shows (gap shownTo r ++ rest) n line ↔ Shows rest n line := by
  have hmark : gapMark = "..." ++ "\n" := by decide
  cases shownTo with
  | none => simp [gap]
  | some last =>
    rw [gap]
    split
    · rw [hmark, shows_append_of_noBar (by decide) (by decide)]
    · simp

/-- **An excerpt shows the lines of its ranges**, as far as the text has them. -/
theorem shows_excerpt {lines : List String} (hlines : ∀ l ∈ lines, '\n' ∉ l.toList)
    {ranges : List LineRange} :
    Shows (excerpt lines ranges) n line ↔
      (1 ≤ n ∧ LineRange.Covers ranges n) ∧ lines[n - 1]? = some line := by
  unfold excerpt
  generalize none = shownTo
  induction ranges generalizing shownTo with
  | nil => simp [excerptAfter, not_shows_empty, LineRange.Covers]
  | cons r ranges ih =>
    rw [excerptAfter, String.append_assoc, shows_gap_append, shows_rowsOf_append hlines, ih,
      LineRange.covers_cons, and_or_left, or_and_right]

end

end SymbolContext.Excerpt
