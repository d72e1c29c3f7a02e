import SymbolContext.Proofs.Excerpt.Merge
import SymbolContext.Query.References

/-!
# The lines that an excerpt shows

`layout` prints lines of a text by their numbers: each with its number in front, and a mark where
the next number does not follow the last one. It knows of no ranges.

* `excerptAfter_eq`: an excerpt prints the numbers of its ranges, in their order.
* `pairwise_numbers`, `mem_numbers`: for ranges in normal form **these ascend, and are the lines
  covered**.
* `excerpt_shows_near_lines`: so a file with references is shown with **the lines near a reference,
  each once, in order, and a mark exactly where lines are left out**.
-/

namespace SymbolContext.Excerpt

/-- What stands before the line `n`, if `shown` is the line printed last. -/
def markBefore (shown : Option Nat) (n : Nat) : String :=
  match shown with
  | none => ""
  | some last => if last + 1 < n then "...\n" else ""

/-- The lines with some numbers, counted from one, after the line `shown`. -/
def layoutAfter (lines : List String) (shown : Option Nat) : List Nat → String
  | [] => ""
  | n :: rest =>
    markBefore shown n ++ (Decimal.text n ++ "|" ++ (lines[n - 1]?).getD "" ++ "\n") ++
      layoutAfter lines (some n) rest

/-- The lines with some numbers, counted from one. -/
def layout (lines : List String) (numbers : List Nat) : String := layoutAfter lines none numbers

/-- The numbers of the lines of a range. -/
def numbers (r : LineRange) : List Nat := List.range' r.first (r.last + 1 - r.first)

theorem row_zero (n : Nat) (line : String) :
    row 0 n line = Decimal.text n ++ "|" ++ line ++ "\n" := by
  simp [row, padLeft, Decimal.text]

section
variable {lines : List String}

theorem layoutAfter_cons {n : Nat} (hn : n < lines.length) (shown : Option Nat) (more : List Nat) :
    layoutAfter lines shown ((n + 1) :: more) =
      markBefore shown (n + 1) ++ row 0 (n + 1) lines[n] ++
        layoutAfter lines (some (n + 1)) more := by
  have hline : lines[n + 1 - 1]? = some lines[n] := List.getElem?_eq_getElem hn
  rw [layoutAfter, hline, Option.getD_some, row_zero]

theorem rows_drop {width n : Nat} (hn : n < lines.length) (k : Nat) :
    rows width (n + 1) ((lines.drop n).take (k + 1)) =
      row width (n + 1) lines[n] ++ rows width (n + 1 + 1) ((lines.drop (n + 1)).take k) := by
  rw [List.drop_eq_getElem_cons hn, List.take_succ_cons, rows]

/-- Consecutive lines have no mark between them. -/
theorem layoutAfter_run {n k : Nat} (h : n + k ≤ lines.length) (more : List Nat) :
    layoutAfter lines (some n) (List.range' (n + 1) k ++ more) =
      rows 0 (n + 1) ((lines.drop n).take k) ++ layoutAfter lines (some (n + k)) more := by
  induction k generalizing n with
  | zero => simp [rows]
  | succ k ih =>
    have hn : n < lines.length := by omega
    have hmark : markBefore (some n) (n + 1) = "" := if_neg (Nat.lt_irrefl _)
    have hrest := ih (n := n + 1) (by omega)
    rw [List.range'_succ, List.cons_append, layoutAfter_cons hn, rows_drop hn, hmark, hrest,
      String.empty_append, String.append_assoc, Nat.add_right_comm n 1 k, Nat.add_assoc n k 1]

/-- The lines of one range are printed without a mark between them. -/
theorem layoutAfter_numbers {r : LineRange} (hline : 1 ≤ r.first ∧ r.first ≤ r.last)
    (hlast : r.last ≤ lines.length) (shown : Option Nat) (more : List Nat) :
    layoutAfter lines shown (numbers r ++ more) =
      markBefore shown r.first ++ rowsOf lines r ++ layoutAfter lines (some r.last) more := by
  obtain ⟨first, last⟩ := r
  dsimp only at hline hlast
  obtain ⟨n, rfl⟩ : ∃ n, first = n + 1 := ⟨first - 1, by omega⟩
  obtain ⟨k, rfl⟩ : ∃ k, last = n + 1 + k := ⟨last - (n + 1), by omega⟩
  have hn : n < lines.length := by omega
  have hcount : n + 1 + k + 1 - (n + 1) = k + 1 := by omega
  have hfirst : max (n + 1) 1 = n + 1 := by omega
  simp only [numbers, rowsOf, hcount, hfirst, Nat.add_sub_cancel]
  rw [List.range'_succ, List.cons_append, layoutAfter_cons hn, layoutAfter_run hlast, rows_drop hn]
  simp only [String.append_assoc]

theorem gap_eq {shown : Option Nat} {r : LineRange} (h : r.first ≤ Decimal.wordMax) :
    gap shown r = markBefore shown r.first := by
  cases shown with
  | none => rfl
  | some last =>
    have hdown : LineRange.down last 1 < r.first ↔ last + 1 < r.first := by
      rw [← Nat.not_le, LineRange.le_down_one h, Nat.not_le]
    simp only [gap, markBefore, hdown, gapMark]

/-- **An excerpt prints the numbers of its ranges.** -/
theorem excerptAfter_eq (hwords : lines.length ≤ Decimal.wordMax) {ranges : List LineRange}
    (h : ∀ r ∈ ranges, (1 ≤ r.first ∧ r.first ≤ r.last) ∧ r.last ≤ lines.length)
    (shown : Option Nat) :
    excerptAfter lines shown ranges = layoutAfter lines shown (ranges.flatMap numbers) := by
  induction ranges generalizing shown with
  | nil => rfl
  | cons r rest ih =>
    obtain ⟨hline, hlast⟩ := h r List.mem_cons_self
    have hrest := ih (fun x hx => h x (List.mem_cons_of_mem r hx)) (some r.last)
    rw [excerptAfter, List.flatMap_cons, layoutAfter_numbers hline hlast, gap_eq (by omega), hrest]

end

/-! ## The numbers of ranges in normal form -/

theorem mem_numbers {ranges : List LineRange} (h : LineRange.Normal ranges) {n : Nat} :
    n ∈ ranges.flatMap numbers ↔ LineRange.Covers ranges n := by
  rw [List.mem_flatMap]
  refine exists_congr fun r => and_congr_right fun hr => ?_
  have hline := h.lines r hr
  simp only [numbers, List.mem_range'_1, LineRange.Has]
  omega

theorem pairwise_numbers {ranges : List LineRange} (h : LineRange.Normal ranges) :
    (ranges.flatMap numbers).Pairwise (· < ·) := by
  rw [List.pairwise_flatMap]
  refine ⟨fun r _ => List.pairwise_lt_range' , ?_⟩
  refine h.apart.imp fun hapart x hx y hy => ?_
  simp only [numbers, List.mem_range'_1] at hx hy
  omega

end SymbolContext.Excerpt

namespace SymbolContext.Query

variable {m : Type → Type} [Monad m] [LawfulMonad m]

/-- The numbers of the lines that are shown for some references. -/
theorem referenceWindows_numbers (references : List Location) {lines : List String}
    (h : lines.length ≤ Decimal.wordMax) (context : Nat) :
    ∃ numbers : List Nat, numbers.Pairwise (· < ·) ∧
      (∀ n, n ∈ numbers ↔ (1 ≤ n ∧ n ≤ lines.length) ∧ ∃ r ∈ references,
        r.range.start.line + 1 ≤ lines.length ∧
          ((n : Int) - (r.range.start.line + 1)).natAbs ≤ context) ∧
      Excerpt.excerpt lines (referenceWindows references lines context) =
        Excerpt.layout lines numbers := by
  have hnormal : LineRange.Normal (referenceWindows references lines context) :=
    LineRange.normal_windows h
  refine ⟨_, Excerpt.pairwise_numbers hnormal, fun n => ?_, Excerpt.excerptAfter_eq h ?_ none⟩
  · rw [Excerpt.mem_numbers hnormal, referenceWindows, LineRange.covers_windows h]
    refine and_congr_right fun hn => ?_
    simp only [List.mem_map]
    constructor
    · rintro ⟨p, ⟨r, hr, rfl⟩, hin, hnear⟩
      exact ⟨r, hr, hin.2, by omega⟩
    · rintro ⟨r, hr, hin, hnear⟩
      exact ⟨_, ⟨r, hr, rfl⟩, ⟨by omega, hin⟩, by omega⟩
  · intro r hr
    exact ⟨hnormal.lines r hr, LineRange.last_le_of_mem_windows h hr⟩

/-- **A file with references is shown with the lines near a reference.** The numbers ascend, so
each line is printed once, and `Excerpt.layout` puts a mark between two lines exactly where the
numbers do not follow each other. -/
theorem excerpt_shows_near_lines (env : Surroundings m) (context : Nat) (r : Location)
    (rest : List Location) {text : String} (hread : env.readText r.path = pure (.ok text))
    (hsize : (Text.pieces text).length ≤ Decimal.wordMax) :
    ∃ numbers : List Nat, numbers.Pairwise (· < ·) ∧
      (∀ n, n ∈ numbers ↔ (1 ≤ n ∧ n ≤ (Text.pieces text).length) ∧ ∃ l ∈ r :: rest,
        l.range.start.line + 1 ≤ (Text.pieces text).length ∧
          ((n : Int) - (l.range.start.line + 1)).natAbs ≤ context) ∧
      showFile env context (r :: rest) = pure
        ("---\n\n" ++ r.path ++ "\nReferences in File: " ++ Decimal.text (r :: rest).length ++
          "\n" ++
          ("At: " ++ Text.join ", " ((r :: rest).map fun l => l.range.start.label) ++ "\n") ++
          "\n" ++ Excerpt.layout (Text.pieces text) numbers) := by
  obtain ⟨numbers, hascend, hmem, htext⟩ := referenceWindows_numbers (r :: rest) hsize context
  refine ⟨numbers, hascend, hmem, ?_⟩
  rw [← htext]
  exact (congrArg (· >>= _) hread).trans (pure_bind _ _)

/-- References on the first line, twice on the last but one, and behind the end of a text of six
lines: the third line is left out. -/
theorem excerpt_shows_near_lines_gap :
    let env : Surroundings Id :=
      { symbol := fun _ => .ok .null, openFile := fun _ => .ok (), references := fun _ _ => .ok [],
        definition := fun l => .ok ("", l), readText := fun _ => .ok "a\nb\nc\nd\ne\n",
        note := fun _ => () }
    let ref : Nat → Location := fun line => ⟨"/f", .point ⟨line, 0⟩⟩
    (Text.pieces "a\nb\nc\nd\ne\n").length ≤ Decimal.wordMax ∧
      ∃ numbers : List Nat, numbers.Pairwise (· < ·) ∧ 3 ∉ numbers ∧ 4 ∈ numbers ∧
        showFile env 1 [ref 4, ref 0, ref 9, ref 4] = pure
          ("---\n\n/f\nReferences in File: 4\nAt: L5:C1, L1:C1, L10:C1, L5:C1\n\n" ++
            Excerpt.layout (Text.pieces "a\nb\nc\nd\ne\n") numbers) := by
  intro env ref
  have hsize : (Text.pieces "a\nb\nc\nd\ne\n").length ≤ Decimal.wordMax := by decide
  obtain ⟨numbers, hascend, hmem, hshow⟩ :=
    excerpt_shows_near_lines env 1 (ref 4) [ref 0, ref 9, ref 4] rfl hsize
  have hheader : "---\n\n" ++ (ref 4).path ++ "\nReferences in File: " ++
      Decimal.text [ref 4, ref 0, ref 9, ref 4].length ++ "\n" ++ ("At: " ++ Text.join ", "
        ([ref 4, ref 0, ref 9, ref 4].map fun l => l.range.start.label) ++ "\n") ++ "\n" =
      "---\n\n/f\nReferences in File: 4\nAt: L5:C1, L1:C1, L10:C1, L5:C1\n\n" := by
    unfold ref
    decide +kernel
  rw [hheader] at hshow
  refine ⟨hsize, numbers, hascend, ?_, ?_, hshow⟩
  · rw [hmem]
    decide
  · rw [hmem]
    decide

end SymbolContext.Query
