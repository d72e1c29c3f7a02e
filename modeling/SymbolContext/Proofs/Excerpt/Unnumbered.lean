import SymbolContext.Proofs.Excerpt.Rows

/-!
# Taking line numbers off again

Every row of a numbered text is cut at its first bar, into a label and a content. No label holds a
bar, so

* `label_row`, `content_row`: the label is **the number behind some blanks** and the content is
  **the line**, even if the line has bars of its own;
* `length_digits_mono`: no number is wider than a greater one, so **all labels are as wide as the
  last number**;
* `numberText_undone`: the contents are the text again, and **the numbered text says which text it
  is and where its numbers begin**.
-/

namespace SymbolContext.Excerpt

/-- What stands before the first bar. -/
def label (row : String) : List Char := row.toList.takeWhile (· ≠ '|')

/-- What stands after the first bar. -/
def content (row : String) : String :=
  String.ofList ((row.toList.dropWhile (· ≠ '|')).drop 1)

/-- A row without the newline that ends it. -/
def rowText (width n : Nat) (line : String) : String :=
  String.ofList (padLeft width (Decimal.digits n)) ++ "|" ++ line

/-! ## One row -/

section
variable (width n : Nat) (line : String)

theorem ne_bar_of_mem_padLeft :
    ∀ c ∈ padLeft width (Decimal.digits n), decide (c ≠ '|') = true := by
  intro c hc
  have hbar := notMem_label (c := '|') (by decide) (by decide) (width - (Decimal.digits n).length) n
  apply decide_eq_true
  intro he
  exact hbar (he ▸ hc)

theorem toList_rowText :
    (rowText width n line).toList = padLeft width (Decimal.digits n) ++ '|' :: line.toList := by
  simp [rowText]

theorem label_row : label (rowText width n line) = padLeft width (Decimal.digits n) := by
  rw [label, toList_rowText, List.takeWhile_append_of_pos (ne_bar_of_mem_padLeft width n)]
  simp

theorem content_row : content (rowText width n line) = line := by
  rw [content, toList_rowText, List.dropWhile_append_of_pos (ne_bar_of_mem_padLeft width n)]
  simp

end

theorem length_digits_mono {m n : Nat} (h : m ≤ n) :
    (Decimal.digits m).length ≤ (Decimal.digits n).length := by
  have hpos : 0 < (Decimal.digits n).length := List.length_pos_iff.2 (Decimal.digits_ne_nil n)
  have hn := (Nat.length_toDigits_le_iff (by decide) hpos).1 (Nat.le_refl (Decimal.digits n).length)
  exact (Nat.length_toDigits_le_iff (by decide) hpos).2 (Nat.lt_of_le_of_lt h hn)

theorem length_padLeft {width : Nat} {cs : List Char} (h : cs.length ≤ width) :
    (padLeft width cs).length = width := by
  simp [padLeft]
  omega

/-! ## All rows -/

/-- The rows of some lines, with numbers from `n` on. -/
def rowTexts (width n : Nat) : List String → List String
  | [] => []
  | line :: rest => rowText width n line :: rowTexts width (n + 1) rest

section
variable {width n : Nat} {lines : List String}

theorem pieces_rows (h : ∀ l ∈ lines, '\n' ∉ l.toList) :
    Text.pieces (rows width n lines) = rowTexts width n lines ++ [""] := by
  induction lines generalizing n with
  | nil => rfl
  | cons line rest ih =>
    obtain ⟨hline, hrest⟩ := List.forall_mem_cons.1 h
    rw [rows, pieces_row_append hline, ih hrest]
    rfl

theorem getElem?_rowTexts (i : Nat) :
    (rowTexts width n lines)[i]? = lines[i]?.map (rowText width (n + i)) := by
  induction lines generalizing n i with
  | nil => rfl
  | cons line rest ih =>
    cases i with
    | zero => rfl
    | succ i => simp [rowTexts, ih, Nat.add_assoc, Nat.add_comm 1]

@[simp] theorem length_rowTexts : (rowTexts width n lines).length = lines.length := by
  induction lines generalizing n with
  | nil => rfl
  | cons line rest ih => simp [rowTexts, ih]

theorem map_content_rowTexts : (rowTexts width n lines).map content = lines := by
  induction lines generalizing n with
  | nil => rfl
  | cons line rest ih => simp [rowTexts, content_row, ih]

/-- A row in its place, if the numbers are no wider than the last of them. -/
theorem label_of_mem_rowTexts {i : Nat} {row : String}
    (hwidth : width = (Decimal.digits (n + (lines.length - 1))).length)
    (h : (rowTexts width n lines)[i]? = some row) :
    '|' ∈ row.toList ∧ (label row).length = width ∧
      ∃ k, label row = List.replicate k ' ' ++ Decimal.digits (n + i) := by
  rw [getElem?_rowTexts, Option.map_eq_some_iff] at h
  obtain ⟨line, hline, hrow⟩ := h
  subst hrow
  have hi : i < lines.length := (List.getElem?_eq_some_iff.1 hline).1
  have hle : (Decimal.digits (n + i)).length ≤ width := by
    rw [hwidth]
    exact length_digits_mono (by omega)
  refine ⟨by simp [toList_rowText], ?_, ?_⟩
  · rw [label_row, length_padLeft hle]
  · exact ⟨_, label_row width (n + i) line⟩

end

/-! ## The numbered text -/

/-- The width of all labels. -/
def widthOf (text : String) (start : Nat) : Nat :=
  (Decimal.digits (start + ((Text.pieces text).length - 1))).length

theorem pieces_numberText (text : String) (start : Nat) :
    Text.pieces (numberText text start) =
      rowTexts (widthOf text start) start (Text.pieces text) ++ [""] :=
  pieces_rows fun _ hl => Text.newline_notMem_pieces hl

theorem numberText_inj {text text' : String} {start start' : Nat}
    (h : numberText text start = numberText text' start') : text = text' ∧ start = start' := by
  have hrows := congrArg Text.pieces h
  rw [pieces_numberText, pieces_numberText] at hrows
  replace hrows := List.append_cancel_right hrows
  have hlines : Text.pieces text = Text.pieces text' := by
    simpa [map_content_rowTexts] using congrArg (List.map content) hrows
  refine ⟨by rw [← Text.join_pieces text, hlines, Text.join_pieces], ?_⟩
  -- there is a first row, and its label is the first number
  obtain ⟨line, rest, hcons⟩ : ∃ line rest, Text.pieces text = line :: rest := by
    apply List.exists_cons_of_ne_nil
    simpa [Text.pieces] using Text.splitAtChar_ne_nil '\n' text.toList
  rw [← hlines, hcons] at hrows
  obtain ⟨hfirst, -⟩ := List.cons.inj hrows
  have hlabel := congrArg label hfirst
  rw [label_row, label_row] at hlabel
  exact label_inj hlabel

/-- **Line numbers can be taken off again.** A numbered text has one row for each line, ended by a
newline. What stands before the first bar of a row is its number behind blanks, as wide as the
last number; what stands after it is the line. So there is only one text with this start that
gives these rows. -/
theorem numberText_undone (text : String) (start : Nat) :
    (∃ rows, Text.pieces (numberText text start) = rows ++ [""] ∧
      rows.length = (Text.pieces text).length ∧
      (∀ i row, rows[i]? = some row → '|' ∈ row.toList ∧
        (label row).length = (Decimal.digits (start + (rows.length - 1))).length ∧
        ∃ k, label row = List.replicate k ' ' ++ Decimal.digits (start + i)) ∧
      Text.join "\n" (rows.map content) = text) ∧
    ∀ text' start', numberText text' start' = numberText text start ↔
      text' = text ∧ start' = start := by
  refine ⟨⟨rowTexts (widthOf text start) start (Text.pieces text), pieces_numberText text start,
    length_rowTexts, ?_, ?_⟩, ?_⟩
  · intro i row hrow
    rw [length_rowTexts]
    exact label_of_mem_rowTexts rfl hrow
  · rw [map_content_rowTexts, Text.join_pieces]
  · intro text' start'
    constructor
    · exact numberText_inj
    · intro h
      rw [h.1, h.2]

end SymbolContext.Excerpt
