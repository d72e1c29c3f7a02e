import Mathlib.Algebra.Group.Nat.Defs
import SymbolContext.Proofs.Definition.Innermost
import SymbolContext.Proofs.Excerpt.Shown
import SymbolContext.Proofs.Text.Lines

/-!
# Definitions stay in place

A definition is taken from a text by the numbers of its lines and shown with numbers that are
counted from its span. For the two to agree, the span, the text and the numbers have to move
together through the choice of a symbol and the search for a closing bracket.

* `extend?_line`: a closing bracket is found below the line it belongs to, and in the text.
* `expand_cases`: **an expansion fails only for a span that ends behind the text; otherwise it takes
  lines that the text has.**
* `rows_slice`: lines of a text with numbers in front are `numbered` by their place in the text.
* `definition_in_place` follows the lines into the block that is shown.
-/

namespace SymbolContext

/-! ## Closing brackets -/

namespace Bracket

theorem scanLines_line {p : Position} : ∀ {lines : List String} {stack : List Char} {line : Nat},
    scanLines stack line lines = some p → line ≤ p.line ∧ p.line < line + lines.length
  | [], _, _, h => by simp [scanLines] at h
  | text :: rest, stack, line, h => by
    unfold scanLines at h
    split at h
    · cases h
      simp
    · have hrest := scanLines_line h
      rw [List.length_cons]
      omega

theorem extend?_line {lines : List String} {i : Nat} {p : Position}
    (h : extend? lines i = some p) : i < p.line ∧ p.line < lines.length := by
  simp only [extend?, Option.bind_eq_bind, Option.bind_eq_some_iff] at h
  obtain ⟨line, hline, last, -, h⟩ := h
  obtain ⟨hi, -⟩ := List.getElem?_eq_some_iff.1 hline
  split at h
  · have hscan := scanLines_line h
    rw [List.length_drop] at hscan
    omega
  · cases h

end Bracket

/-! ## Lines by their numbers -/

namespace Excerpt

/-- The line with the number `n`, counted from one, behind its number; numbers are as wide as
`last`. -/
def numbered (lines : List String) (last n : Nat) : String :=
  String.ofList (List.replicate ((Decimal.digits last).length - (Decimal.digits n).length) ' ') ++
    Decimal.text n ++ "|" ++ (lines[n - 1]?).getD "" ++ "\n"

/-- What stands above the range in the block of a definition. -/
def heading (hit : Hit) (path : String) : String :=
  banner ++ labelled "Symbol" (some hit.name) ++ labelled "File" (some path) ++
    labelled "Kind" (hit.kind?.map SymbolKind.name) ++ labelled "Container Name" hit.container?

theorem row_eq_numbered (lines : List String) (last n : Nat) :
    row (Decimal.digits last).length n ((lines[n - 1]?).getD "") = numbered lines last n := by
  simp [row, numbered, padLeft, Decimal.text, String.ofList_append]

theorem rows_slice {lines : List String} (width : Nat) {first k : Nat}
    (h : first + k ≤ lines.length) :
    rows width (first + 1) ((lines.drop first).take k) =
      Text.join "" ((List.range' (first + 1) k).map fun n =>
        row width n ((lines[n - 1]?).getD "")) := by
  induction k generalizing first with
  | zero => simp [rows, Text.join]
  | succ k ih =>
    have hfirst : first < lines.length := by omega
    have hline : lines[first + 1 - 1]? = some lines[first] := List.getElem?_eq_getElem hfirst
    rw [rows_drop hfirst, ih (by omega), List.range'_succ, List.map_cons, Text.join_empty_cons,
      hline, Option.getD_some]

end Excerpt

namespace Definition

theorem slice_lookup {lines : List String} {first last : Nat} (hlast : last < lines.length) :
    (slice lines first last).map some =
      (List.range' first (last + 1 - first)).map fun k => lines[k]? := by
  apply List.ext_getElem
  · simp [slice]
    omega
  · intro i hi hi'
    simp [slice] at hi
    have hin : first + i < lines.length := by omega
    simp [slice, List.getElem?_eq_getElem hin]

/-! ## What an expansion comes to -/

/-- The range of the innermost symbol around the start of a match, or that of the match. -/
def around (outline : Option Outline) (found : Range) : Range :=
  (outline.bind fun o => innermost? o.ranges found.start).getD found

theorem chosen_eq (outline : Option Outline) (found : Range) :
    chosen outline found = ⟨⟨(around outline found).start.line, 0⟩, (around outline found).stop⟩ := by
  cases outline <;> rfl

/-- The range that is chosen is around the start of the match. -/
theorem around_lines (outline : Option Outline) {found : Range}
    (h : found.start.line ≤ found.stop.line) :
    (around outline found).start.line ≤ found.start.line ∧
      found.start.line ≤ (around outline found).stop.line := by
  cases hr : outline.bind fun o => innermost? o.ranges found.start with
  | none =>
    rw [around, hr, Option.getD_none]
    exact ⟨Nat.le_refl _, h⟩
  | some r =>
    obtain ⟨o, -, ho⟩ := Option.bind_eq_some_iff.1 hr
    obtain ⟨-, hcontains, -⟩ := minimal_of_innermost? ho
    obtain ⟨hstart, hstop⟩ := Range.contains_iff.1 hcontains
    rw [Position.le_iff] at hstart hstop
    rw [around, hr, Option.getD_some]
    omega

section
variable (path text : String) (outline : Option Outline) (location : Location)

theorem expand_cases :
    ((Text.lines text).length ≤ (around outline location.range).stop.line ∧
      expand path text outline location = .error (.lineOutOfRange path
        (around outline location.range).stop.line (Text.lines text).length)) ∨
    ((around outline location.range).stop.line < (Text.lines text).length ∧ ∃ stop : Position,
      (around outline location.range).stop.line ≤ stop.line ∧
      stop.line < (Text.lines text).length ∧
      expand path text outline location = .ok
        (Text.join "\n" (slice (Text.lines text)
          (min (around outline location.range).start.line stop.line) stop.line),
        ⟨path, ⟨⟨(around outline location.range).start.line, 0⟩, stop⟩⟩)) := by
  unfold expand
  rw [chosen_eq]
  generalize around outline location.range = span
  by_cases hend : (Text.lines text).length ≤ span.stop.line
  · exact .inl ⟨hend, by simp [hend]⟩
  · refine .inr ⟨by omega, (Bracket.extend? (Text.lines text) span.stop.line).getD span.stop, ?_⟩
    have hin : span.stop.line ≤
          ((Bracket.extend? (Text.lines text) span.stop.line).getD span.stop).line ∧
        ((Bracket.extend? (Text.lines text) span.stop.line).getD span.stop).line <
          (Text.lines text).length := by
      cases hextend : Bracket.extend? (Text.lines text) span.stop.line with
      | none =>
        rw [Option.getD_none]
        omega
      | some p =>
        have hline := Bracket.extend?_line hextend
        rw [Option.getD_some]
        omega
    exact ⟨hin.1, hin.2, by simp [hend]⟩

end

/-- The lines of a span are read back from the text that they are joined to. -/
theorem pieces_slice {text : String} {first last : Nat} (h : first ≤ last)
    (hlast : last < (Text.lines text).length) :
    Text.pieces (Text.join "\n" (slice (Text.lines text) first last)) =
      slice (Text.lines text) first last := by
  apply Text.pieces_join
  · intro hnil
    have hlength := congrArg List.length hnil
    simp [slice] at hlength
    omega
  · intro line hline
    exact Text.newline_notMem_lines (List.mem_of_mem_drop (List.mem_of_mem_take hline))

end Definition

namespace Excerpt

/-- The lines of a span are numbered by their place in the text. -/
theorem numberText_slice {text : String} {first last : Nat} (h : first ≤ last)
    (hlast : last < (Text.lines text).length) :
    numberText (Text.join "\n" (Definition.slice (Text.lines text) first last)) (first + 1) =
      Text.join "" ((List.range' (first + 1) (last + 1 - first)).map
        (numbered (Text.lines text) (last + 1))) := by
  have hlength : (Definition.slice (Text.lines text) first last).length = last + 1 - first := by
    simp [Definition.slice]
    omega
  have hwidth : first + 1 + (last + 1 - first - 1) = last + 1 := by omega
  rw [numberText, Definition.pieces_slice h hlast]
  simp only [hlength, hwidth]
  rw [Definition.slice, rows_slice _ (by omega)]
  simp only [row_eq_numbered]

/-- The lines of a span that are words are shown in its label as they are counted. -/
theorem ofDefinition_eq (hit : Hit) (body path : String) {start last : Nat} (column : Nat)
    (hstart : start + 1 < 2 ^ 32) (hlast : last + 1 < 2 ^ 32) :
    ofDefinition hit body ⟨path, ⟨⟨start, 0⟩, ⟨last, column⟩⟩⟩ =
      heading hit path ++ "Range: L" ++ Decimal.text (start + 1) ++ ":C1 - L" ++
        Decimal.text (last + 1) ++ ":C" ++ Decimal.text ((column + 1) % 2 ^ 32) ++ "\n\n" ++
        numberText body (start + 1) ++ "\n" := by
  have hcount : Position.shown column = (column + 1) % 2 ^ 32 := rfl
  have hone : Decimal.text (Position.shown 0) = "1" := by rfl
  have hrange : "Range: L" = "Range" ++ ": " ++ "L" := by decide
  have hcolumn : ":C1 - L" = ":C" ++ "1" ++ " - " ++ "L" := by decide
  have hend : "\n\n" = "\n" ++ "\n" := by decide
  rw [hrange, hcolumn, hend, ← hone, ← hcount]
  simp only [ofDefinition, heading, labelled, Range.label, Position.label,
    Position.shown_eq hstart, Position.shown_eq hlast, String.append_assoc]

end Excerpt

namespace Definition

/-- **Text, span and numbers of a definition agree.** An expansion fails exactly if the chosen
range ends behind the text. Otherwise the lines it takes are all in the text; and if the match does
not end before it starts, they are the lines of a span around the match, and the block shows each of
them behind its number in the text, up to the number in the label of the span's end. The label
counts in words of 32 bits, so the text has fewer lines than there are words. -/
theorem definition_in_place (path text : String) (outline : Option Outline)
    (location : Location) :
    (∀ e, expand path text outline location = .error e ↔
      (Text.lines text).length ≤ (around outline location.range).stop.line ∧
        e = .lineOutOfRange path (around outline location.range).stop.line
          (Text.lines text).length) ∧
    ((around outline location.range).stop.line < (Text.lines text).length →
      ∃ (body : String) (rows : List String) (start last column : Nat),
        expand path text outline location =
          .ok (body, ⟨path, ⟨⟨start, 0⟩, ⟨last, column⟩⟩⟩) ∧
        last < (Text.lines text).length ∧
        body = Text.join "\n" rows ∧
        rows.map some =
          (List.range' (min start last) (last + 1 - min start last)).map
            (fun k => (Text.lines text)[k]?) ∧
        (location.range.start.line ≤ location.range.stop.line →
          start ≤ location.range.start.line ∧ location.range.start.line ≤ last ∧
          (Text.pieces body).map some =
            (List.range' start (last + 1 - start)).map (fun k => (Text.lines text)[k]?) ∧
          ((Text.lines text).length < 2 ^ 32 → ∀ hit : Hit,
            Excerpt.ofDefinition hit body ⟨path, ⟨⟨start, 0⟩, ⟨last, column⟩⟩⟩ =
              Excerpt.heading hit path ++ "Range: L" ++ Decimal.text (start + 1) ++ ":C1 - L" ++
                Decimal.text (last + 1) ++ ":C" ++ Decimal.text ((column + 1) % 2 ^ 32) ++
                "\n\n" ++
                Text.join "" ((List.range' (start + 1) (last + 1 - start)).map
                  (Excerpt.numbered (Text.lines text) (last + 1))) ++ "\n"))) := by
  rcases expand_cases path text outline location with ⟨hend, hexpand⟩ |
    ⟨hend, ⟨last, column⟩, hafter, hlast, hexpand⟩
  · rw [hexpand]
    refine ⟨fun e => ?_, fun hin => absurd hin (Nat.not_lt.2 hend)⟩
    simp only [hend, true_and, Except.error.injEq, eq_comm]
  · rw [hexpand]
    refine ⟨fun e => ?_, fun _ => ⟨_, _, _, last, column, rfl, hlast, rfl, slice_lookup hlast, ?_⟩⟩
    · simp only [reduceCtorEq, Nat.not_le.2 hend, false_and]
    · intro hmatch
      obtain ⟨hstart, hstop⟩ := around_lines outline hmatch
      have hspan : (around outline location.range).start.line ≤ last :=
        Nat.le_trans hstart (Nat.le_trans hstop hafter)
      rw [Nat.min_eq_left hspan]
      refine ⟨hstart, Nat.le_trans hstop hafter, ?_, fun hsize hit => ?_⟩
      · rw [pieces_slice hspan hlast, slice_lookup hlast]
      · have hend : last + 1 < 2 ^ 32 := Nat.lt_of_le_of_lt hlast hsize
        have hfirst := Nat.lt_of_le_of_lt (Nat.succ_le_succ hspan) hend
        rw [Excerpt.ofDefinition_eq hit _ path column hfirst hend,
          Excerpt.numberText_slice hspan hlast]

/-- A match on a line that opens a bracket: it is in the text, and so is all that is taken. -/
theorem definition_in_place_table :
    let text := "x\nT = [\n  1,\n]\ny\n"
    let found : Location := ⟨"/t", ⟨⟨1, 0⟩, ⟨1, 5⟩⟩⟩
    (around none found.range).stop.line < (Text.lines text).length ∧
      found.range.start.line ≤ found.range.stop.line ∧ (Text.lines text).length < 2 ^ 32 ∧
      ∃ body start last column,
        expand "/t" text none found = .ok (body, ⟨"/t", ⟨⟨start, 0⟩, ⟨last, column⟩⟩⟩) ∧
        start ≤ 1 ∧ 1 ≤ last ∧ last < (Text.lines text).length ∧
        (Text.pieces body).map some =
          (List.range' start (last + 1 - start)).map (fun k => (Text.lines text)[k]?) ∧
        Excerpt.ofDefinition (.minimal "T" found) body ⟨"/t", ⟨⟨start, 0⟩, ⟨last, column⟩⟩⟩ =
          Excerpt.heading (.minimal "T" found) "/t" ++ "Range: L" ++ Decimal.text (start + 1) ++
            ":C1 - L" ++ Decimal.text (last + 1) ++ ":C" ++
            Decimal.text ((column + 1) % 2 ^ 32) ++ "\n\n" ++
            Text.join "" ((List.range' (start + 1) (last + 1 - start)).map
              (Excerpt.numbered (Text.lines text) (last + 1))) ++ "\n" := by
  intro text found
  have hin : (around none found.range).stop.line < (Text.lines text).length := by decide
  have hmatch : found.range.start.line ≤ found.range.stop.line := by decide
  have hsize : (Text.lines text).length < 2 ^ 32 := by decide
  obtain ⟨body, rows, start, last, column, hexpand, hlast, -, -, hshown⟩ :=
    (definition_in_place "/t" text none found).2 hin
  obtain ⟨hstart, hstop, hbody, hblock⟩ := hshown hmatch
  exact ⟨hin, hmatch, hsize, body, start, last, column, hexpand, hstart, hstop, hlast, hbody,
    hblock hsize _⟩

end Definition

end SymbolContext
