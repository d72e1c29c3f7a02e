import SymbolContext.Proofs.Definition.InPlace
import SymbolContext.Proofs.Excerpt.Rows

/-!
# The same numbers for the same lines

Definitions are taken from the lines of a text and references are shown in its pieces. Both count
from the top of the text, so a number that stands in both kinds of blocks stands before the same
line.

* `lines_of_prints_definition`: a definition shows **the line of the text with this number**,
* `prints_references`: references show **the piece of the text with this number**,
* `numbering_agrees`: and the two differ by a carriage return at most.
-/

namespace SymbolContext.Query

/-- What stands above the rows in the block of a definition. -/
def definitionHeading (hit : Hit) (span : Location) : String :=
  Excerpt.heading hit span.path ++ Excerpt.labelled "Range" (some span.range.label) ++ "\n"

/-- What stands above the rows in the block of some references. -/
def referencesHeading (path : String) (references : List Location) : String :=
  Excerpt.fileHeader path references.length ++
    Excerpt.labelled "At"
      (if references.isEmpty then none else some (Excerpt.startLabels references)) ++ "\n"

/-- Below its heading, a block has a row with a number and a line. -/
def Prints (heading block : String) (n : Nat) (line : String) : Prop :=
  ∃ rows, block = heading ++ rows ∧ Excerpt.Shows rows n line

theorem prints_append {heading rows : String} {n : Nat} {line : String} :
    Prints heading (heading ++ rows) n line ↔ Excerpt.Shows rows n line := by
  constructor
  · rintro ⟨rows', h, hshows⟩
    rwa [(String.append_right_inj heading).1 h]
  · exact fun h => ⟨rows, rfl, h⟩

section
variable {text : String} {n : Nat} {line : String}

theorem prints_definition (hit : Hit) (body : String) (span : Location) :
    Prints (definitionHeading hit span) (Excerpt.ofDefinition hit body span) n line ↔
      span.range.start.line + 1 ≤ n ∧
        (Text.pieces body)[n - (span.range.start.line + 1)]? = some line := by
  have hblock : Excerpt.ofDefinition hit body span = definitionHeading hit span ++
      (Excerpt.numberText body (span.range.start.line + 1) ++ "\n") := by
    simp only [Excerpt.ofDefinition, definitionHeading, Excerpt.heading, String.append_assoc]
  have hend : ¬ Excerpt.Shows "\n" n line := by
    rw [show "\n" = "" ++ "\n" ++ "" from rfl,
      Excerpt.shows_append_of_noBar (by decide) (by decide)]
    exact Excerpt.not_shows_empty
  rw [hblock, prints_append, Excerpt.shows_numberText_append]
  exact or_iff_left hend

theorem prints_references (path : String) (references : List Location) (context : Nat) :
    Prints (referencesHeading path references) (fileBlock path references text context) n line ↔
      (1 ≤ n ∧ LineRange.Covers (referenceWindows references (Text.pieces text) context) n) ∧
        (Text.pieces text)[n - 1]? = some line := by
  rw [show fileBlock path references text context = referencesHeading path references ++
      Excerpt.excerpt (Text.pieces text) (referenceWindows references (Text.pieces text) context)
    from rfl, prints_append]
  exact Excerpt.shows_excerpt fun _ hl => Text.newline_notMem_pieces hl

/-- **A definition shows lines of the text behind their numbers.** -/
theorem lines_of_prints_definition {path : String} {outline : Option Outline}
    {location span : Location} {body : String}
    (hexpand : Definition.expand path text outline location = .ok (body, span))
    (hmatch : location.range.start.line ≤ location.range.stop.line) {hit : Hit}
    (hprints : Prints (definitionHeading hit span) (Excerpt.ofDefinition hit body span) n line) :
    (Text.lines text)[n - 1]? = some line := by
  obtain ⟨hn, hline⟩ := (prints_definition hit body span).1 hprints
  rcases Definition.expand_cases path text outline location with ⟨-, herror⟩ |
    ⟨-, stop, hafter, hlast, hok⟩
  · rw [herror] at hexpand
    cases hexpand
  · rw [hok] at hexpand
    cases hexpand
    obtain ⟨hstart, hstop⟩ := Definition.around_lines outline hmatch
    have hspan : (Definition.around outline location.range).start.line ≤ stop.line :=
      Nat.le_trans hstart (Nat.le_trans hstop hafter)
    rw [Nat.min_eq_left hspan, Definition.pieces_slice hspan hlast, Definition.slice,
      List.getElem?_take, List.getElem?_drop] at hline
    dsimp only at hn hline
    split at hline
    · rwa [show (Definition.around outline location.range).start.line +
        (n - ((Definition.around outline location.range).start.line + 1)) = n - 1 by omega] at hline
    · cases hline

end

/-- **A number stands before the same line in every block.** -/
theorem numbering_agrees (text : String) :
    Text.join "\n" (Text.pieces text) = text ∧
    (∀ piece ∈ Text.pieces text, '\n' ∉ piece.toList) ∧
    ((Text.pieces text).length = (Text.lines text).length ∨
      ((Text.pieces text).length = (Text.lines text).length + 1 ∧
        (Text.pieces text).getLast? = some "")) ∧
    (∀ i line, (Text.lines text)[i]? = some line →
      ∃ piece, (Text.pieces text)[i]? = some piece ∧
        (i + 1 < (Text.pieces text).length → Text.WithoutReturn piece line) ∧
        (i + 1 = (Text.pieces text).length → piece = line)) ∧
    (∀ (path : String) (outline : Option Outline) (location span : Location) (body : String),
      Definition.expand path text outline location = .ok (body, span) →
      location.range.start.line ≤ location.range.stop.line →
      ∀ (hit : Hit) (path' : String) (references : List Location) (context n : Nat)
        (line piece : String),
        Prints (definitionHeading hit span) (Excerpt.ofDefinition hit body span) n line →
        Prints (referencesHeading path' references) (fileBlock path' references text context)
          n piece →
        piece = line ∨ piece = line ++ "\r") := by
  refine ⟨Text.join_pieces text, fun _ hp => Text.newline_notMem_pieces hp,
    Text.length_pieces text, fun i line hline => Text.getElem?_lines hline, ?_⟩
  intro path outline location span body hexpand hmatch hit path' references context n line piece
    hdefinition hreferences
  have hline := lines_of_prints_definition hexpand hmatch hdefinition
  obtain ⟨-, hpiece⟩ := (prints_references path' references context).1 hreferences
  obtain ⟨piece', hpiece', hinner, hlast⟩ := Text.getElem?_lines hline
  obtain rfl : piece' = piece := Option.some.inj (hpiece'.symm.trans hpiece)
  obtain ⟨hindex, -⟩ := List.getElem?_eq_some_iff.1 hpiece
  rcases Nat.lt_or_eq_of_le (Nat.succ_le_of_lt hindex) with hlt | heq
  · rcases hinner hlt with h | ⟨h, -⟩
    · exact .inr h
    · exact .inl h
  · exact .inl (hlast heq)

/-- Lines that end in a carriage return, with and without a newline: the second one is in the
definition, and in the reference block it has kept its carriage return. -/
theorem numbering_agrees_returns :
    let text := "a(\r\n  b)\r\nc\r"
    let found : Location := ⟨"/f", ⟨⟨0, 0⟩, ⟨0, 1⟩⟩⟩
    let span : Location := ⟨"/f", ⟨⟨0, 0⟩, ⟨1, 4⟩⟩⟩
    let hit : Hit := .minimal "a" found
    let reference : Location := ⟨"/f", .point ⟨2, 0⟩⟩
    Definition.expand "/f" text none found = .ok ("a(\n  b)", span) ∧
      found.range.start.line ≤ found.range.stop.line ∧
      Prints (definitionHeading hit span) (Excerpt.ofDefinition hit "a(\n  b)" span) 2 "  b)" ∧
      Prints (referencesHeading "/f" [reference]) (fileBlock "/f" [reference] text 1) 2 "  b)\r" ∧
      ∀ line, Prints (definitionHeading hit span) (Excerpt.ofDefinition hit "a(\n  b)" span) 2
        line → "  b)\r" = line ∨ "  b)\r" = line ++ "\r" := by
  intro text found span hit reference
  have hexpand : Definition.expand "/f" text none found = .ok ("a(\n  b)", span) := by
    unfold text
    rfl
  have hpiece : (Text.pieces text)[2 - 1]? = some "  b)\r" := by
    unfold text
    rfl
  have hmatch : found.range.start.line ≤ found.range.stop.line := Nat.le_refl 0
  have hreferences : Prints (referencesHeading "/f" [reference])
      (fileBlock "/f" [reference] text 1) 2 "  b)\r" := by
    refine (prints_references "/f" [reference] 1).2 ⟨⟨by decide, ?_⟩, hpiece⟩
    exact (LineRange.covers_windows (by decide) 2).2 ⟨by decide, 3, by decide, by decide⟩
  refine ⟨hexpand, hmatch, (prints_definition hit _ span).2 ⟨by decide, by rfl⟩, hreferences,
    fun line hline => ?_⟩
  exact (numbering_agrees text).2.2.2.2 "/f" none found span _ hexpand hmatch hit "/f" [reference]
    1 2 line _ hline hreferences

end SymbolContext.Query
