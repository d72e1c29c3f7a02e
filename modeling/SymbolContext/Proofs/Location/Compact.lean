import Mathlib.Algebra.Group.Nat.Defs
import SymbolContext.Location
import SymbolContext.Proofs.Text.Decimal

/-!
# Reading a compact location from its end

A compact location is a path and some numbers, each behind a colon or a dash. The path may hold
colons, dashes and digits as well, so only the end of the text says where the numbers are:

* `append_number_inj`: the digits at the end of a text and the mark before them can be **taken
  off again**;
* `prefix_of_append_written`: so two texts with numbers at their ends agree in the numbers, from
  the end on, until one of them has no more;
* `eq_of_isPrefix`: read from the end, **the marks of no form begin like those of another**.

What is read are the numbers that are shown. They tell lines and columns that are `Bounded`.
-/

namespace SymbolContext

/-! ## Numbers that do not wrap -/

/-- A position whose line and column are below the greatest word. -/
structure Position.Bounded (p : Position) : Prop where
  line : p.line < 2 ^ 32 - 1
  column : p.column < 2 ^ 32 - 1

structure Range.Bounded (r : Range) : Prop where
  start : r.start.Bounded
  stop : r.stop.Bounded

theorem Position.Bounded.shown_eq {p : Position} (h : p.Bounded) :
    shown p.line = p.line + 1 ∧ shown p.column = p.column + 1 :=
  ⟨Position.shown_eq (Nat.add_lt_of_lt_sub h.line),
    Position.shown_eq (Nat.add_lt_of_lt_sub h.column)⟩

namespace Location

open Position (shown)

/-- A mark and the number behind it. -/
abbrev Field := Char × Nat

/-- Fields as text, the last field first. -/
def written : List Field → List Char
  | [] => []
  | (mark, n) :: rest => written rest ++ mark :: Decimal.digits n

/-- The numbers of a compact location, the last number first. -/
def fields (r : Range) : List Field :=
  let start := [(':', shown r.start.column), (':', shown r.start.line)]
  if shown r.start.line = shown r.stop.line then
    if shown r.start.column = shown r.stop.column then start
    else ('-', shown r.stop.column) :: start
  else (':', shown r.stop.column) :: ('-', shown r.stop.line) :: start

theorem toList_compact (l : Location) :
    l.compact.toList = l.path.toList ++ written (fields l.range) := by
  unfold compact compactEnd fields
  split
  · split <;> simp [written]
  · simp [written]

/-! ## Taking numbers off the end -/

/-- Read from its end, a text begins with the digits of its last number. -/
theorem cut_reverse (front : List Char) {mark : Char} (n : Nat) (hmark : mark.isDigit = false) :
    (front ++ mark :: Decimal.digits n).reverse.takeWhile Char.isDigit =
        (Decimal.digits n).reverse ∧
      (front ++ mark :: Decimal.digits n).reverse.dropWhile Char.isDigit =
        mark :: front.reverse := by
  have hdigits : ∀ c ∈ (Decimal.digits n).reverse, c.isDigit = true := by
    intro c hc
    exact Decimal.isDigit_of_mem_digits (List.mem_reverse.1 hc)
  have hreverse : (front ++ mark :: Decimal.digits n).reverse =
      (Decimal.digits n).reverse ++ mark :: front.reverse := by simp
  rw [hreverse, List.takeWhile_append_of_pos hdigits, List.dropWhile_append_of_pos hdigits]
  simp [hmark]

theorem append_number_inj {front front' : List Char} {mark mark' : Char} {m n : Nat}
    (hmark : mark.isDigit = false) (hmark' : mark'.isDigit = false)
    (h : front ++ mark :: Decimal.digits m = front' ++ mark' :: Decimal.digits n) :
    front = front' ∧ mark = mark' ∧ m = n := by
  obtain ⟨htake, hdrop⟩ := cut_reverse front m hmark
  obtain ⟨htake', hdrop'⟩ := cut_reverse front' n hmark'
  rw [h, htake', List.reverse_inj] at htake
  rw [h, hdrop', List.cons.injEq, List.reverse_inj] at hdrop
  exact ⟨hdrop.2.symm, hdrop.1.symm, (Decimal.digits_inj htake).symm⟩

/-- The marks are no digits. -/
def Marked (fs : List Field) : Prop := ∀ f ∈ fs, f.1.isDigit = false

theorem prefix_of_append_written {front front' : List Char} {fs fs' : List Field}
    (hfs : Marked fs) (hfs' : Marked fs')
    (h : front ++ written fs = front' ++ written fs') : fs <+: fs' ∨ fs' <+: fs := by
  induction fs generalizing fs' with
  | nil => exact .inl List.nil_prefix
  | cons f fs ih =>
    cases fs' with
    | nil => exact .inr List.nil_prefix
    | cons f' fs' =>
      obtain ⟨hmark, hrest⟩ := List.forall_mem_cons.1 hfs
      obtain ⟨hmark', hrest'⟩ := List.forall_mem_cons.1 hfs'
      simp only [written, ← List.append_assoc] at h
      obtain ⟨hfront, hsame, hnumber⟩ := append_number_inj hmark hmark' h
      have hf : f = f' := Prod.ext hsame hnumber
      simpa [hf] using ih hrest hrest' hfront

/-! ## The forms -/

/-- The marks of a point, of a range on one line and of any other range, the last mark first. -/
def forms : List (List Char) := [[':', ':'], ['-', ':', ':'], [':', '-', ':', ':']]

theorem marks_mem_forms (r : Range) : (fields r).map Prod.fst ∈ forms := by
  unfold fields forms
  split
  · split <;> simp
  · simp

theorem marked_fields (r : Range) : Marked (fields r) := by
  have hforms : ∀ marks ∈ forms, ∀ mark ∈ marks, mark.isDigit = false := by
    simp [forms]
  intro f hf
  exact hforms _ (marks_mem_forms r) f.1 (List.mem_map_of_mem hf)

theorem eq_of_isPrefix : ∀ a ∈ forms, ∀ b ∈ forms, a <+: b → a = b := by decide

theorem fields_eq_of_isPrefix {r r' : Range} (h : fields r <+: fields r') :
    fields r = fields r' := by
  have hmarks := eq_of_isPrefix _ (marks_mem_forms r) _ (marks_mem_forms r') (h.map Prod.fst)
  apply h.eq_of_length
  simpa using congrArg List.length hmarks

/-- The form is seen from the number of fields, and what it leaves out is there in the start. -/
theorem fields_inj {r r' : Range} (hr : r.Bounded) (hr' : r'.Bounded) (h : fields r = fields r') :
    r = r' := by
  obtain ⟨⟨line, column⟩, ⟨stopLine, stopColumn⟩⟩ := r
  obtain ⟨⟨line', column'⟩, ⟨stopLine', stopColumn'⟩⟩ := r'
  simp only [fields, hr.start.shown_eq, hr.stop.shown_eq, hr'.start.shown_eq,
    hr'.stop.shown_eq] at h
  grind

/-- **A compact text stands for one location**: two locations with the same text have the same
path and the same range, whatever the path is made of. -/
theorem compact_eq_iff (l l' : Location) (h : l.range.Bounded) (h' : l'.range.Bounded) :
    l.compact = l'.compact ↔ l.path = l'.path ∧ l.range = l'.range := by
  constructor
  · intro heq
    have hchars : l.path.toList ++ written (fields l.range) =
        l'.path.toList ++ written (fields l'.range) := by
      rw [← toList_compact, ← toList_compact, heq]
    have hfields : fields l.range = fields l'.range := by
      obtain hprefix | hprefix :=
        prefix_of_append_written (marked_fields l.range) (marked_fields l'.range) hchars
      · exact fields_eq_of_isPrefix hprefix
      · exact (fields_eq_of_isPrefix hprefix).symm
    rw [hfields] at hchars
    exact ⟨String.toList_inj.1 (List.append_cancel_right hchars), fields_inj h h' hfields⟩
  · rintro ⟨hpath, hrange⟩
    unfold compact
    rw [hpath, hrange]

/-- A path that ends like a compact location, and the greatest position that is bounded. -/
theorem compact_eq_iff_imitated :
    let l : Location := ⟨"/a:1:2", ⟨⟨2, 3⟩, ⟨2, 9⟩⟩⟩
    let l' : Location := ⟨"/a", ⟨⟨0, 1⟩, ⟨4294967294, 4294967294⟩⟩⟩
    l.range.Bounded ∧ l'.range.Bounded ∧ l.compact ≠ l'.compact := by
  intro l l'
  have h : l.range.Bounded := ⟨⟨by decide, by decide⟩, ⟨by decide, by decide⟩⟩
  have h' : l'.range.Bounded := ⟨⟨by decide, by decide⟩, ⟨by decide, by decide⟩⟩
  refine ⟨h, h', fun heq => ?_⟩
  obtain ⟨-, hrange⟩ := (compact_eq_iff l l' h h').1 heq
  cases hrange

end Location

end SymbolContext
