import SymbolContext.Text.Lines

/-!
# Lines and newlines

* `newline_notMem_lines`, `newline_notMem_pieces`: no line holds a newline.
* `pieces_join`: **lines that hold none are read back from the text they are joined to.**
* `getElem?_lines`: **a line and the piece in its place are the same up to a carriage return.**
-/

namespace SymbolContext.Text

section
variable {sep : Char}

theorem splitAtChar_of_notMem {cs : List Char} (h : sep ∉ cs) : splitAtChar sep cs = [cs] := by
  induction cs with
  | nil => rfl
  | cons c cs ih =>
    have hc : c ≠ sep := fun he => h (he ▸ List.mem_cons_self)
    have hcs : sep ∉ cs := fun hm => h (List.mem_cons_of_mem c hm)
    simp [splitAtChar, hc, ih hcs, consFirst]

theorem splitAtChar_ne_nil (sep : Char) (cs : List Char) : splitAtChar sep cs ≠ [] := by
  cases cs with
  | nil => simp [splitAtChar]
  | cons c cs =>
    unfold splitAtChar
    split
    · exact List.cons_ne_nil _ _
    · cases splitAtChar sep cs <;> simp [consFirst]

/-- Two texts with a separator between them are cut apart by themselves. -/
theorem splitAtChar_append_sep (cs ds : List Char) :
    splitAtChar sep (cs ++ sep :: ds) = splitAtChar sep cs ++ splitAtChar sep ds := by
  induction cs with
  | nil => simp [splitAtChar]
  | cons c cs ih =>
    rw [List.cons_append, splitAtChar, splitAtChar, ih]
    split
    · rfl
    · obtain ⟨p, ps, hps⟩ := List.exists_cons_of_ne_nil (splitAtChar_ne_nil sep cs)
      rw [hps]
      rfl

theorem splitAtChar_append {cs : List Char} (h : sep ∉ cs) (rest : List Char) :
    splitAtChar sep (cs ++ sep :: rest) = cs :: splitAtChar sep rest := by
  rw [splitAtChar_append_sep, splitAtChar_of_notMem h, List.singleton_append]

theorem notMem_of_mem_consFirst {c : Char} (hc : c ≠ sep) {ps : List (List Char)}
    (h : ∀ p ∈ ps, sep ∉ p) : ∀ p ∈ consFirst c ps, sep ∉ p := by
  cases ps with
  | nil => simpa [consFirst] using hc.symm
  | cons p ps =>
    intro q hq
    rcases List.mem_cons.1 hq with rfl | hq
    · simpa [hc.symm] using h p List.mem_cons_self
    · exact h q (List.mem_cons_of_mem p hq)

theorem notMem_of_mem_splitAtChar (cs : List Char) : ∀ p ∈ splitAtChar sep cs, sep ∉ p := by
  induction cs with
  | nil => simp [splitAtChar]
  | cons c cs ih =>
    unfold splitAtChar
    split
    · intro p hp
      rcases List.mem_cons.1 hp with rfl | hp
      · exact List.not_mem_nil
      · exact ih p hp
    · rename_i hc
      exact notMem_of_mem_consFirst hc ih

end

theorem mem_of_mem_dropReturn {c : Char} {cs : List Char} (h : c ∈ dropReturn cs) : c ∈ cs := by
  unfold dropReturn at h
  split at h
  · exact (List.dropLast_sublist cs).subset h
  · exact h

/-- A terminated line is a piece, up to a carriage return. -/
theorem mem_terminated {q : List Char} : ∀ {ps : List (List Char)}, q ∈ terminated ps →
    ∃ p ∈ ps, ∀ c ∈ q, c ∈ p
  | [], h => absurd h List.not_mem_nil
  | [p], h => by
    unfold terminated at h
    split at h
    · exact absurd h List.not_mem_nil
    · exact ⟨q, h, fun _ hc => hc⟩
  | p :: p' :: ps, h => by
    rcases List.mem_cons.1 h with rfl | h
    · exact ⟨p, List.mem_cons_self, fun _ hc => mem_of_mem_dropReturn hc⟩
    · obtain ⟨r, hr, hsub⟩ := mem_terminated h
      exact ⟨r, List.mem_cons_of_mem p hr, hsub⟩

theorem newline_notMem_lines {text line : String} (h : line ∈ lines text) :
    '\n' ∉ line.toList := by
  obtain ⟨cs, hcs, rfl⟩ := List.mem_map.1 h
  obtain ⟨p, hp, hsub⟩ := mem_terminated hcs
  rw [String.toList_ofList]
  exact fun hc => notMem_of_mem_splitAtChar text.toList p hp (hsub _ hc)

theorem newline_notMem_pieces {text piece : String} (h : piece ∈ pieces text) :
    '\n' ∉ piece.toList := by
  obtain ⟨cs, hcs, rfl⟩ := List.mem_map.1 h
  rw [String.toList_ofList]
  exact notMem_of_mem_splitAtChar text.toList cs hcs

theorem pieces_line {line : String} (h : '\n' ∉ line.toList) (rest : String) :
    pieces (line ++ "\n" ++ rest) = line :: pieces rest := by
  have htext : (line ++ "\n" ++ rest).toList = line.toList ++ '\n' :: rest.toList := by simp
  rw [pieces, htext, splitAtChar_append h, List.map_cons, String.ofList_toList, pieces]

/-- Texts without a separator are cut apart again where they were joined. -/
theorem splitAtChar_join {sep : Char} {mark : String} (hmark : mark.toList = [sep]) :
    ∀ {ls : List String}, ls ≠ [] → (∀ l ∈ ls, sep ∉ l.toList) →
      splitAtChar sep (join mark ls).toList = ls.map String.toList
  | [], hne, _ => absurd rfl hne
  | [l], _, h => by simp [join, splitAtChar_of_notMem (h l List.mem_cons_self)]
  | l :: l' :: ls, _, h => by
    have hl := h l List.mem_cons_self
    have ih := splitAtChar_join hmark (List.cons_ne_nil l' ls)
      fun x hx => h x (List.mem_cons_of_mem l hx)
    have htext : (join mark (l :: l' :: ls)).toList =
        l.toList ++ sep :: (join mark (l' :: ls)).toList := by simp [join, hmark]
    rw [List.map_cons, htext, splitAtChar_append hl, ih]

theorem pieces_join {ls : List String} (hne : ls ≠ []) (h : ∀ l ∈ ls, '\n' ∉ l.toList) :
    pieces (join "\n" ls) = ls := by
  rw [pieces, splitAtChar_join (by decide) hne h]
  simp [Function.comp_def]

theorem join_empty_cons (s : String) (rest : List String) :
    join "" (s :: rest) = s ++ join "" rest := by
  cases rest <;> simp [join]

/-! ## The two ways to cut a text -/

theorem join_pieces (text : String) : join "\n" (pieces text) = text := by
  suffices h : ∀ cs, (join "\n" ((splitAtChar '\n' cs).map String.ofList)).toList = cs from
    String.toList_inj.1 (h text.toList)
  intro cs
  induction cs with
  | nil => simp [splitAtChar, join]
  | cons c cs ih =>
    obtain ⟨p, ps, hps⟩ := List.exists_cons_of_ne_nil (splitAtChar_ne_nil '\n' cs)
    unfold splitAtChar
    rw [hps] at ih ⊢
    split
    · rename_i hc
      simpa [join, hc] using ih
    · cases ps with
      | nil => simpa [consFirst, join] using ih
      | cons p' ps => simpa [consFirst, join] using ih

/-- There is a line for each piece, but none for an empty last one. -/
theorem length_terminated : ∀ {ps : List (List Char)}, ps ≠ [] →
    ps.length = (terminated ps).length ∨
      (ps.length = (terminated ps).length + 1 ∧ ps.getLast? = some [])
  | [], h => absurd rfl h
  | [p], _ => by
    by_cases hp : p = []
    · simp [terminated, hp]
    · simp [terminated, hp]
  | p :: p' :: ps, _ => by
    have ih := length_terminated (List.cons_ne_nil p' ps)
    simpa [terminated] using ih

/-- A line is the piece in its place, without the carriage return of its terminator. -/
theorem getElem?_terminated {q : List Char} : ∀ {ps : List (List Char)} {i : Nat},
    (terminated ps)[i]? = some q →
    ∃ p, ps[i]? = some p ∧ (i + 1 < ps.length → q = dropReturn p) ∧ (i + 1 = ps.length → q = p)
  | [], _, h => by simp [terminated] at h
  | [p], i, h => by
    unfold terminated at h
    split at h
    · simp at h
    · cases i with
      | zero => simpa [eq_comm] using h
      | succ i => simp at h
  | p :: p' :: ps, i, h => by
    cases i with
    | zero =>
      have hq : q = dropReturn p := by simpa [terminated, eq_comm] using h
      exact ⟨p, rfl, fun _ => hq, fun hlast => by simp at hlast⟩
    | succ i =>
      have hrest : (terminated (p' :: ps))[i]? = some q := h
      obtain ⟨r, hr, hinner, hlast⟩ := getElem?_terminated hrest
      refine ⟨r, hr, fun hi => hinner ?_, fun hi => hlast ?_⟩
      · simpa using hi
      · simpa using hi

/-- A text without the one carriage return at its end, if there is one. -/
def WithoutReturn (piece line : String) : Prop :=
  piece = line ++ "\r" ∨ (piece = line ∧ ∀ front, piece ≠ front ++ "\r")

theorem withoutReturn_dropReturn (cs : List Char) :
    WithoutReturn (String.ofList cs) (String.ofList (dropReturn cs)) := by
  unfold dropReturn
  split
  · rename_i h
    obtain ⟨front, rfl⟩ := List.getLast?_eq_some_iff.1 h
    left
    simp [String.ofList_append]
  · rename_i h
    refine .inr ⟨rfl, fun front hfront => h ?_⟩
    have hcs : cs = front.toList ++ ['\r'] := by simpa using congrArg String.toList hfront
    simp [hcs]

theorem length_pieces (text : String) :
    (pieces text).length = (lines text).length ∨
      ((pieces text).length = (lines text).length + 1 ∧ (pieces text).getLast? = some "") := by
  simpa [pieces, lines] using length_terminated (splitAtChar_ne_nil '\n' text.toList)

/-- **The line in a place is the piece in its place**, up to the carriage return. -/
theorem getElem?_lines {text line : String} {i : Nat} (h : (lines text)[i]? = some line) :
    ∃ piece, (pieces text)[i]? = some piece ∧
      (i + 1 < (pieces text).length → WithoutReturn piece line) ∧
      (i + 1 = (pieces text).length → piece = line) := by
  simp only [lines, List.getElem?_map, Option.map_eq_some_iff] at h
  obtain ⟨q, hq, rfl⟩ := h
  obtain ⟨p, hp, hinner, hlast⟩ := getElem?_terminated hq
  refine ⟨String.ofList p, by simp [pieces, hp], fun hi => ?_, fun hi => ?_⟩
  · rw [hinner (by simpa [pieces] using hi)]
    exact withoutReturn_dropReturn p
  · rw [hlast (by simpa [pieces] using hi)]

end SymbolContext.Text
