import SymbolContext.Proofs.Path.Parts

/-!
# The directory of a path

The parent of a path is found on its text: segments are dropped from the end, those that are no
parts on both sides of the name included.

* `parts_of_segments_append`: a path cut between two of its segments is cut between **the parts of
  the front and those of the rest**;
* `parts_of_fileName?`: so the parts of a path are **those of its parent and its file name**;
* `parts_parent_child`: and a name put behind a path has **that path as its parent**.
-/

namespace SymbolContext.Path

section
variable {path name : String}

theorem part?_eq_none_iff {segment : List Char} :
    part? segment = none ↔ segment = [] ∨ segment = ['.'] := by
  unfold part?
  split
  · simp [*]
  · split <;> simp [*]

/-- What is dropped in front of reversed segments is no part. -/
theorem exists_cut : ∀ {ss : List (List Char)}, ss ≠ [] →
    ∃ dropped s rest, cut ss = s :: rest ∧ ss = dropped ++ s :: rest ∧
      dropped.filterMap part? = []
  | [], h => absurd rfl h
  | [s], _ => ⟨[], s, [], rfl, rfl, rfl⟩
  | s :: s' :: rest, _ => by
    by_cases hs : s = [] ∨ s = ['.']
    · obtain ⟨dropped, t, ts, hcut, hsplit, hnone⟩ := exists_cut (List.cons_ne_nil s' rest)
      refine ⟨s :: dropped, t, ts, ?_, ?_, ?_⟩
      · rw [cut, if_pos hs, hcut]
        simp
      · rw [hsplit, List.cons_append]
      · rw [List.filterMap_cons_none (part?_eq_none_iff.2 hs), hnone]
    · refine ⟨[], s, s' :: rest, ?_, rfl, rfl⟩
      rw [cut, if_neg hs]
      simp

/-! ## Segments and parts -/

theorem segments_ne_nil (path : String) : segments path ≠ [] :=
  Text.splitAtChar_ne_nil '/' path.toList

theorem slash_notMem_of_mem_segments {s : List Char} (h : s ∈ segments path) : '/' ∉ s :=
  Text.notMem_of_mem_splitAtChar path.toList s h

/-- An absolute path is one with an empty segment in front of others. -/
theorem isAbsolute_iff {first : List Char} {rest : List (List Char)}
    (h : segments path = first :: rest) : isAbsolute path = true ↔ first = [] ∧ rest ≠ [] := by
  unfold segments at h
  unfold isAbsolute
  cases hpath : path.toList with
  | nil =>
    rw [hpath] at h
    cases h
    simp
  | cons c cs =>
    rw [hpath, Text.splitAtChar] at h
    by_cases hc : c = '/'
    · rw [if_pos hc] at h
      cases h
      simp [hc, Text.splitAtChar_ne_nil]
    · obtain ⟨p, ps, hps⟩ := List.exists_cons_of_ne_nil (Text.splitAtChar_ne_nil '/' cs)
      rw [if_neg hc, hps] at h
      cases h
      simp [hc]

theorem segments_ofSegments {ss : List (List Char)} (hne : ss ≠ []) (hempty : ss ≠ [[]])
    (hslash : ∀ s ∈ ss, '/' ∉ s) : segments (ofSegments ss) = ss := by
  have hchars : ∀ l ∈ ss.map String.ofList, '/' ∉ l.toList := by
    simpa using hslash
  rw [segments, ofSegments, if_neg hempty,
    Text.splitAtChar_join (by decide) (by simpa using hne) hchars]
  simp [Function.comp_def]

/-- **A path cut between two of its segments.** -/
theorem parts_of_segments_append {front rest : List (List Char)} (hfront : front ≠ [])
    (hrest : rest ≠ []) (h : segments path = front ++ rest) :
    parts path = parts (ofSegments front) ++ rest.filterMap part? := by
  obtain ⟨first, more, rfl⟩ := List.exists_cons_of_ne_nil hfront
  rw [List.cons_append] at h
  have habs := isAbsolute_iff h
  rw [parts_of_segments h, List.filterMap_append]
  by_cases hroot : first :: more = [[]]
  · -- the slash in front of an absolute path is all that is left of it
    obtain ⟨rfl, rfl⟩ := List.cons.inj hroot
    rw [if_pos (habs.2 ⟨rfl, by simpa using hrest⟩)]
    rfl
  · have hslash : ∀ s ∈ first :: more, '/' ∉ s := by
      intro s hs
      have hmem : s ∈ segments path := h ▸ List.mem_append_left rest hs
      exact slash_notMem_of_mem_segments hmem
    have hsegments := segments_ofSegments hfront hroot hslash
    have hsame : isAbsolute (ofSegments (first :: more)) = isAbsolute path := by
      rw [Bool.eq_iff_iff, isAbsolute_iff hsegments, habs]
      refine and_congr_right fun hfirst => ?_
      have hmore : more ≠ [] := fun hnil => hroot (by rw [hfirst, hnil])
      simp [hmore]
    rw [parts_of_segments hsegments, hsame, List.append_assoc]

/-! ## The parent and the file name -/

theorem backward_of_fileName? (h : fileName? path = some name) :
    ∃ above, backward path = name.toList :: above ∧ isName name.toList = true := by
  unfold fileName? at h
  split at h
  · rename_i s above hback
    split at h
    · rename_i hs
      obtain rfl := Option.some.inj h
      exact ⟨above, by simpa using hback, by simpa using hs⟩
    · cases h
  · cases h

theorem segments_of_fileName? (h : fileName? path = some name) :
    ∃ above dropped, backward path = name.toList :: above ∧ IsProper name ∧
      dropped.filterMap part? = [] ∧
      segments path = above.reverse ++ name.toList :: dropped := by
  obtain ⟨above, hback, hname⟩ := backward_of_fileName? h
  have hne : (segments path).reverse ≠ [] := by simpa using segments_ne_nil path
  obtain ⟨dropped, s, rest, hcut, hsplit, hnone⟩ := exists_cut hne
  rw [backward, hcut] at hback
  cases hback
  have hsegments : segments path = above.reverse ++ name.toList :: dropped.reverse := by
    simpa using congrArg List.reverse hsplit
  have hmem : name.toList ∈ segments path := by simp [hsegments]
  refine ⟨above, dropped.reverse, by rw [backward, hcut], ⟨hname, ?_⟩, ?_, hsegments⟩
  · exact slash_notMem_of_mem_segments hmem
  · rw [List.filterMap_reverse, hnone, List.reverse_nil]

theorem isProper_of_fileName? (h : fileName? path = some name) : IsProper name := by
  obtain ⟨-, -, -, hproper, -⟩ := segments_of_fileName? h
  exact hproper

/-- **The parts of a path are those of its parent and its file name.** -/
theorem parts_of_fileName? (h : fileName? path = some name) :
    parts path = parts (parent path) ++ [.name name] := by
  obtain ⟨above, dropped, hback, hproper, hdropped, hsegments⟩ := segments_of_fileName? h
  have hpart := part?_of_isProper hproper
  unfold parent
  rw [hback]
  cases above with
  | nil =>
    -- the first segment is the name, so the path is relative and has no parent
    obtain ⟨hempty, hdot, -⟩ := isName_iff.1 hproper.isName
    have habs : isAbsolute path = false := by
      rw [Bool.eq_false_iff, Ne, isAbsolute_iff hsegments]
      exact fun h => hempty h.1
    rw [parts_of_segments hsegments, habs, if_neg hdot, hpart, hdropped]
    rfl
  | cons s rest =>
    -- what lies between the parent and the name is dropped together with the name
    obtain ⟨skipped, t, ts, hcut, hsplit, hskipped⟩ := exists_cut (List.cons_ne_nil s rest)
    rw [hsplit, List.reverse_append, List.append_assoc] at hsegments
    have hparts := parts_of_segments_append (by simp) (by simp) hsegments
    rw [hparts]
    simp [hcut, hskipped, hpart, hdropped]

theorem parts_parent_child (path : String) (h : IsProper name) :
    parts (parent (child path name)) = parts path := by
  have hparts := parts_of_fileName? (fileName?_child path h)
  rw [parts_child path h] at hparts
  exact (List.append_cancel_right hparts).symm

end

end SymbolContext.Path
