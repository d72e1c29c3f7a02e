import SymbolContext.Path
import SymbolContext.Proofs.Text.ByteOrder
import SymbolContext.Proofs.Text.Lines

/-!
# The parts of a path

A path with a name behind it has that name as its last segment, however the path was written. So

* `parts_child`: its parts are **the parts of the path and the name**;
* `fileName?_child`: its file name is **the name**, and what follows the last dot of the name is
  its extension;
* `splitName_eq_iff`: an extension has **no dot in it and something before its dot**.

Paths are ordered by their parts: the slash in front, dots, and names by their octets.
-/

namespace SymbolContext.Path

/-- What an entry of a directory can be called. -/
structure IsProper (name : String) : Prop where
  isName : isName name.toList = true
  noSlash : '/' ∉ name.toList

instance (name : String) : Decidable (IsProper name) :=
  decidable_of_iff (isName name.toList = true ∧ '/' ∉ name.toList)
    ⟨fun h => ⟨h.1, h.2⟩, fun h => ⟨h.isName, h.noSlash⟩⟩

theorem isName_iff {segment : List Char} :
    isName segment = true ↔ segment ≠ [] ∧ segment ≠ ['.'] ∧ segment ≠ ['.', '.'] := by
  simp [isName, and_assoc]

/-! ## The order of parts -/

namespace Part

def rank : Part → Nat
  | root => 0
  | here => 1
  | up => 2
  | name _ => 3

/-- What orders parts of one kind. -/
def octets : Part → List UInt8
  | name s => Utf8.encode s
  | _ => []

instance : LT Part :=
  ⟨fun a b => a.rank < b.rank ∨ (a.rank = b.rank ∧ a.octets < b.octets)⟩

theorem lt_iff {a b : Part} :
    a < b ↔ a.rank < b.rank ∨ (a.rank = b.rank ∧ a.octets < b.octets) := Iff.rfl

theorem name_lt {s t : String} (h : s < t) : name s < name t := .inr ⟨rfl, Utf8.encode_lt h⟩

instance : Std.Asymm ((· < ·) : Part → Part → Prop) where
  asymm a b h h' := by
    rw [lt_iff] at h h'
    obtain hrank | ⟨hrank, hoctets⟩ := h
    · omega
    · obtain hrank' | ⟨-, hoctets'⟩ := h'
      · omega
      · exact List.lt_asymm hoctets hoctets'

end Part

/-- Whether a path is that of a directory or of something below it. -/
def isWithin (dir path : String) : Bool := (parts dir).isPrefixOf (parts path)

theorem isWithin_iff {dir path : String} : isWithin dir path = true ↔ parts dir <+: parts path :=
  List.isPrefixOf_iff_prefix

/-! ## A path and a name -/

section
variable {path name : String}

theorem segments_of_isProper (h : IsProper name) : segments name = [name.toList] :=
  Text.splitAtChar_of_notMem h.noSlash

theorem part?_of_isProper (h : IsProper name) : part? name.toList = some (.name name) := by
  obtain ⟨hempty, hdot, hdots⟩ := isName_iff.1 h.isName
  simp [part?, hempty, hdot, hdots]

/-- The parts, by the segments of a path. -/
theorem parts_of_segments {first : List Char} {rest : List (List Char)}
    (h : segments path = first :: rest) :
    parts path = (if isAbsolute path then [Part.root] else if first = ['.'] then [Part.here]
      else (part? first).toList) ++ rest.filterMap part? := by
  rw [parts, h]

/-- A path that is not empty keeps its segments, up to an empty last one. -/
theorem segments_child (h : IsProper name) (hpath : path ≠ "") :
    ∃ first rest last, segments path = first :: (rest ++ last) ∧ last.filterMap part? = [] ∧
      segments (child path name) = first :: (rest ++ [name.toList]) ∧
      isAbsolute (child path name) = isAbsolute path := by
  have hempty : path.isEmpty = false := by simpa using hpath
  obtain ⟨c, cs, hcs⟩ : ∃ c cs, path.toList = c :: cs := by
    apply List.exists_cons_of_ne_nil
    simpa using hpath
  unfold child
  rw [hempty]
  split
  · contradiction
  split
  · rename_i hslash
    obtain ⟨front, hfront⟩ := List.getLast?_eq_some_iff.1 hslash
    obtain ⟨first, rest, hrest⟩ := List.exists_cons_of_ne_nil (Text.splitAtChar_ne_nil '/' front)
    refine ⟨first, rest, [[]], ?_, rfl, ?_, ?_⟩
    · rw [segments, hfront, Text.splitAtChar_append_sep, hrest]
      rfl
    · have hname := segments_of_isProper h
      rw [segments, String.toList_append, hfront, List.append_assoc, List.singleton_append,
        Text.splitAtChar_append_sep, hrest, ← segments, hname]
      rfl
    · simp [isAbsolute, hcs]
  · obtain ⟨first, rest, hrest⟩ :=
      List.exists_cons_of_ne_nil (Text.splitAtChar_ne_nil '/' path.toList)
    refine ⟨first, rest, [], ?_, rfl, ?_, ?_⟩
    · rw [segments, hrest, List.append_nil]
    · have hname := segments_of_isProper h
      have htext : (path ++ "/" ++ name).toList = path.toList ++ '/' :: name.toList := by simp
      rw [segments, htext, Text.splitAtChar_append_sep, hrest, ← segments, hname]
      rfl
    · simp [isAbsolute, hcs]

theorem child_empty (name : String) : child "" name = name := by simp [child]

/-- **The parts of a path and a name.** -/
theorem parts_child (path : String) (h : IsProper name) :
    parts (child path name) = parts path ++ [.name name] := by
  by_cases hpath : path = ""
  · have hslash : isAbsolute name = false := by
      have hhead : name.toList.head? ≠ some '/' := fun hhead => h.noSlash (List.mem_of_head? hhead)
      simpa [isAbsolute] using hhead
    have hdot := (isName_iff.1 h.isName).2.1
    rw [hpath, child_empty, parts_of_segments (segments_of_isProper h), hslash, if_neg hdot,
      part?_of_isProper h]
    rfl
  · obtain ⟨first, rest, last, hold, hlast, hnew, habs⟩ := segments_child h hpath
    rw [parts_of_segments hold, parts_of_segments hnew, habs, List.filterMap_append,
      List.filterMap_append, hlast, List.append_nil, List.append_assoc]
    simp [part?_of_isProper h]

theorem fileName?_child (path : String) (h : IsProper name) :
    fileName? (child path name) = some name := by
  obtain ⟨front, hfront⟩ : ∃ front, segments (child path name) = front ++ [name.toList] := by
    by_cases hpath : path = ""
    · exact ⟨[], by rw [hpath, child_empty, segments_of_isProper h]; rfl⟩
    · obtain ⟨first, rest, -, -, -, hnew, -⟩ := segments_child h hpath
      exact ⟨first :: rest, hnew⟩
  have hcut : ∀ rest, cut (name.toList :: rest) = name.toList :: rest := by
    intro rest
    obtain ⟨hempty, hdot, -⟩ := isName_iff.1 h.isName
    cases rest <;> simp [cut, hempty, hdot]
  rw [fileName?, backward, hfront, List.reverse_append, List.reverse_singleton,
    List.singleton_append, hcut]
  simp [h.isName]

end

/-! ## Extensions -/

theorem cutAtLastDot?_append (stem : List Char) {ext : List Char} (h : '.' ∉ ext) :
    cutAtLastDot? (stem ++ '.' :: ext) = some (stem, ext) := by
  have hmem : '.' ∈ stem ++ '.' :: ext := by simp
  have hext : ∀ c ∈ ext.reverse, decide (c ≠ '.') = true := by
    intro c hc
    apply decide_eq_true
    intro he
    exact h (he ▸ List.mem_reverse.1 hc)
  have hreverse : (stem ++ '.' :: ext).reverse = ext.reverse ++ '.' :: stem.reverse := by simp
  simp only [cutAtLastDot?, if_pos hmem]
  rw [hreverse, List.takeWhile_append_of_pos hext, List.dropWhile_append_of_pos hext]
  simp

/-- A text with a dot has a last one. -/
theorem exists_last_dot {name : List Char} (h : '.' ∈ name) :
    ∃ stem ext, '.' ∉ ext ∧ name = stem ++ '.' :: ext := by
  obtain ⟨ext, stem, hreverse, hext⟩ := List.eq_append_cons_of_mem (List.mem_reverse.2 h)
  refine ⟨stem.reverse, ext.reverse, by simpa using hext, ?_⟩
  simpa using congrArg List.reverse hreverse

theorem cutAtLastDot?_eq_some_iff {name stem ext : List Char} :
    cutAtLastDot? name = some (stem, ext) ↔ '.' ∉ ext ∧ name = stem ++ '.' :: ext := by
  constructor
  · intro h
    have hmem : '.' ∈ name := by
      apply Classical.byContradiction
      intro hno
      simp [cutAtLastDot?, hno] at h
    obtain ⟨stem', ext', hext, hname⟩ := exists_last_dot hmem
    rw [hname, cutAtLastDot?_append stem' hext] at h
    cases h
    exact ⟨hext, hname⟩
  · intro h
    rw [h.2, cutAtLastDot?_append stem h.1]

theorem splitName_append {stem ext : String} (hstem : stem ≠ "") (hext : '.' ∉ ext.toList) :
    splitName (stem ++ "." ++ ext) = (stem, some ext) := by
  have hcut : cutAtLastDot? (stem ++ "." ++ ext).toList = some (stem.toList, ext.toList) := by
    rw [cutAtLastDot?_eq_some_iff]
    simp [hext]
  have hne : stem.toList ≠ [] := by simpa using hstem
  rw [splitName, hcut]
  simp [hne]

theorem splitName_cases (name : String) :
    splitName name = (name, none) ∨
      ∃ stem ext, stem ≠ "" ∧ '.' ∉ ext.toList ∧ name = stem ++ "." ++ ext ∧
        splitName name = (stem, some ext) := by
  by_cases hdot : '.' ∈ name.toList
  · obtain ⟨stem, ext, hext, hname⟩ := exists_last_dot hdot
    by_cases hstem : stem = []
    · left
      rw [splitName, cutAtLastDot?_eq_some_iff.2 ⟨hext, hname⟩]
      simp [hstem]
    · right
      have hne : String.ofList stem ≠ "" := by simpa using hstem
      have hno : '.' ∉ (String.ofList ext).toList := by simpa using hext
      have htext : name = String.ofList stem ++ "." ++ String.ofList ext := by
        rw [← String.toList_inj, hname]
        simp
      refine ⟨String.ofList stem, String.ofList ext, hne, hno, htext, ?_⟩
      rw [htext, splitName_append hne hno]
  · left
    simp [splitName, cutAtLastDot?, hdot]

/-- **What follows the last dot of a name**, if there is something before it. -/
theorem splitName_eq_iff {name ext : String} :
    (splitName name).2 = some ext ↔
      ∃ stem, stem ≠ "" ∧ '.' ∉ ext.toList ∧ name = stem ++ "." ++ ext := by
  refine ⟨fun h => ?_, fun h => ?_⟩
  · obtain hwhole | ⟨stem, ext', hstem, hext, hname, hsplit⟩ := splitName_cases name
    · rw [hwhole] at h
      cases h
    · rw [hsplit] at h
      obtain rfl := Option.some.inj h
      exact ⟨stem, hstem, hext, hname⟩
  · obtain ⟨stem, hstem, hext, rfl⟩ := h
    rw [splitName_append hstem hext]

end SymbolContext.Path
