import SymbolContext.FileTree.Basic
import SymbolContext.Proofs.Path.Parts

/-!
# Places in a tree

A place is given by the names on the way to it. In a well-formed tree the entries of every
directory ascend and are called something that a path can hold, so **a place has one path, and its
parts are the parts of the root and the names** (`parts_pathAt`).

* `at?_put_locked`: a directory that can no longer be listed **takes away what is below it and
  nothing else**, by induction on the way to it.
* `WellFormed.put`: and the tree stays well-formed.
-/

namespace SymbolContext.FileTree

inductive WellFormed : FileTree → Prop where
  | file (content : List UInt8) : WellFormed (.file content)
  | link (target : String) : WellFormed (.link target)
  | locked (reason : String) : WellFormed (.locked reason)
  | dir {entries : List (String × FileTree)}
    (ascending : entries.Pairwise fun e f => e.1 < f.1)
    (proper : ∀ e ∈ entries, Path.IsProper e.1)
    (inner : ∀ e ∈ entries, WellFormed e.2) : WellFormed (.dir entries)

/-- The path of a place below `root`. -/
def pathAt (root : String) (names : List String) : String := names.foldl Path.child root

@[simp] theorem pathAt_nil (root : String) : pathAt root [] = root := rfl

@[simp] theorem pathAt_cons (root name : String) (names : List String) :
    pathAt root (name :: names) = pathAt (Path.child root name) names := rfl

section
variable {t u : FileTree} {es : List (String × FileTree)} {name : String} {names : List String}

theorem mem_of_lookup (h : es.lookup name = some t) : (name, t) ∈ es := by
  obtain ⟨before, after, hes, -⟩ := List.lookup_eq_some_iff.1 h
  rw [hes]
  simp

theorem lookup_of_mem (hascending : es.Pairwise fun e f => e.1 < f.1) (h : (name, t) ∈ es) :
    es.lookup name = some t := by
  obtain ⟨before, after, hes⟩ := List.append_of_mem h
  refine List.lookup_eq_some_iff.2 ⟨before, after, hes, fun e he => ?_⟩
  rw [hes] at hascending
  have hlt : e.1 < name := (List.pairwise_append.1 hascending).2.2 e he _ List.mem_cons_self
  have hne : name ≠ e.1 := by
    intro heq
    exact String.lt_irrefl name (heq ▸ hlt)
  simpa using hne

/-- Only a directory has places below it. -/
theorem at?_cons_eq_some_iff : t.at? (name :: names) = some u ↔
    ∃ es c, t = .dir es ∧ es.lookup name = some c ∧ c.at? names = some u := by
  cases t with
  | dir es => simp [at?, entries, Option.bind_eq_some_iff]
  | file content => simp [at?, entries]
  | link target => simp [at?, entries]
  | locked reason => simp [at?, entries]

/-- Where a place below leads to something, or a directory stands, there is a directory. -/
theorem isDir_iff_of_at? (h : t.at? names = some u) :
    t.isDir = true ↔ names ≠ [] ∨ u.isDir = true := by
  cases names with
  | nil =>
    obtain rfl := Option.some.inj h
    simp
  | cons name names =>
    obtain ⟨es, -, rfl, -, -⟩ := at?_cons_eq_some_iff.1 h
    simp [isDir]

theorem WellFormed.proper_of_at? (h : t.WellFormed) (hat : t.at? names = some u) :
    ∀ name ∈ names, Path.IsProper name := by
  induction names generalizing t with
  | nil => simp
  | cons name names ih =>
    obtain ⟨es, c, rfl, hlookup, hrest⟩ := at?_cons_eq_some_iff.1 hat
    cases h with
    | dir _ proper inner =>
      have hmem := mem_of_lookup hlookup
      exact List.forall_mem_cons.2 ⟨proper _ hmem, ih (inner _ hmem) hrest⟩

end

/-! ## Paths of places -/

section
variable {root : String} {names place : List String}

theorem parts_pathAt (h : ∀ name ∈ names, Path.IsProper name) :
    Path.parts (pathAt root names) = Path.parts root ++ names.map .name := by
  induction names generalizing root with
  | nil => simp
  | cons name names ih =>
    obtain ⟨hname, hnames⟩ := List.forall_mem_cons.1 h
    rw [pathAt_cons, ih hnames, Path.parts_child root hname]
    simp

theorem map_name_injective : Function.Injective Path.Part.name := fun _ _ h => Path.Part.name.inj h

/-- A place is below another if its path is. -/
theorem parts_prefix_iff (hplace : ∀ name ∈ place, Path.IsProper name)
    (hnames : ∀ name ∈ names, Path.IsProper name) :
    Path.parts (pathAt root place) <+: Path.parts (pathAt root names) ↔ place <+: names := by
  rw [parts_pathAt hplace, parts_pathAt hnames, List.prefix_append_right_inj,
    List.prefix_map_iff_of_injective map_name_injective]

theorem fileName?_pathAt (h : ∀ name ∈ names, Path.IsProper name) :
    Path.fileName? (pathAt root names) = names.getLast?.or (Path.fileName? root) := by
  cases hlast : names.getLast? with
  | none =>
    rw [List.getLast?_eq_none_iff.1 hlast]
    rfl
  | some name =>
    obtain ⟨front, rfl⟩ := List.getLast?_eq_some_iff.1 hlast
    rw [pathAt, List.foldl_append]
    exact Path.fileName?_child _ (h name (by simp))

end

/-! ## Replacing what is at a place -/

section
variable {t u v w : FileTree} {es : List (String × FileTree)} {name key reason : String}
  {names place : List String}

theorem lookup_entry : ((name, u) :: es).lookup key =
    if key = name then some u else es.lookup key := by
  rw [List.lookup_cons]
  by_cases h : key = name
  · simp [h]
  · simp [h, beq_false_of_ne h]

theorem lookup_putEntry : (putEntry name v es).lookup key =
    if key = name then some v else es.lookup key := by
  fun_induction putEntry name v es with
  | case1 => exact lookup_entry
  | case2 k u rest hlt => exact lookup_entry
  | case3 u rest hlt =>
    rw [lookup_entry, lookup_entry]
    split <;> rfl
  | case4 k u rest hlt hne ih =>
    rw [lookup_entry, lookup_entry, ih]
    by_cases hkey : key = k
    · simp [hkey, Ne.symm hne]
    · simp [hkey]

theorem mem_putEntry {e : String × FileTree} (h : e ∈ putEntry name v es) :
    e = (name, v) ∨ e ∈ es := by
  fun_induction putEntry name v es with
  | case1 => simpa using h
  | case2 k u rest hlt => simpa using h
  | case3 u rest hlt =>
    obtain h | h := List.mem_cons.1 h
    · exact .inl h
    · exact .inr (List.mem_cons_of_mem _ h)
  | case4 k u rest hlt hne ih =>
    obtain h | h := List.mem_cons.1 h
    · exact .inr (h ▸ List.mem_cons_self)
    · obtain h | h := ih h
      · exact .inl h
      · exact .inr (List.mem_cons_of_mem _ h)

theorem pairwise_putEntry (h : es.Pairwise fun e f => e.1 < f.1) :
    (putEntry name v es).Pairwise fun e f => e.1 < f.1 := by
  fun_induction putEntry name v es with
  | case1 => simp
  | case2 k u rest hlt =>
    refine List.pairwise_cons.2 ⟨fun e he => ?_, h⟩
    obtain he | he := List.mem_cons.1 he
    · exact he ▸ hlt
    · exact String.lt_trans hlt ((List.pairwise_cons.1 h).1 e he)
  | case3 u rest hlt => exact List.pairwise_cons.2 (List.pairwise_cons.1 h)
  | case4 k u rest hlt hne ih =>
    obtain ⟨hfirst, hrest⟩ := List.pairwise_cons.1 h
    refine List.pairwise_cons.2 ⟨fun e he => ?_, ih hrest⟩
    obtain he | he := mem_putEntry he
    · subst he
      exact Std.lt_of_le_of_ne (String.not_lt.1 hlt) (Ne.symm hne)
    · exact hfirst e he

/-- What is put at a place that is there already changes nothing but that place. -/
theorem put_cons (h : es.lookup name = some u) :
    put v (name :: names) (.dir es) = .dir (putEntry name (put v names u) es) := by
  rw [put, entries, h]
  rfl

theorem WellFormed.put (h : t.WellFormed) (hv : v.WellFormed) (hat : t.at? place = some u) :
    (put v place t).WellFormed := by
  induction place generalizing t with
  | nil => exact hv
  | cons name place ih =>
    obtain ⟨es, c, rfl, hlookup, hrest⟩ := at?_cons_eq_some_iff.1 hat
    have hmem := mem_of_lookup hlookup
    rw [put_cons hlookup]
    cases h with
    | dir ascending proper inner =>
      refine .dir (pairwise_putEntry ascending) (fun e he => ?_) fun e he => ?_
      · obtain rfl | he := mem_putEntry he
        · exact proper (name, c) hmem
        · exact proper e he
      · obtain rfl | he := mem_putEntry he
        · exact ih (inner _ hmem) hrest
        · exact inner e he

/-- **A directory that cannot be listed takes away what is below it and nothing else.** -/
theorem at?_put_locked (hat : t.at? place = some u) (hw : ∀ es, w ≠ .dir es) :
    (FileTree.put (.locked reason) place t).at? names = some w ↔
      (names = place ∧ w = .locked reason) ∨ (¬ place <+: names ∧ t.at? names = some w) := by
  induction place generalizing t names with
  | nil =>
    cases names with
    | nil => simp [FileTree.put, at?, eq_comm]
    | cons name names => simp [FileTree.put, at?, entries]
  | cons name place ih =>
    obtain ⟨es, c, rfl, hlookup, hrest⟩ := at?_cons_eq_some_iff.1 hat
    rw [put_cons hlookup]
    cases names with
    | nil =>
      have hne : ∀ es, FileTree.dir es ≠ w := fun es heq => hw es heq.symm
      simp [at?, hne]
    | cons key names =>
      simp only [at?, entries, lookup_putEntry, List.cons_prefix_cons, List.cons.injEq]
      by_cases hkey : key = name
      · subst hkey
        simp [hlookup, ih hrest]
      · simp [hkey, Ne.symm hkey]

end

end SymbolContext.FileTree
