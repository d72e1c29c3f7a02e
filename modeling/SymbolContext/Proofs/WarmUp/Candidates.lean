import SymbolContext.Proofs.FileTree.Sources

/-!
# The candidates of a warm-up

The candidates are the source files that a walk meets, and what it cannot read is warned of.

* `isWanted_iff`: a file is wanted by **what follows the last dot of its name**;
* `collects`: the walk gives **the files that are to be collected, each once and in order**, and
  one warning for each directory that it cannot list;
* `sources_put_locked`, `unreadables_put_locked`: one more such directory costs **one warning and
  only what is below it**, as two lists in the same order with the same elements are the same.
-/

namespace SymbolContext.WarmUp

open FileTree (LeftOut Met Visit pathAt sources visits)

/-- A file that is to be collected: it is regular, its name has one of the wanted extensions, and
no directory between it and the root is left out. -/
structure IsSource (s : WarmUpSettings) (root : String) (t : FileTree) (names : List String) :
    Prop where
  regular : ∃ content, t.at? names = some (.file content)
  wanted : ∃ name stem extension, names.getLast?.or (Path.fileName? root) = some name ∧
    name = stem ++ "." ++ extension ∧ stem ≠ "" ∧ '.' ∉ extension.toList ∧
    extension ∈ s.extensions
  reached : ∀ dir ∈ names.dropLast, ¬ LeftOut s dir

/-- The paths and the reasons of what could not be read. -/
def unreadables (vs : List Visit) : List (String × String) :=
  vs.filterMap fun
    | .source _ => none
    | .unreadable path reason => some (path, reason)

def unreadableRemark (u : String × String) : Diagnostic :=
  remark .warn (FileTree.skipText u.1 u.2)

/-- **What is collected from a tree**: its source files, and the directories that are reached and
cannot be listed. -/
structure Collects (s : WarmUpSettings) (root : String) (t : FileTree) (files : List String)
    (unread : List (String × String)) : Prop where
  mem_files : ∀ path, path ∈ files ↔ ∃ names, path = pathAt root names ∧ IsSource s root t names
  ascending : files.Pairwise fun p q => Path.parts p < Path.parts q
  once : files.Nodup
  mem_unread : ∀ path reason, (path, reason) ∈ unread ↔ ∃ names, path = pathAt root names ∧
    t.at? names = some (.locked reason) ∧ ∀ dir ∈ names, ¬ LeftOut s dir
  unread_once : (unread.map Prod.fst).Nodup

section
variable {s : WarmUpSettings} {root : String} {t u : FileTree} {names place : List String}

theorem mem_sources {vs : List Visit} {path : String} :
    path ∈ sources vs ↔ .source path ∈ vs := by
  rw [sources, List.mem_filterMap]
  constructor
  · intro h
    obtain ⟨v, hv, hpath⟩ := h
    cases v with
    | source p => exact Option.some.inj hpath ▸ hv
    | unreadable p reason => cases hpath
  · exact fun h => ⟨_, h, rfl⟩

theorem mem_unreadables {vs : List Visit} {path reason : String} :
    (path, reason) ∈ unreadables vs ↔ .unreadable path reason ∈ vs := by
  rw [unreadables, List.mem_filterMap]
  constructor
  · intro h
    obtain ⟨v, hv, hpath⟩ := h
    cases v with
    | source p => cases hpath
    | unreadable p r =>
      cases hpath
      exact hv
  · exact fun h => ⟨_, h, rfl⟩

theorem collect_eq (s : WarmUpSettings) (root : String) (t : FileTree) :
    collect s root (.ok t) =
      (sources (visits s root t), (unreadables (visits s root t)).map unreadableRemark) := by
  have hremarks : ∀ vs, (FileTree.complaints vs).map (remark .warn) =
      (unreadables vs).map unreadableRemark := by
    intro vs
    rw [FileTree.complaints, unreadables, List.map_filterMap, List.map_filterMap]
    congr 1
    funext v
    cases v <;> rfl
  rw [collect, hremarks]

theorem isWanted_iff (h : ∀ name ∈ names, Path.IsProper name) :
    FileTree.isWanted s (pathAt root names) = true ↔
      ∃ name stem extension, names.getLast?.or (Path.fileName? root) = some name ∧
        name = stem ++ "." ++ extension ∧ stem ≠ "" ∧ '.' ∉ extension.toList ∧
        extension ∈ s.extensions := by
  have hwanted : FileTree.isWanted s (pathAt root names) = true ↔
      ∃ extension, Path.extension? (pathAt root names) = some extension ∧
        extension ∈ s.extensions := by
    unfold FileTree.isWanted
    cases Path.extension? (pathAt root names) <;> simp
  rw [hwanted, Path.extension?, FileTree.fileName?_pathAt h]
  simp only [Option.bind_eq_some_iff, Path.splitName_eq_iff]
  constructor
  · intro h
    obtain ⟨extension, ⟨name, hname, stem, hstem, hdot, htext⟩, hmem⟩ := h
    exact ⟨name, stem, extension, hname, htext, hstem, hdot, hmem⟩
  · intro h
    obtain ⟨name, stem, extension, hname, htext, hstem, hdot, hmem⟩ := h
    exact ⟨extension, ⟨name, hname, stem, hstem, hdot, htext⟩, hmem⟩

theorem met_source_iff (hwell : t.WellFormed) {path : String} :
    Met s root t names (.source path) ↔ path = pathAt root names ∧ IsSource s root t names := by
  constructor
  · intro h
    cases h with
    | source file wanted reached =>
      exact ⟨rfl, ⟨_, file⟩, (isWanted_iff (hwell.proper_of_at? file)).1 wanted, reached⟩
  · intro h
    obtain ⟨rfl, ⟨content, file⟩, wanted, reached⟩ := h
    exact .source file ((isWanted_iff (hwell.proper_of_at? file)).2 wanted) reached

theorem met_unreadable_iff {path reason : String} :
    Met s root t names (.unreadable path reason) ↔ path = pathAt root names ∧
      t.at? names = some (.locked reason) ∧ ∀ dir ∈ names, ¬ LeftOut s dir := by
  constructor
  · intro h
    cases h with
    | unreadable locked reached => exact ⟨rfl, locked, reached⟩
  · intro h
    obtain ⟨rfl, locked, reached⟩ := h
    exact .unreadable locked reached

/-! ## Order -/

theorem ne_of_parts_lt {p q : String} (h : Path.parts p < Path.parts q) : p ≠ q := by
  intro heq
  exact List.lt_irrefl _ (heq ▸ h)

/-- What is picked from a walk by its path keeps its order. -/
theorem pairwise_filterMap_visits {α : Type} (hwell : t.WellFormed) {pick : Visit → Option α}
    (path : α → String) (hpick : ∀ v a, pick v = some a → path a = v.path) :
    ((visits s root t).filterMap pick).Pairwise fun a b =>
      Path.parts (path a) < Path.parts (path b) := by
  rw [List.pairwise_filterMap]
  refine (FileTree.pairwise_visits hwell).imp fun {v w} hlt a ha b hb => ?_
  rwa [hpick v a ha, hpick w b hb]

theorem pairwise_sources (s : WarmUpSettings) (root : String) (hwell : t.WellFormed) :
    (sources (visits s root t)).Pairwise fun p q => Path.parts p < Path.parts q := by
  apply pairwise_filterMap_visits hwell id
  intro v p hp
  cases v <;> cases hp
  rfl

theorem pairwise_unreadables (s : WarmUpSettings) (root : String) (hwell : t.WellFormed) :
    (unreadables (visits s root t)).Pairwise fun u v => Path.parts u.1 < Path.parts v.1 := by
  apply pairwise_filterMap_visits hwell Prod.fst
  intro v u hu
  cases v <;> cases hu
  rfl

/-- **The walk gives what is to be collected.** -/
theorem collects (s : WarmUpSettings) (root : String) (hwell : t.WellFormed) :
    Collects s root t (sources (visits s root t)) (unreadables (visits s root t)) where
  mem_files path := by
    rw [mem_sources, FileTree.mem_visits hwell]
    exact exists_congr fun names => met_source_iff hwell
  ascending := pairwise_sources s root hwell
  once := (pairwise_sources s root hwell).imp ne_of_parts_lt
  mem_unread path reason := by
    rw [mem_unreadables, FileTree.mem_visits hwell]
    exact exists_congr fun names => met_unreadable_iff
  unread_once := List.pairwise_map.2 ((pairwise_unreadables s root hwell).imp ne_of_parts_lt)

/-! ## A directory that cannot be listed -/

section
variable {reason : String} (hwell : t.WellFormed) (hat : t.at? place = some u)
  (hplace : ∀ dir ∈ place, ¬ LeftOut s dir)
include hwell hat hplace

theorem sources_put_locked :
    sources (visits s root (FileTree.put (.locked reason) place t)) =
      (sources (visits s root t)).filter (!Path.isWithin (pathAt root place) ·) := by
  have hold := (pairwise_sources s root hwell).filter
    (!Path.isWithin (pathAt root place) ·)
  have hnew := pairwise_sources s root (hwell.put (.locked reason) hat)
  have hmem : ∀ path, path ∈ sources (visits s root (FileTree.put (.locked reason) place t)) ↔
      path ∈ (sources (visits s root t)).filter (!Path.isWithin (pathAt root place) ·) := by
    intro path
    rw [mem_sources, FileTree.mem_visits_put_locked hwell hat hplace, List.mem_filter, mem_sources]
    simp [Visit.path]
  have hperm := (List.perm_ext_iff_of_nodup (hnew.imp ne_of_parts_lt)
    (hold.imp ne_of_parts_lt)).2 hmem
  exact hperm.eq_of_pairwise (fun _ _ _ _ hlt hgt => absurd hgt (List.lt_asymm hlt)) hnew hold

theorem unreadables_put_locked :
    (unreadables (visits s root (FileTree.put (.locked reason) place t))).Perm
      ((pathAt root place, reason) ::
        (unreadables (visits s root t)).filter (!Path.isWithin (pathAt root place) ·.1)) := by
  have hne : ∀ {u v : String × String}, Path.parts u.1 < Path.parts v.1 → u ≠ v :=
    fun hlt heq => ne_of_parts_lt hlt (congrArg Prod.fst heq)
  have hold := (pairwise_unreadables s root hwell).filter
    (!Path.isWithin (pathAt root place) ·.1)
  have hnew := pairwise_unreadables s root (hwell.put (.locked reason) hat)
  have hself : Path.isWithin (pathAt root place) (pathAt root place) = true :=
    Path.isWithin_iff.2 (List.prefix_refl _)
  have hnodup := List.nodup_cons.2 ⟨show (pathAt root place, reason) ∉
    (unreadables (visits s root t)).filter (!Path.isWithin (pathAt root place) ·.1) by simp [hself],
    hold.imp hne⟩
  refine (List.perm_ext_iff_of_nodup (hnew.imp hne) hnodup).2 fun u => ?_
  obtain ⟨path, why⟩ := u
  rw [mem_unreadables, FileTree.mem_visits_put_locked hwell hat hplace, List.mem_cons,
    List.mem_filter, mem_unreadables]
  simp [Visit.path]

end

/-- **What is collected as candidates**: exactly the source files of a tree, each once and in the
order of the parts of their paths, whatever the root is called. A directory that cannot be listed
costs one warning and the files below it. -/
theorem collect_exact (s : WarmUpSettings) (root : String) (hwell : t.WellFormed) :
    ∃ unread, Collects s root t (collect s root (.ok t)).1 unread ∧
      (collect s root (.ok t)).2 = unread.map unreadableRemark ∧
      (∀ place u reason, t.at? place = some u → (∀ dir ∈ place, ¬ LeftOut s dir) →
        let locked := collect s root (.ok (FileTree.put (.locked reason) place t))
        let within := Path.isWithin (pathAt root place)
        locked.1 = (collect s root (.ok t)).1.filter (!within ·) ∧
        locked.2.Perm (unreadableRemark (pathAt root place, reason) ::
          (unread.filter (!within ·.1)).map unreadableRemark)) ∧
      ∀ reason, collect s root (.error reason) = ([], [unreadableRemark (root, reason)]) := by
  refine ⟨unreadables (visits s root t), ?_, ?_, ?_, fun _ => rfl⟩
  · rw [collect_eq]
    exact collects s root hwell
  · rw [collect_eq]
  · intro place u reason hat hplace
    rw [collect_eq, collect_eq]
    exact ⟨sources_put_locked hwell hat hplace,
      (unreadables_put_locked hwell hat hplace).map unreadableRemark⟩

end

/-- A hidden root; a hidden file and one that is called like a directory to leave out; a directory
whose name begins like that of a file. -/
theorem collect_exact_hidden_root :
    let s : WarmUpSettings := { skipped := ["build", "z.cpp"] }
    let t : FileTree := .dir [(".a.cpp", .file []), (".git", .dir [("x.cpp", .file [])]),
      ("build", .dir [("y.cpp", .file [])]),
      ("lib", .dir [("b.h.cc", .file []), ("z.cpp", .file [])]),
      ("lib-a.cc", .file []), ("link.cc", .link "lib-a.cc")]
    t.WellFormed ∧
      (collect s "/.w" (.ok t)).1 =
        ["/.w/.a.cpp", "/.w/lib/b.h.cc", "/.w/lib/z.cpp", "/.w/lib-a.cc"] ∧
      ∀ reason, (collect s "/.w" (.ok (FileTree.put (.locked reason) ["lib"] t))).1 =
        ["/.w/.a.cpp", "/.w/lib-a.cc"] := by
  intro s t
  have hwell : t.WellFormed := by
    refine .dir (by decide +kernel) (by decide +kernel) ?_
    simp only [List.forall_mem_cons]
    refine ⟨.file _, .dir ?_ ?_ ?_, .dir ?_ ?_ ?_, .dir ?_ ?_ ?_, .file _, .link _, by simp⟩
    all_goals first
      | decide +kernel
      | simp [FileTree.WellFormed.file]
  have hfiles : (collect s "/.w" (.ok t)).1 =
      ["/.w/.a.cpp", "/.w/lib/b.h.cc", "/.w/lib/z.cpp", "/.w/lib-a.cc"] := by decide +kernel
  refine ⟨hwell, hfiles, fun reason => ?_⟩
  obtain ⟨unread, -, -, hlocked, -⟩ := collect_exact s "/.w" hwell
  have hplace : ∀ dir ∈ ["lib"], ¬ LeftOut s dir := by
    rw [List.forall_mem_singleton, ← FileTree.isSkipped_iff]
    decide +kernel
  rw [(hlocked ["lib"] _ reason rfl hplace).1, hfiles]
  decide +kernel

end SymbolContext.WarmUp
