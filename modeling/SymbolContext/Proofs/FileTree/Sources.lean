import SymbolContext.Proofs.FileTree.Places
import SymbolContext.WarmUp

/-!
# The source files of a tree

A walk through a tree meets its wanted files and the directories that cannot be listed, unless a
directory above them is left out. `Met` says what is met at a place, from the place alone.

* `mem_visits`: **the walk meets what is met at some place**, by induction on the tree: one case for
  each kind of tree, and `met_cons` for one step down;
* `pairwise_visits`: **in the order of the parts of the paths**, as whatever is below one entry
  comes before whatever is below the next;
* `mem_visits_put_locked`: a directory that cannot be listed is met once, and **only what is below
  it is no longer met**.
-/

namespace SymbolContext.FileTree

/-- A directory of this name is not walked through. -/
def LeftOut (s : WarmUpSettings) (dir : String) : Prop :=
  (∃ rest, dir = "." ++ rest) ∨ dir ∈ s.skipped

theorem isSkipped_iff {s : WarmUpSettings} {dir : String} :
    isSkipped s dir = true ↔ LeftOut s dir := by
  have hhidden : dir.toList.head? = some '.' ↔ ∃ rest, dir = "." ++ rest := by
    rw [List.head?_eq_some_iff]
    constructor
    · intro h
      obtain ⟨rest, hrest⟩ := h
      refine ⟨String.ofList rest, ?_⟩
      rw [← String.toList_inj, hrest]
      simp
    · intro h
      obtain ⟨rest, rfl⟩ := h
      exact ⟨rest.toList, by simp⟩
  simp [isSkipped, LeftOut, ← hhidden]

/-- The path of what is met. -/
def Visit.path : Visit → String
  | source path => path
  | unreadable path _ => path

/-- What is met at a place of a tree. -/
inductive Met (s : WarmUpSettings) (root : String) (t : FileTree) (names : List String) :
    Visit → Prop where
  | source {content : List UInt8} (file : t.at? names = some (.file content))
    (wanted : isWanted s (pathAt root names) = true)
    (reached : ∀ dir ∈ names.dropLast, ¬ LeftOut s dir) :
    Met s root t names (.source (pathAt root names))
  | unreadable {reason : String} (locked : t.at? names = some (.locked reason))
    (reached : ∀ dir ∈ names, ¬ LeftOut s dir) :
    Met s root t names (.unreadable (pathAt root names) reason)

section
variable {s : WarmUpSettings} {root : String} {t u : FileTree} {es : List (String × FileTree)}
  {name : String} {names place : List String} {v w : Visit}

theorem Met.path_eq (h : Met s root t names v) : v.path = pathAt root names := by
  cases h <;> rfl

theorem Met.exists_at? (h : Met s root t names v) : ∃ u, t.at? names = some u := by
  cases h with
  | source file => exact ⟨_, file⟩
  | unreadable locked => exact ⟨_, locked⟩

/-- Below anything but a directory there is nothing. -/
theorem exists_met_iff (hdir : ∀ es, t ≠ .dir es) :
    (∃ names, Met s root t names v) ↔ Met s root t [] v := by
  constructor
  · intro h
    obtain ⟨names, hmet⟩ := h
    obtain ⟨u, hu⟩ := hmet.exists_at?
    cases names with
    | nil => exact hmet
    | cons name names =>
      obtain ⟨es, -, ht, -⟩ := at?_cons_eq_some_iff.1 hu
      exact absurd ht (hdir es)
  · exact fun h => ⟨[], h⟩

theorem Met.parts_eq (hwell : t.WellFormed) (h : Met s root t names v) :
    Path.parts v.path = Path.parts root ++ names.map .name := by
  obtain ⟨u, hu⟩ := h.exists_at?
  rw [h.path_eq, parts_pathAt (hwell.proper_of_at? hu)]

/-- The directories above a place, from the first name on. -/
theorem forall_mem_dropLast_cons {P : String → Prop} :
    (∀ dir ∈ (name :: names).dropLast, P dir) ↔
      (names ≠ [] → P name) ∧ ∀ dir ∈ names.dropLast, P dir := by
  cases names <;> simp

/-- One step down: what is met below an entry, unless that is a directory that is left out. -/
theorem met_cons : Met s root (.dir es) (name :: names) v ↔
    ∃ c, es.lookup name = some c ∧ ¬ (c.isDir = true ∧ LeftOut s name) ∧
      Met s (Path.child root name) c names v := by
  constructor
  · intro h
    cases h with
    | @source content file wanted reached =>
      obtain ⟨_, c, hes, hlookup, hrest⟩ := at?_cons_eq_some_iff.1 file
      cases hes
      obtain ⟨hname, hnames⟩ := forall_mem_dropLast_cons.1 reached
      refine ⟨c, hlookup, fun hskip => ?_, .source hrest wanted hnames⟩
      obtain hne | hfile := (isDir_iff_of_at? hrest).1 hskip.1
      · exact hname hne hskip.2
      · cases hfile
    | @unreadable reason locked reached =>
      obtain ⟨_, c, hes, hlookup, hrest⟩ := at?_cons_eq_some_iff.1 locked
      cases hes
      obtain ⟨hname, hnames⟩ := List.forall_mem_cons.1 reached
      exact ⟨c, hlookup, fun hskip => hname hskip.2, .unreadable hrest hnames⟩
  · intro h
    obtain ⟨c, hlookup, hskip, hmet⟩ := h
    cases hmet with
    | @source content file wanted reached =>
      refine .source (at?_cons_eq_some_iff.2 ⟨es, c, rfl, hlookup, file⟩) wanted ?_
      refine forall_mem_dropLast_cons.2 ⟨fun hne hout => hskip ⟨?_, hout⟩, reached⟩
      exact (isDir_iff_of_at? file).2 (.inl hne)
    | @unreadable reason locked reached =>
      refine .unreadable (at?_cons_eq_some_iff.2 ⟨es, c, rfl, hlookup, locked⟩) ?_
      have hdir := (isDir_iff_of_at? locked).2 (.inr rfl)
      exact List.forall_mem_cons.2 ⟨fun hout => hskip ⟨hdir, hout⟩, reached⟩

theorem met_nil_dir : ¬ Met s root (.dir es) [] v := by
  intro h
  cases h with
  | source file => cases file
  | unreadable locked => cases locked

/-- What is met in a directory, entry by entry. -/
theorem visitsOf_eq (s : WarmUpSettings) (path : String) (es : List (String × FileTree)) :
    visitsOf s path es = es.flatMap fun e =>
      if e.2.isDir && isSkipped s e.1 then [] else visits s (Path.child path e.1) e.2 := by
  induction es with
  | nil => simp [visitsOf]
  | cons e rest ih => simp [visitsOf, ih]

theorem mem_visitsOf : v ∈ visitsOf s root es ↔
    ∃ e ∈ es, ¬ (e.2.isDir = true ∧ LeftOut s e.1) ∧ v ∈ visits s (Path.child root e.1) e.2 := by
  rw [visitsOf_eq, List.mem_flatMap]
  refine exists_congr fun e => and_congr_right fun _ => ?_
  rw [← isSkipped_iff, ← Bool.and_eq_true]
  split
  · simp [*]
  · simp [*]

/-- **The walk meets what is met at some place.** -/
theorem mem_visits (h : t.WellFormed) : v ∈ visits s root t ↔ ∃ names, Met s root t names v := by
  induction h generalizing root with
  | file content =>
    rw [exists_met_iff (by simp), visits]
    constructor
    · intro hmem
      split at hmem
      · rename_i hwanted
        obtain rfl := List.mem_singleton.1 hmem
        exact .source rfl hwanted (by simp)
      · cases hmem
    · intro hmet
      cases hmet with
      | source file wanted =>
        rw [if_pos (show isWanted s root = true from wanted)]
        exact List.mem_singleton_self _
      | unreadable locked => cases locked
  | link target =>
    rw [exists_met_iff (by simp), visits]
    constructor
    · intro hmem
      cases hmem
    · intro hmet
      cases hmet with
      | source file => cases file
      | unreadable locked => cases locked
  | locked reason =>
    rw [exists_met_iff (by simp), visits, List.mem_singleton]
    constructor
    · intro hv
      subst hv
      exact .unreadable rfl (by simp)
    · intro hmet
      cases hmet with
      | source file => cases file
      | unreadable locked =>
        cases locked
        rfl
  | dir ascending proper inner ih =>
    rw [visits, mem_visitsOf]
    constructor
    · intro hmem
      obtain ⟨e, he, hskip, hv⟩ := hmem
      obtain ⟨names, hmet⟩ := (ih e he).1 hv
      exact ⟨e.1 :: names, met_cons.2 ⟨e.2, lookup_of_mem ascending he, hskip, hmet⟩⟩
    · intro hmet
      obtain ⟨names, hmet⟩ := hmet
      cases names with
      | nil => exact absurd hmet met_nil_dir
      | cons name names =>
        obtain ⟨c, hlookup, hskip, hmet⟩ := met_cons.1 hmet
        have he := mem_of_lookup hlookup
        exact ⟨(name, c), he, hskip, (ih _ he).2 ⟨names, hmet⟩⟩

/-- All that is met in an entry has the name of the entry behind the parts of the directory. -/
theorem parts_of_mem_visits (h : t.WellFormed) (hname : Path.IsProper name)
    (hv : v ∈ visits s (Path.child root name) t) :
    ∃ names : List String, Path.parts v.path = Path.parts root ++ .name name :: names.map .name := by
  obtain ⟨names, hmet⟩ := (mem_visits h).1 hv
  refine ⟨names, ?_⟩
  rw [hmet.parts_eq h, Path.parts_child root hname]
  simp

/-- **The walk goes by the order of the parts.** -/
theorem pairwise_visits (h : t.WellFormed) :
    (visits s root t).Pairwise fun v w => Path.parts v.path < Path.parts w.path := by
  induction h generalizing root with
  | file content =>
    rw [visits]
    split <;> simp
  | link target => simp [visits]
  | locked reason => simp [visits]
  | dir ascending proper inner ih =>
    rw [visits, visitsOf_eq, List.pairwise_flatMap]
    constructor
    · intro e he
      split
      · exact .nil
      · exact ih e he
    · refine ascending.imp_of_mem fun {e f} he hf hlt v hv w hw => ?_
      split at hv
      · cases hv
      split at hw
      · cases hw
      obtain ⟨names, hv⟩ := parts_of_mem_visits (inner e he) (proper e he) hv
      obtain ⟨names', hw⟩ := parts_of_mem_visits (inner f hf) (proper f hf) hw
      rw [hv, hw]
      apply List.append_left_lt
      exact List.cons_lt_cons_iff.2 (.inl (Path.Part.name_lt hlt))

/-! ## A directory that cannot be listed -/

theorem met_put_locked {reason : String} (hat : t.at? place = some u)
    (hplace : ∀ dir ∈ place, ¬ LeftOut s dir) :
    Met s root (put (.locked reason) place t) names v ↔
      (names = place ∧ v = .unreadable (pathAt root place) reason) ∨
        (¬ place <+: names ∧ Met s root t names v) := by
  constructor
  · intro h
    cases h with
    | @source content file wanted reached =>
      obtain ⟨-, hfile⟩ | ⟨hbelow, hfile⟩ := (at?_put_locked hat (by simp)).1 file
      · cases hfile
      · exact .inr ⟨hbelow, .source hfile wanted reached⟩
    | @unreadable reason' locked reached =>
      obtain ⟨hnames, hlocked⟩ | ⟨hbelow, hlocked⟩ := (at?_put_locked hat (by simp)).1 locked
      · cases hlocked
        exact .inl ⟨hnames, by rw [hnames]⟩
      · exact .inr ⟨hbelow, .unreadable hlocked reached⟩
  · intro h
    obtain ⟨hnames, hv⟩ | ⟨hbelow, hmet⟩ := h
    · subst hnames hv
      exact .unreadable ((at?_put_locked hat (by simp)).2 (.inl ⟨rfl, rfl⟩)) hplace
    · cases hmet with
      | source file wanted reached =>
        exact .source ((at?_put_locked hat (by simp)).2 (.inr ⟨hbelow, file⟩)) wanted reached
      | unreadable locked reached =>
        exact .unreadable ((at?_put_locked hat (by simp)).2 (.inr ⟨hbelow, locked⟩)) reached

/-- **It is met once, and only what is below it is no longer met.** -/
theorem mem_visits_put_locked {reason : String} (hwell : t.WellFormed)
    (hat : t.at? place = some u) (hplace : ∀ dir ∈ place, ¬ LeftOut s dir) :
    v ∈ visits s root (put (.locked reason) place t) ↔
      v = .unreadable (pathAt root place) reason ∨
        (v ∈ visits s root t ∧ Path.isWithin (pathAt root place) v.path = false) := by
  have hwithin : ∀ {names}, Met s root t names v →
      (Path.isWithin (pathAt root place) v.path = false ↔ ¬ place <+: names) := by
    intro names hmet
    obtain ⟨w, hw⟩ := hmet.exists_at?
    rw [hmet.path_eq, ← Bool.not_eq_true, Path.isWithin_iff,
      parts_prefix_iff (hwell.proper_of_at? hat) (hwell.proper_of_at? hw)]
  rw [mem_visits (hwell.put (.locked reason) hat), mem_visits hwell]
  constructor
  · intro h
    obtain ⟨names, hmet⟩ := h
    obtain ⟨-, hv⟩ | ⟨hbelow, hmet⟩ := (met_put_locked hat hplace).1 hmet
    · exact .inl hv
    · exact .inr ⟨⟨names, hmet⟩, (hwithin hmet).2 hbelow⟩
  · intro h
    obtain hv | ⟨⟨names, hmet⟩, hbelow⟩ := h
    · exact ⟨place, (met_put_locked hat hplace).2 (.inl ⟨rfl, hv⟩)⟩
    · exact ⟨names, (met_put_locked hat hplace).2 (.inr ⟨(hwithin hmet).1 hbelow, hmet⟩)⟩

end

end SymbolContext.FileTree
