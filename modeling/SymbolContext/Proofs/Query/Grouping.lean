import SymbolContext.Query.References
import Mathlib.Algebra.BigOperators.Group.List.Lemmas
import Mathlib.Algebra.GroupWithZero.Nat
import Mathlib.Data.List.Induction

/-!
# References by file

References are added to their groups one by one. After each, the groups are the files of the
references so far, in ascending order of their URIs, each with its references in their order
(`IsGrouping`).

* `isGrouping_add`: **one more reference keeps the groups in order and complete**, whether its file
  is new or not.
* `isGrouping_byFile`: so they are after all of them.
* `sum_counts`: the sizes of the groups add up to the number of references.
-/

namespace SymbolContext.Query

/-- The references in the file with a URI, in their order. -/
def inFile (references : List Location) (uri : String) : List Location :=
  references.filter fun r => r.uriText = uri

/-- The URIs of the files of some references, in ascending order, each once. -/
structure IsFiles (references : List Location) (uris : List String) : Prop where
  ascending : uris.Pairwise (· < ·)
  mem_iff : ∀ uri, uri ∈ uris ↔ ∃ r ∈ references, r.uriText = uri

/-- The groups of some references. -/
def IsGrouping (references : List Location) (groups : Groups) : Prop :=
  ∃ uris, IsFiles references uris ∧ groups = uris.map fun uri => (uri, inFile references uri)

theorem inFile_concat (references : List Location) (l : Location) (uri : String) :
    inFile (references ++ [l]) uri =
      if l.uriText = uri then inFile references uri ++ [l] else inFile references uri := by
  unfold inFile
  rw [List.filter_append]
  split <;> simp [*]

theorem inFile_eq_nil {references : List Location} {uri : String}
    (h : ¬ ∃ r ∈ references, r.uriText = uri) : inFile references uri = [] := by
  simpa [inFile] using h

theorem inFile_ne_nil {references : List Location} {uri : String}
    (h : ∃ r ∈ references, r.uriText = uri) : inFile references uri ≠ [] := by
  simpa [inFile] using h

/-! ## One more reference -/

/-- Put a URI in its place among ascending ones, if it is not there. -/
def place (key : String) : List String → List String
  | [] => [key]
  | uri :: rest =>
    if key < uri then key :: uri :: rest
    else if key = uri then uri :: rest
    else uri :: place key rest

theorem mem_place {key uri : String} {uris : List String} :
    uri ∈ place key uris ↔ uri = key ∨ uri ∈ uris := by
  fun_induction place key uris with
  | case1 => simp
  | case2 u rest hlt => simp
  | case3 rest hlt => simp
  | case4 u rest hlt heq ih =>
    rw [List.mem_cons, ih, List.mem_cons]
    exact or_left_comm

theorem pairwise_place {key : String} {uris : List String} (h : uris.Pairwise (· < ·)) :
    (place key uris).Pairwise (· < ·) := by
  fun_induction place key uris with
  | case1 => exact List.pairwise_singleton _ _
  | case2 u rest hlt =>
    refine List.pairwise_cons.2 ⟨fun x hx => ?_, h⟩
    rcases List.mem_cons.1 hx with rfl | hx
    · exact hlt
    · exact String.lt_trans hlt ((List.pairwise_cons.1 h).1 x hx)
  | case3 rest hlt => exact h
  | case4 u rest hlt heq ih =>
    obtain ⟨hu, hrest⟩ := List.pairwise_cons.1 h
    have hbelow : u < key :=
      String.not_le.1 fun hle => heq (String.le_antisymm hle (String.not_lt.1 hlt))
    refine List.pairwise_cons.2 ⟨fun x hx => ?_, ih hrest⟩
    rcases mem_place.1 hx with rfl | hx
    · exact hbelow
    · exact hu x hx

/-- Adding a reference to groups that are given by their URIs and a function. -/
theorem add_map {key : String} {l : Location} {group group' : String → List Location}
    (hkey : group' key = group key ++ [l]) (hother : ∀ uri, uri ≠ key → group' uri = group uri)
    {uris : List String} (hasc : uris.Pairwise (· < ·)) (hnew : key ∉ uris → group key = []) :
    Groups.add key l (uris.map fun uri => (uri, group uri)) =
      (place key uris).map fun uri => (uri, group' uri) := by
  have hkept : ∀ rest : List String, key ∉ rest →
      (rest.map fun uri => (uri, group' uri)) = rest.map fun uri => (uri, group uri) :=
    fun rest hk => List.map_congr_left fun uri hm => by
      rw [hother uri fun heq => hk (heq ▸ hm)]
  fun_induction place key uris with
  | case1 => simp [Groups.add, hkey, hnew]
  | case2 u rest hlt =>
    have hnot : key ∉ u :: rest := by
      intro hm
      rcases List.mem_cons.1 hm with rfl | hm
      · exact String.lt_irrefl _ hlt
      · exact String.lt_irrefl _ (String.lt_trans hlt ((List.pairwise_cons.1 hasc).1 key hm))
    rw [List.map_cons, Groups.add, if_pos hlt, List.map_cons, hkept _ hnot, hkey, hnew hnot]
    rfl
  | case3 rest hlt =>
    have hnot : key ∉ rest := fun hm =>
      String.lt_irrefl _ ((List.pairwise_cons.1 hasc).1 key hm)
    rw [List.map_cons, Groups.add, if_neg hlt, if_pos rfl, List.map_cons, hkept _ hnot, hkey]
  | case4 u rest hlt heq ih =>
    have hadd := ih (List.pairwise_cons.1 hasc).2 fun hk => hnew fun hm =>
      (List.mem_cons.1 hm).elim heq hk
    rw [List.map_cons, Groups.add, if_neg hlt, if_neg heq, hadd, List.map_cons,
      hother u (Ne.symm heq)]

/-- **One more reference** goes behind those of its file, or into a group of its own. -/
theorem isGrouping_add {references : List Location} {groups : Groups}
    (h : IsGrouping references groups) (l : Location) :
    IsGrouping (references ++ [l]) (groups.add l.uriText l) := by
  obtain ⟨uris, ⟨hasc, hmem⟩, rfl⟩ := h
  have hkey : inFile (references ++ [l]) l.uriText = inFile references l.uriText ++ [l] := by
    rw [inFile_concat, if_pos rfl]
  have hother : ∀ uri, uri ≠ l.uriText →
      inFile (references ++ [l]) uri = inFile references uri := fun uri hne => by
    rw [inFile_concat, if_neg (Ne.symm hne)]
  have hnew : l.uriText ∉ uris → inFile references l.uriText = [] := fun hn =>
    inFile_eq_nil fun hr => hn ((hmem _).2 hr)
  refine ⟨place l.uriText uris, ⟨pairwise_place hasc, fun uri => ?_⟩,
    add_map hkey hother hasc hnew⟩
  rw [mem_place, hmem]
  simp only [List.mem_append, List.mem_singleton]
  constructor
  · rintro (rfl | ⟨r, hr, rfl⟩)
    · exact ⟨l, .inr rfl, rfl⟩
    · exact ⟨r, .inl hr, rfl⟩
  · rintro ⟨r, hr | rfl, rfl⟩
    · exact .inr ⟨r, hr, rfl⟩
    · exact .inl rfl

theorem byFile_concat (references : List Location) (l : Location) :
    byFile (references ++ [l]) = (byFile references).add l.uriText l := by
  simp [byFile]

/-- **References are grouped by file**: ascending URIs, each with all its references in order. -/
theorem isGrouping_byFile (references : List Location) :
    IsGrouping references (byFile references) := by
  induction references using List.reverseRecOn with
  | nil => exact ⟨[], ⟨List.Pairwise.nil, by simp⟩, rfl⟩
  | append_singleton references l ih =>
    rw [byFile_concat]
    exact isGrouping_add ih l

theorem length_inFile (references : List Location) (uri : String) :
    (inFile references uri).length = (references.map Location.uriText).count uri := by
  rw [inFile, List.count, List.countP_map, List.countP_eq_length_filter]
  congr 1

/-- **The sizes of the groups add up to the number of references.** -/
theorem sum_counts {references : List Location} {uris : List String}
    (h : IsFiles references uris) :
    (uris.map fun uri => (inFile references uri).length).sum = references.length := by
  have hnodup : uris.Nodup := by
    refine List.Pairwise.imp (fun {a b} hlt => ?_) h.ascending
    rintro rfl
    exact String.lt_irrefl a hlt
  have hperm : uris.Perm (references.map Location.uriText).dedup := by
    rw [List.perm_ext_iff_of_nodup hnodup (List.nodup_dedup _)]
    intro uri
    rw [h.mem_iff, List.mem_dedup, List.mem_map]
  calc (uris.map fun uri => (inFile references uri).length).sum
      = (uris.map fun uri => (references.map Location.uriText).count uri).sum := by
        simp only [length_inFile]
    _ = ((references.map Location.uriText).dedup.map fun uri =>
          (references.map Location.uriText).count uri).sum := (hperm.map _).sum_eq
    _ = references.length := by
        rw [List.sum_map_count_dedup_eq_length, List.length_map]

end SymbolContext.Query
