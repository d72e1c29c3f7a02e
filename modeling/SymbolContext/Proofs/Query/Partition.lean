import SymbolContext.Proofs.Query.References
import SymbolContext.Proofs.Text.ByteOrder
import SymbolContext.Proofs.Uri.File

/-!
# The files of some references

Grouping takes the references apart by the URIs of their files.

* `mem_byFile`: the groups are **the references with one URI, in their order**, and none is empty.
* `perm_flatMap_add`: adding a reference to the groups adds it once, so **nothing is lost and
  nothing is there twice** (`perm_flatMap_byFile`).
* `mem_group_iff`: an absolute path is read back from its URI, so **a group is a file**, and what is
  shown for it is headed by the path of each of its references.
-/

namespace SymbolContext.Query

open Trace (Ran)

section
variable {references : List Location} {uri : String} {group : List Location}

theorem mem_byFile :
    (uri, group) ∈ byFile references ↔
      group ≠ [] ∧ group = references.filter fun r => r.uriText = uri := by
  obtain ⟨uris, hfiles, hgroups⟩ := isGrouping_byFile references
  rw [hgroups, List.mem_map]
  constructor
  · rintro ⟨_, hu, h⟩
    cases h
    exact ⟨inFile_ne_nil ((hfiles.mem_iff uri).1 hu), rfl⟩
  · rintro ⟨hne, rfl⟩
    obtain ⟨r, hr⟩ := List.exists_mem_of_ne_nil _ hne
    obtain ⟨hmem, huri⟩ := List.mem_filter.1 hr
    exact ⟨uri, (hfiles.mem_iff uri).2 ⟨r, hmem, of_decide_eq_true huri⟩, rfl⟩

/-- The keys ascend, also as octets. -/
theorem pairwise_keys (references : List Location) :
    ((byFile references).map Prod.fst).Pairwise fun a b => Utf8.encode a < Utf8.encode b := by
  obtain ⟨uris, hfiles, hgroups⟩ := isGrouping_byFile references
  have hkeys : (byFile references).map Prod.fst = uris := by simp [hgroups, Function.comp_def]
  rw [hkeys]
  exact hfiles.ascending.imp fun h => Utf8.encode_lt h

theorem mem_group {g : String × List Location} (hg : g ∈ byFile references) {l : Location} :
    l ∈ g.2 ↔ l ∈ references ∧ l.uriText = g.1 := by
  rw [(mem_byFile.1 hg).2, List.mem_filter, decide_eq_true_iff]

/-- A key has one group. -/
theorem eq_of_key {g g' : String × List Location} (hg : g ∈ byFile references)
    (hg' : g' ∈ byFile references) (h : g'.1 = g.1) : g' = g := by
  refine Prod.ext h ?_
  rw [(mem_byFile.1 hg).2, (mem_byFile.1 hg').2, h]

end

/-! ## Every reference once -/

theorem perm_flatMap_add (key : String) (l : Location) (groups : Groups) :
    ((groups.add key l).flatMap Prod.snd).Perm (groups.flatMap Prod.snd ++ [l]) := by
  fun_induction Groups.add key l groups with
  | case1 => simp
  | case2 k ls rest hlt =>
    rw [List.flatMap_cons]
    exact List.perm_append_comm
  | case3 ls rest hlt =>
    simp only [List.flatMap_cons, List.append_assoc]
    exact List.perm_append_comm.append_left ls
  | case4 k ls rest hlt hne ih =>
    simp only [List.flatMap_cons, List.append_assoc]
    exact ih.append_left ls

theorem perm_flatMap_byFile (references : List Location) :
    ((byFile references).flatMap Prod.snd).Perm references := by
  induction references using List.reverseRecOn with
  | nil => exact .nil
  | append_singleton references l ih =>
    rw [byFile_concat]
    exact (perm_flatMap_add l.uriText l _).trans (ih.append_right [l])

/-! ## Files -/

section
variable {references : List Location}

theorem uriText_inj {a b : Location} (ha : Path.isAbsolute a.path = true)
    (hb : Path.isAbsolute b.path = true) : a.uriText = b.uriText ↔ a.path = b.path := by
  constructor
  · exact Uri.fileText_injective ha hb
  · intro h
    rw [Location.uriText, h, ← Location.uriText]

/-- **A group is a file**: the references with the path of its first one. -/
theorem mem_group_iff (habs : ∀ l ∈ references, Path.isAbsolute l.path = true)
    {g : String × List Location} (hg : g ∈ byFile references) {l : Location}
    (hl : l ∈ references) : l ∈ g.2 ↔ l.path = pathOf g.2 := by
  obtain ⟨r, rest, hcons⟩ := List.exists_cons_of_ne_nil (mem_byFile.1 hg).1
  obtain ⟨hr, huri⟩ := (mem_group hg).1 (hcons ▸ List.mem_cons_self : r ∈ g.2)
  have hpath : pathOf g.2 = r.path := by rw [hcons]; rfl
  rw [mem_group hg, ← huri, hpath, uriText_inj (habs l hl) (habs r hr)]
  exact and_iff_right hl

end

/-- **References are taken apart by file.** The keys ascend in the order of their octets, and the
group of a key is not empty and has the references with this URI, in their order; every reference
is in one group, as often as it was found. If all paths are absolute, a group has the references
with one path, and a file is read and shown under this path. -/
theorem references_partitioned (references : List Location) :
    ((byFile references).map Prod.fst).Pairwise (fun a b => Utf8.encode a < Utf8.encode b) ∧
    (∀ uri group, (uri, group) ∈ byFile references ↔
      group ≠ [] ∧ group = references.filter fun r => r.uriText = uri) ∧
    ((byFile references).flatMap Prod.snd).Perm references ∧
    (∀ l ∈ references, ∃ g ∈ byFile references, l ∈ g.2 ∧
      ∀ g' ∈ byFile references, l ∈ g'.2 → g' = g) ∧
    ((∀ l ∈ references, Path.isAbsolute l.path = true) →
      (∀ g ∈ byFile references, ∀ a ∈ g.2, ∀ b ∈ g.2, a.path = b.path) ∧
      (∀ g ∈ byFile references, ∀ g' ∈ byFile references, ∀ a ∈ g.2, ∀ b ∈ g'.2,
        a.path ≠ b.path → g.1 ≠ g'.1) ∧
      ∀ g ∈ byFile references, ∃ path, (∀ l ∈ g.2, l.path = path) ∧
        ∀ (o : Oracle) (context : Nat) (log : List Event), ∃ answer block events,
          Ran (showFile o.surroundings context g.2) log block events ∧
          reads events = [.readText path answer] ∧
          (∀ text, answer = .ok text → block =
            "---\n\n" ++ path ++ "\nReferences in File: " ++ Decimal.text g.2.length ++ "\n" ++
              ("At: " ++ Text.join ", " (g.2.map startText) ++ "\n\n" ++
                Excerpt.excerpt (Text.pieces text)
                  (referenceWindows g.2 (Text.pieces text) context))) ∧
          ∀ reason, answer = .error reason → block =
            "---\n\n" ++ path ++ "\nReferences in File: " ++ Decimal.text g.2.length ++ "\n" ++
              ("\nError reading file: " ++ reason)) := by
  refine ⟨pairwise_keys references, fun _ _ => mem_byFile, perm_flatMap_byFile references,
    fun l hl => ?_, fun habs => ?_⟩
  · obtain ⟨g, hg, hlg⟩ := List.mem_flatMap.1 ((perm_flatMap_byFile references).mem_iff.2 hl)
    refine ⟨g, hg, hlg, fun g' hg' hlg' => eq_of_key hg hg' ?_⟩
    rw [← ((mem_group hg).1 hlg).2, ((mem_group hg').1 hlg').2]
  · have hpath : ∀ g ∈ byFile references, ∀ l ∈ g.2, l.path = pathOf g.2 := fun g hg l hl =>
      (mem_group_iff habs hg ((mem_group hg).1 hl).1).1 hl
    refine ⟨fun g hg a ha b hb => ?_, fun g hg g' hg' a ha b hb hne hkey => ?_, fun g hg => ?_⟩
    · rw [hpath g hg a ha, hpath g hg b hb]
    · rw [hpath g hg a ha, hpath g' hg' b hb, eq_of_key hg' hg hkey] at hne
      exact hne rfl
    · refine ⟨pathOf g.2, hpath g hg, fun o context log => ?_⟩
      obtain ⟨answer, events, hran, -, hreads⟩ :=
        ran_showFile o context (mem_byFile.1 hg).1 log
      refine ⟨answer, _, events, hran, hreads, ?_, ?_⟩
      · rintro text rfl
        rfl
      · rintro reason rfl
        rfl

/-- Two files whose references cross, one of them with a reference that was found twice. -/
theorem references_partitioned_crossing :
    let b : Nat → Location := fun line => ⟨"/b.c", .point ⟨line, 0⟩⟩
    let a : Location := ⟨"/a é", .point ⟨0, 0⟩⟩
    let references := [b 1, a, b 0, b 1]
    (∀ l ∈ references, Path.isAbsolute l.path = true) ∧
      ("file:///b.c", [b 1, b 0, b 1]) ∈ byFile references ∧
      ∀ g ∈ byFile references, a ∈ g.2 → ∀ l ∈ g.2, l.path = "/a é" := by
  intro b a references
  have habs : ∀ l ∈ references, Path.isAbsolute l.path = true := by
    simp only [references, List.forall_mem_cons]
    decide
  obtain ⟨-, hmem, -, -, hfile⟩ := references_partitioned references
  refine ⟨habs, (hmem _ _).2 ⟨List.cons_ne_nil _ _, by decide +kernel⟩, fun g hg ha l hl => ?_⟩
  exact (hfile habs).1 g hg l hl a ha

end SymbolContext.Query
