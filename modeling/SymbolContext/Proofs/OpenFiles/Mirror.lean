import SymbolContext.Proofs.OpenFiles.History

/-!
# The server's view of the open files

The server knows a file by the text of its URI, the open files know it by the parts of its path.
The URI keeps the spelling of the path and the parts do not, so the two views need not agree.

* `Mirror.hear` is the server's side: a URI is opened if it is not open and changed if it is.
* `Follows`: **the texts that the server has**, as long as each file is spelled in one way.
* `faithful_iff_one_spelling`: **the two views agree just in that case**.
* `not_faithful_respelled`: a file that is opened again under another spelling is sent as a change
  of a URI that was never opened.
-/

namespace SymbolContext.OpenFiles

/-! ## The server -/

/-- The texts that a server has, by the URIs that are open. -/
abbrev Mirror := String → Option String

namespace Mirror

def blank : Mirror := fun _ => none

def set (m : Mirror) (uri text : String) : Mirror := fun u => if u = uri then some text else m u

theorem set_self (m : Mirror) (uri text : String) : m.set uri text uri = some text := if_pos rfl

theorem set_of_ne (m : Mirror) {uri u : String} (text : String) (h : u ≠ uri) :
    m.set uri text u = m u := if_neg h

/-- What the server makes of a notice: only a URI that is not open can be opened, and only one that
is open can be changed. -/
def hear (m : Mirror) : FileNotice → Option Mirror
  | .opened uri _ _ text => if (m uri.text).isSome then none else some (m.set uri.text text)
  | .changed uri _ text => if (m uri.text).isSome then some (m.set uri.text text) else none

end Mirror

/-- The notices that the client accepted, in the order of sending. -/
def told (ds : List Deed) : List FileNotice := (accepted ds).map Prod.snd

theorem told_concat (ds : List Deed) (d : Deed) :
    told (ds ++ [d]) = told ds ++ d.accepted.map Prod.snd := by
  unfold told
  rw [accepted_concat, List.map_append]

/-- What the server has after some notices, if none is illegal. -/
def replay (ns : List FileNotice) : Option Mirror := ns.foldlM Mirror.hear Mirror.blank

theorem replay_concat (ns : List FileNotice) (n : FileNotice) :
    replay (ns ++ [n]) = (replay ns).bind fun m => m.hear n := by
  unfold replay
  rw [List.foldlM_append]
  cases ns.foldlM Mirror.hear Mirror.blank with
  | none => rfl
  | some m => exact bind_pure (m.hear n)

variable {δ : Type}

/-- The notice for a file is legal if the server has the file just when the open files have it. -/
theorem hear_notice (m : Mirror) (o : OpenFiles δ) (path content : String) (uri : Uri) :
    m.hear (o.notice path content uri) =
      if (m uri.text).isSome = (o.find? (Path.parts path)).isSome then
        some (m.set uri.text content)
      else none := by
  unfold notice
  cases (o.find? (Path.parts path)).isSome with
  | true => rfl
  | false => cases hm : (m uri.text).isSome <;> simp [Mirror.hear, hm]

/-! ## Clients that accept every notice -/

variable (digest : String → δ) [DecidableEq δ]

/-- What a call comes to if its notice would be accepted. -/
theorem carryOut_of_accepting (o : OpenFiles δ) {c : Call} (ha : c.answer = .ok ()) :
    (o.isCurrent digest c.path c.content = true ∧ (carryOut digest o c).1.accepted = []) ∨
    (o.isCurrent digest c.path c.content = false ∧ (carryOut digest o c).1.accepted =
      [(c, o.notice c.path c.content (Uri.fileUri c.path))]) := by
  rcases carryOut_cases digest o c with ⟨hcur, hc⟩ | ⟨-, e, he, -⟩ | ⟨hcur, -, hc⟩
  · refine .inl ⟨hcur, ?_⟩
    simp [hc, Deed.accepted, ha]
  · rw [ha] at he
    cases he
  · refine .inr ⟨hcur, ?_⟩
    simp [hc, Deed.accepted, ha]

theorem map_call_run (calls : List Call) : (run digest calls).2.map Deed.call = calls := by
  induction calls using List.reverseRecOn with
  | nil => rfl
  | append_singleton calls c ih =>
    rw [run_concat, List.map_append, ih]
    rfl

/-- Every notice was sent by one of the calls. -/
theorem mem_of_last? {calls : List Call} {parts : List Path.Part} {x : Call × FileNotice}
    (h : last? (run digest calls).2 parts = some x) : x.1 ∈ calls := by
  have hm : x ∈ accepted (run digest calls).2 :=
    (List.mem_filter.1 (List.mem_of_getLast? h)).1
  obtain ⟨d, hd, hx⟩ := List.mem_flatMap.1 hm
  have hcall : x.1 = d.call := by
    unfold Deed.accepted at hx
    split at hx
    · obtain ⟨n, -, rfl⟩ := List.mem_map.1 hx
      rfl
    · cases hx
  rw [hcall, ← map_call_run digest calls]
  exact List.mem_map_of_mem hd

theorem run_succeeds {calls : List Call} (hok : ∀ c ∈ calls, c.answer = .ok ()) :
    ∀ d ∈ (run digest calls).2, ∃ r, d.result = .ok r := by
  induction calls using List.reverseRecOn with
  | nil => intro d hd; cases hd
  | append_singleton calls c ih =>
    intro d hd
    rw [run_concat] at hd
    rcases List.mem_append.1 hd with hd | hd
    · exact ih (fun c' hc' => hok c' (List.mem_append_left _ hc')) d hd
    · cases List.mem_singleton.1 hd
      exact carryOut_succeeds digest _ (hok c (by simp))

/-- A file is open if there was a call for it. -/
theorem tracked_iff {calls : List Call} (hok : ∀ c ∈ calls, c.answer = .ok ())
    (parts : List Path.Part) :
    ((run digest calls).1.find? parts).isSome = true ↔ ∃ c ∈ calls, Path.parts c.path = parts := by
  rw [(run_inv digest calls).tracked]
  constructor
  · rintro ⟨d, hd, hp, -⟩
    refine ⟨d.call, ?_, hp⟩
    have hm := List.mem_map_of_mem (f := Deed.call) hd
    rwa [map_call_run] at hm
  · rintro ⟨c, hc, hp⟩
    rw [← map_call_run digest calls] at hc
    obtain ⟨d, hd, rfl⟩ := List.mem_map.1 hc
    exact ⟨d, hd, hp, run_succeeds digest hok d hd⟩

/-! ## One spelling for each file -/

/-- No two calls spell a file in different ways. -/
def OneSpelling (calls : List Call) : Prop :=
  ∀ c ∈ calls, ∀ d ∈ calls, Path.parts c.path = Path.parts d.path → c.path = d.path

theorem oneSpelling_concat {calls : List Call} {c : Call} :
    OneSpelling (calls ++ [c]) ↔ OneSpelling calls ∧
      ∀ d ∈ calls, Path.parts d.path = Path.parts c.path → d.path = c.path := by
  constructor
  · intro h
    refine ⟨fun d hd e he => h d (List.mem_append_left _ hd) e (List.mem_append_left _ he),
      fun d hd => h d (List.mem_append_left _ hd) c (by simp)⟩
  · rintro ⟨h, hc⟩ d hd e he hp
    rcases List.mem_append.1 hd with hd | hd <;> rcases List.mem_append.1 he with he | he
    · exact h d hd e he hp
    · cases List.mem_singleton.1 he
      exact hc d hd hp
    · cases List.mem_singleton.1 hd
      exact (hc e he hp.symm).symm
    · cases List.mem_singleton.1 hd
      cases List.mem_singleton.1 he
      rfl

/-- Calls for absolute paths to a client that accepts every notice, with contents that the digest
tells apart. -/
structure Fair (calls : List Call) : Prop where
  absolute : ∀ c ∈ calls, Path.isAbsolute c.path = true
  accepted : ∀ c ∈ calls, c.answer = .ok ()
  distinct : ∀ c ∈ calls, ∀ d ∈ calls, digest c.content = digest d.content → c.content = d.content

omit [DecidableEq δ] in
theorem Fair.of_subset {calls some : List Call} (h : Fair digest calls) (hs : some ⊆ calls) :
    Fair digest some where
  absolute := fun c hc => h.absolute c (hs hc)
  accepted := fun c hc => h.accepted c (hs hc)
  distinct := fun c hc d hd => h.distinct c (hs hc) d (hs hd)

/-- **The texts that the server has** after some calls, if each file is spelled in one way. -/
structure Follows (calls : List Call) (m : Mirror) : Prop where
  replayed : replay (told (run digest calls).2) = some m
  texts : ∀ c ∈ calls, m (Uri.fileText c.path) =
    (last? (run digest calls).2 (Path.parts c.path)).map fun x => x.1.content
  closed : ∀ path, Path.isAbsolute path = true → (∀ c ∈ calls, c.path ≠ path) →
    m (Uri.fileText path) = none

theorem follows_nil : Follows digest [] Mirror.blank where
  replayed := rfl
  texts := fun c hc => by cases hc
  closed := fun _ _ _ => rfl

variable {calls : List Call} {m : Mirror} {c : Call}

/-- The server has the file of the next call just when the open files have it. -/
theorem Follows.isSome_eq (h : Follows digest calls m) (hf : Fair digest (calls ++ [c]))
    (hs : OneSpelling (calls ++ [c])) :
    (m (Uri.fileText c.path)).isSome =
      ((run digest calls).1.find? (Path.parts c.path)).isSome := by
  have hok := (hf.of_subset digest (List.subset_append_left calls [c])).accepted
  by_cases hd : ∃ d ∈ calls, Path.parts d.path = Path.parts c.path
  · obtain ⟨d, hd, hp⟩ := hd
    rw [← (oneSpelling_concat.1 hs).2 d hd hp, h.texts d hd, (run_inv digest calls).entries,
      Option.isSome_map, Option.isSome_map]
  · have hfind := mt (tracked_iff digest hok (Path.parts c.path)).1 hd
    have hnone : m (Uri.fileText c.path) = none :=
      h.closed c.path (hf.absolute c (by simp)) fun d hm he => hd ⟨d, hm, by rw [he]⟩
    rw [hnone, Bool.eq_false_iff.2 hfind]
    rfl

/-- **The next call is followed**, if it spells no file anew. -/
theorem follows_step (h : Follows digest calls m) (hf : Fair digest (calls ++ [c]))
    (hs : OneSpelling (calls ++ [c])) :
    ∃ m', Follows digest (calls ++ [c]) m' ∧ m' (Uri.fileText c.path) = some c.content := by
  have hsome := h.isSome_eq digest hf hs
  have hsub := List.subset_append_left calls [c]
  have hok := (hf.of_subset digest hsub).accepted
  have hspell := (oneSpelling_concat.1 hs).2
  rcases carryOut_of_accepting digest (run digest calls).1 (hf.accepted c (by simp)) with
    ⟨hcur, hacc⟩ | ⟨-, hacc⟩
  -- nothing is sent: the server was told this content last, under this spelling
  · obtain ⟨d, hd, hp⟩ := (tracked_iff digest hok _).1 (isSome_of_isCurrent digest hcur)
    have htext := h.texts d hd
    rw [hspell d hd hp] at htext
    refine ⟨m, ⟨?_, fun e he => ?_, fun path ha hne => ?_⟩, ?_⟩
    · rw [run_concat, told_concat, hacc, List.map_nil, List.append_nil]
      exact h.replayed
    · rw [run_concat, last?_concat_of_nil hacc]
      rcases List.mem_append.1 he with he | he
      · exact h.texts e he
      · cases List.mem_singleton.1 he
        exact htext
    · exact h.closed path ha fun e he => hne e (hsub he)
    · obtain ⟨x, hx, hdig⟩ := (isCurrent_iff digest (run_inv digest calls) _ _).1 hcur
      have hx' := hsub (mem_of_last? digest hx)
      rw [htext, hx, Option.map_some, hf.distinct x.1 hx' c (by simp) hdig]
  -- the notice is legal, and sets the text of this URI alone
  · refine ⟨m.set (Uri.fileText c.path) c.content,
      ⟨?_, fun e he => ?_, fun path ha hne => ?_⟩, Mirror.set_self _ _ _⟩
    · rw [run_concat, told_concat, hacc, List.map_singleton, replay_concat, h.replayed,
        Option.bind_some, hear_notice, Uri.fileUri_text, if_pos hsome]
    · rw [run_concat, last?_concat_of_singleton hacc]
      by_cases hp : c.path = e.path
      · rw [if_pos (congrArg Path.parts hp), ← hp]
        exact Mirror.set_self _ _ _
      · have hparts : Path.parts c.path ≠ Path.parts e.path := fun hp' =>
          hp (hs c (by simp) e he hp')
        have htext : Uri.fileText e.path ≠ Uri.fileText c.path := fun ht =>
          hp (Uri.fileText_injective (hf.absolute e he) (hf.absolute c (by simp)) ht).symm
        rw [if_neg hparts, Mirror.set_of_ne m _ htext]
        rcases List.mem_append.1 he with he | he
        · exact h.texts e he
        · cases List.mem_singleton.1 he
          exact absurd rfl hp
    · have htext : Uri.fileText path ≠ Uri.fileText c.path := fun ht =>
        hne c (by simp) (Uri.fileText_injective ha (hf.absolute c (by simp)) ht).symm
      rw [Mirror.set_of_ne m _ htext]
      exact h.closed path ha fun e he => hne e (hsub he)

/-- A call that spells a file anew is not followed: nothing is sent, or a change of a URI that is
not open. -/
theorem spelling_of_step (h : Follows digest calls m) (hf : Fair digest (calls ++ [c]))
    (hs : OneSpelling calls) {m' : Mirror}
    (hm : replay (told (run digest (calls ++ [c])).2) = some m')
    (hc : m' (Uri.fileText c.path) = some c.content) :
    ∀ d ∈ calls, Path.parts d.path = Path.parts c.path → d.path = c.path := by
  intro d hd hp
  by_contra hne
  have hok := (hf.of_subset digest (List.subset_append_left calls [c])).accepted
  have hfind := (tracked_iff digest hok _).2 ⟨d, hd, hp⟩
  -- the open files have the file, the server has never heard of this spelling
  have hnone : m (Uri.fileText c.path) = none :=
    h.closed c.path (hf.absolute c (by simp)) fun e he hpath =>
      hne ((hs d hd e he (by rw [hp, hpath])).trans hpath)
  rw [run_concat, told_concat] at hm
  rcases carryOut_of_accepting digest (run digest calls).1 (hf.accepted c (by simp)) with
    ⟨-, hacc⟩ | ⟨-, hacc⟩
  · rw [hacc, List.map_nil, List.append_nil, h.replayed] at hm
    cases hm
    rw [hnone] at hc
    cases hc
  · have hmute : ¬ (m (Uri.fileText c.path)).isSome =
        ((run digest calls).1.find? (Path.parts c.path)).isSome := by
      rw [hnone, hfind]
      simp
    rw [hacc, List.map_singleton, replay_concat, h.replayed, Option.bind_some, hear_notice,
      Uri.fileUri_text, if_neg hmute] at hm
    cases hm

theorem exists_follows (hf : Fair digest calls) (hs : OneSpelling calls) :
    ∃ m, Follows digest calls m := by
  induction calls using List.reverseRecOn with
  | nil => exact ⟨Mirror.blank, follows_nil digest⟩
  | append_singleton calls c ih =>
    obtain ⟨m, hm⟩ := ih (hf.of_subset digest (List.subset_append_left calls [c]))
      (oneSpelling_concat.1 hs).1
    obtain ⟨m', hm', -⟩ := follows_step digest hm hf hs
    exact ⟨m', hm'⟩

/-! ## The two views -/

/-- **The server's view follows the calls**: the notices can be replayed, and after each call the
text at the URI of its path is its content. -/
def Faithful (calls : List Call) : Prop :=
  ∀ before c after, calls = before ++ c :: after →
    ∃ m, replay (told (run digest (before ++ [c])).2) = some m ∧
      m (Uri.fileText c.path) = some c.content

theorem faithful_of_oneSpelling (hf : Fair digest calls) (hs : OneSpelling calls) :
    Faithful digest calls := by
  rintro before c after rfl
  have hsub : before ++ [c] ⊆ before ++ c :: after :=
    List.append_subset.2 ⟨List.subset_append_left _ _, by simp⟩
  have hs' : OneSpelling (before ++ [c]) := fun d hd e he => hs d (hsub hd) e (hsub he)
  have hf' := hf.of_subset digest hsub
  obtain ⟨m, hm⟩ := exists_follows digest
    (hf'.of_subset digest (List.subset_append_left before [c])) (oneSpelling_concat.1 hs').1
  obtain ⟨m', hm', hc⟩ := follows_step digest hm hf' hs'
  exact ⟨m', hm'.replayed, hc⟩

theorem oneSpelling_of_faithful (hf : Fair digest calls) (h : Faithful digest calls) :
    OneSpelling calls := by
  induction calls using List.reverseRecOn with
  | nil => intro c hc; cases hc
  | append_singleton calls c ih =>
    have hf' := hf.of_subset digest (List.subset_append_left calls [c])
    have hs := ih hf' fun before d after he => h before d (after ++ [c]) (by simp [he])
    obtain ⟨m, hm⟩ := exists_follows digest hf' hs
    obtain ⟨m', hm', hc⟩ := h calls c [] rfl
    exact oneSpelling_concat.2 ⟨hs, spelling_of_step digest hm hf hs hm' hc⟩

/-- **The server's view follows the open files just when each file is spelled in one way**, for all
calls with absolute paths whose notices are accepted and whose contents the digest tells apart.
The calls themselves all succeed. Paths are Unicode text here. Names that are no such text are not
covered: two of them can have one lossy text, and so one URI, without being spellings of one
file. -/
theorem faithful_iff_one_spelling (calls : List Call) (hf : Fair digest calls) :
    (∀ d ∈ (run digest calls).2, ∃ r, d.result = .ok r) ∧
    (Faithful digest calls ↔ OneSpelling calls) :=
  ⟨run_succeeds digest hf.accepted, oneSpelling_of_faithful digest hf,
    faithful_of_oneSpelling digest hf⟩

/-- A file that is changed, left alone and changed back, and another one with a blank in its
name. -/
theorem faithful_iff_one_spelling_edits :
    let calls : List Call := [⟨"/a/b", "x", .ok ()⟩, ⟨"/c d", "y", .ok ()⟩, ⟨"/a/b", "z", .ok ()⟩,
      ⟨"/c d", "y", .ok ()⟩, ⟨"/a/b", "x", .ok ()⟩]
    Fair id calls ∧ Faithful id calls := by
  intro calls
  have hf : Fair id calls := ⟨by decide +kernel, by simp [calls], fun _ _ _ _ h => h⟩
  refine ⟨hf, (faithful_iff_one_spelling id calls hf).2.2 ?_⟩
  unfold OneSpelling
  decide +kernel

/-- A second spelling of a path is taken for the file that is open, and sent as a change of a URI
that the server has never heard of. -/
theorem not_faithful_respelled :
    ¬ Faithful id [⟨"/a/b", "x", .ok ()⟩, ⟨"/a//b", "y", .ok ()⟩] := by
  intro h
  obtain ⟨m, hm, -⟩ := h [⟨"/a/b", "x", .ok ()⟩] ⟨"/a//b", "y", .ok ()⟩ [] rfl
  have hnone : (replay (told (run id
      [⟨"/a/b", "x", .ok ()⟩, ⟨"/a//b", "y", .ok ()⟩]).2)).isSome = false := by decide +kernel
  rw [List.singleton_append] at hm
  rw [hm] at hnone
  cases hnone

end SymbolContext.OpenFiles
