import SymbolContext.OpenFiles
import SymbolContext.Proofs.Uri.File
import Mathlib.Algebra.Group.Nat.Defs
import Mathlib.Data.List.Induction
import Mathlib.Data.List.Nodup

/-!
# Open files and the notices that were accepted

Files are opened one after the other, and the client accepts or refuses each notice as it likes.
A `Deed` is what came of a call; the open files are compared with the deeds so far.

* `carryOut_cases`: **the three ways in which a call ends**: nothing to tell, refused, accepted.
* `OpenFiles.Inv`, kept by every call (`carryOut_inv`): **the open files are the notices that were
  accepted last**, one for each path up to its parts, and the versions of the notices count them.
* `calls_follow_history` reads the outcome of every call off the calls before it.
-/

namespace SymbolContext

/-- The version of a notice. -/
def FileNotice.version : FileNotice → Int
  | .opened _ _ version _ => version
  | .changed _ version _ => version

namespace OpenFiles

variable {δ : Type}

/-! ## Entries -/

theorem find?_put (f : OpenFile δ) (fs : List (OpenFile δ)) (parts : List Path.Part) :
    (put f fs).find? (fun g => g.parts = parts) =
      if f.parts = parts then some f else fs.find? fun g => g.parts = parts := by
  induction fs with
  | nil =>
    by_cases hf : f.parts = parts <;> simp [put, hf]
  | cons g fs ih =>
    unfold put
    by_cases hg : g.parts = f.parts
    · -- the new entry takes the place of this one
      rw [if_pos hg]
      by_cases hf : f.parts = parts
      · simp [hf]
      · simp [hf, hg]
    · rw [if_neg hg, List.find?_cons, List.find?_cons, ih]
      by_cases hgp : g.parts = parts
      · have hf : f.parts ≠ parts := fun hf => hg (hgp.trans hf.symm)
        simp [hgp, hf]
      · simp [hgp]

/-- The paths of the entries: a new one is added at the end. -/
theorem map_parts_put (f : OpenFile δ) (fs : List (OpenFile δ)) :
    (put f fs).map OpenFile.parts =
      if f.parts ∈ fs.map OpenFile.parts then fs.map OpenFile.parts
      else fs.map OpenFile.parts ++ [f.parts] := by
  induction fs with
  | nil => rfl
  | cons g fs ih =>
    unfold put
    by_cases hg : g.parts = f.parts
    · simp [hg]
    · rw [if_neg hg, List.map_cons, List.map_cons, ih]
      simp only [List.mem_cons, Ne.symm hg, false_or]
      split <;> rfl

theorem nodup_put (f : OpenFile δ) {fs : List (OpenFile δ)}
    (h : (fs.map OpenFile.parts).Nodup) : ((put f fs).map OpenFile.parts).Nodup := by
  rw [map_parts_put]
  split
  · exact h
  · rename_i hf
    rw [← List.concat_eq_append]
    exact h.concat hf

/-- Where each path has one entry, every entry is found by its path. -/
theorem find?_of_mem {fs : List (OpenFile δ)} (h : (fs.map OpenFile.parts).Nodup)
    {f : OpenFile δ} (hf : f ∈ fs) : fs.find? (fun g => g.parts = f.parts) = some f := by
  induction fs with
  | nil => cases hf
  | cons g fs ih =>
    rw [List.map_cons, List.nodup_cons] at h
    rcases List.mem_cons.1 hf with rfl | hf
    · simp
    · have hg : g.parts ≠ f.parts := fun hg => h.1 (hg ▸ List.mem_map_of_mem hf)
      rw [List.find?_cons, decide_eq_false hg]
      exact ih h.2 hf

/-! ## Calls -/

/-- A call to open a file, and what the client says to a notice. -/
structure Call where
  path : String
  content : String
  answer : Except ClientFailure Unit

/-- What came of a call. -/
structure Deed where
  call : Call
  result : Except BackendFailure SyncResult
  /-- The notices that were handed to the client. -/
  tried : List FileNotice

/-- The notices that an outcome stands for. -/
def noticesOf (c : Call) (version : Nat) : SyncResult → List FileNotice
  | .opened => [.opened (Uri.fileUri c.path) (languageOf c.path) version c.content]
  | .changed => [.changed (Uri.fileUri c.path) version c.content]
  | .unchanged => []

/-! ## Histories -/

variable (digest : String → δ)

def Deed.accepted (d : Deed) : List (Call × FileNotice) :=
  match d.call.answer with
  | .ok _ => d.tried.map fun n => (d.call, n)
  | .error _ => []

/-- All notices that the client accepted, in the order of sending. -/
def accepted (ds : List Deed) : List (Call × FileNotice) := ds.flatMap Deed.accepted

/-- The notice that was accepted last for a path. -/
def last? (ds : List Deed) (parts : List Path.Part) : Option (Call × FileNotice) :=
  ((accepted ds).filter fun x => Path.parts x.1.path = parts).getLast?

def entryOf (x : Call × FileNotice) : OpenFile δ :=
  ⟨Path.parts x.1.path, digest x.1.content, x.2.version.toNat⟩

theorem accepted_concat (ds : List Deed) (d : Deed) :
    accepted (ds ++ [d]) = accepted ds ++ d.accepted := by
  unfold accepted
  rw [List.flatMap_append, List.flatMap_singleton]

theorem last?_concat_of_nil {ds : List Deed} {d : Deed} (h : d.accepted = [])
    (parts : List Path.Part) : last? (ds ++ [d]) parts = last? ds parts := by
  unfold last?
  rw [accepted_concat, h, List.append_nil]

theorem last?_concat_of_singleton {ds : List Deed} {d : Deed} {x : Call × FileNotice}
    (h : d.accepted = [x]) (parts : List Path.Part) :
    last? (ds ++ [d]) parts = if Path.parts x.1.path = parts then some x else last? ds parts := by
  unfold last?
  rw [accepted_concat, h, List.filter_append]
  by_cases hx : Path.parts x.1.path = parts
  · simp [hx]
  · simp [hx]

/-- Whether a call for a path, up to its parts, has succeeded. -/
def Succeeded (ds : List Deed) (parts : List Path.Part) : Prop :=
  ∃ d ∈ ds, Path.parts d.call.path = parts ∧ ∃ r, d.result = .ok r

theorem succeeded_concat {ds : List Deed} {d : Deed} {parts : List Path.Part} :
    Succeeded (ds ++ [d]) parts ↔
      Succeeded ds parts ∨ (Path.parts d.call.path = parts ∧ ∃ r, d.result = .ok r) := by
  unfold Succeeded
  simp only [List.mem_append, List.mem_singleton, or_and_right, exists_or, exists_eq_left]

/-- **The open files are the notices that were accepted last.** -/
structure Inv (o : OpenFiles δ) (ds : List Deed) : Prop where
  /-- The next version counts the notices. -/
  next : o.nextVersion = (accepted ds).length + 1
  versions : (accepted ds).map (fun x => x.2.version) =
    (List.range' 1 (accepted ds).length).map Int.ofNat
  /-- Each path has one entry. -/
  keys : (o.files.map OpenFile.parts).Nodup
  entries : ∀ parts, o.find? parts = (last? ds parts).map (entryOf digest)
  /-- A file is open if a call for it has succeeded. -/
  tracked : ∀ parts, (o.find? parts).isSome = true ↔ Succeeded ds parts

theorem inv_fresh : Inv digest ({} : OpenFiles δ) [] where
  next := rfl
  versions := rfl
  keys := List.nodup_nil
  entries := fun _ => rfl
  tracked := fun parts => by simp [find?, Succeeded]

theorem find?_sent (o : OpenFiles δ) (path content : String) (parts : List Path.Part) :
    (o.sent digest path content).find? parts =
      if Path.parts path = parts then some ⟨Path.parts path, digest content, o.nextVersion⟩
      else o.find? parts :=
  find?_put _ _ _

theorem notice_version (o : OpenFiles δ) (path content : String) (uri : Uri) :
    (o.notice path content uri).version = o.nextVersion := by
  unfold notice
  split <;> rfl

/-- A call that sends nothing new leaves everything as it was, except that it may have
succeeded. -/
theorem inv_of_silent {o : OpenFiles δ} {ds : List Deed} (h : Inv digest o ds) {d : Deed}
    (hd : d.accepted = [])
    (hr : (∃ r, d.result = .ok r) → (o.find? (Path.parts d.call.path)).isSome = true) :
    Inv digest o (ds ++ [d]) where
  next := by rw [accepted_concat, hd, List.append_nil]; exact h.next
  versions := by rw [accepted_concat, hd, List.append_nil]; exact h.versions
  keys := h.keys
  entries := fun parts => by rw [last?_concat_of_nil hd]; exact h.entries parts
  tracked := fun parts => by
    rw [succeeded_concat, ← h.tracked]
    refine ⟨Or.inl, fun hs => ?_⟩
    rcases hs with hs | ⟨hp, hs⟩
    · exact hs
    · rw [← hp]
      exact hr hs

/-- A notice that is accepted becomes the last one for its path. -/
theorem inv_of_accepted {o : OpenFiles δ} {ds : List Deed} (h : Inv digest o ds) (c : Call)
    (uri : Uri) {d : Deed} (hd : d.accepted = [(c, o.notice c.path c.content uri)])
    (hc : d.call = c) (hr : ∃ r, d.result = .ok r) :
    Inv digest (o.sent digest c.path c.content) (ds ++ [d]) where
  next := by
    rw [accepted_concat, hd, List.length_append, List.length_singleton, ← h.next]
    rfl
  versions := by
    rw [accepted_concat, hd, List.map_append, h.versions, List.length_append,
      List.length_singleton, List.range'_concat, List.map_append, List.map_singleton,
      List.map_singleton, notice_version, h.next, Nat.one_mul, Nat.add_comm 1]
    rfl
  keys := nodup_put _ h.keys
  entries := fun parts => by
    rw [find?_sent, last?_concat_of_singleton hd]
    by_cases hp : Path.parts c.path = parts
    · rw [if_pos hp, if_pos hp]
      simp [entryOf, notice_version]
    · rw [if_neg hp, if_neg hp]
      exact h.entries parts
  tracked := fun parts => by
    rw [find?_sent, succeeded_concat, hc]
    by_cases hp : Path.parts c.path = parts
    · rw [if_pos hp]
      exact ⟨fun _ => .inr ⟨hp, hr⟩, fun _ => rfl⟩
    · rw [if_neg hp, h.tracked]
      exact ⟨Or.inl, fun hs => hs.resolve_right fun hs => hp hs.1⟩

/-- The versions that have been sent are positive. -/
theorem version_toNat {o : OpenFiles δ} {ds : List Deed} (h : Inv digest o ds)
    {parts : List Path.Part} {x : Call × FileNotice} (hx : last? ds parts = some x) :
    (x.2.version.toNat : Int) = x.2.version := by
  have hm : x ∈ accepted ds := (List.mem_filter.1 (List.mem_of_getLast? hx)).1
  have hv : x.2.version ∈ (accepted ds).map (fun y => y.2.version) := List.mem_map_of_mem hm
  rw [h.versions] at hv
  obtain ⟨n, -, hn⟩ := List.mem_map.1 hv
  rw [← hn]
  rfl

/-! ## Carrying out a call -/

variable [DecidableEq δ]

/-- A client that gives one answer, and keeps the notices. -/
def scribe (answer : Except ClientFailure Unit) (n : FileNotice) :
    StateM (List FileNotice) (Except ClientFailure Unit) := do
  modify (· ++ [n])
  return answer

def carryOut (o : OpenFiles δ) (c : Call) : Deed × OpenFiles δ :=
  let r := (o.sync digest (scribe c.answer) c.path c.content).run []
  (⟨c, r.1.1, r.2⟩, r.1.2)

/-- **The three ways in which a call ends**: there is nothing to tell, the client refuses the
notice, or it accepts it. -/
theorem carryOut_cases (o : OpenFiles δ) (c : Call) :
    (o.isCurrent digest c.path c.content = true ∧
      carryOut digest o c = (⟨c, .ok .unchanged, []⟩, o)) ∨
    (o.isCurrent digest c.path c.content = false ∧ (∃ e, c.answer = .error e ∧
      carryOut digest o c =
        (⟨c, .error (.client e), [o.notice c.path c.content (Uri.fileUri c.path)]⟩, o))) ∨
    (o.isCurrent digest c.path c.content = false ∧ c.answer = .ok () ∧
      carryOut digest o c =
        (⟨c, .ok (outcomeOf (o.notice c.path c.content (Uri.fileUri c.path))),
          [o.notice c.path c.content (Uri.fileUri c.path)]⟩,
        o.sent digest c.path c.content)) := by
  unfold carryOut sync
  cases hc : o.isCurrent digest c.path c.content with
  | true => exact .inl ⟨rfl, rfl⟩
  | false =>
    rw [Uri.ofPath_eq]
    cases ha : c.answer with
    | error e => exact .inr (.inl ⟨rfl, e, rfl, rfl⟩)
    | ok _ => exact .inr (.inr ⟨rfl, rfl, rfl⟩)

theorem isSome_of_isCurrent {o : OpenFiles δ} {path content : String}
    (h : o.isCurrent digest path content = true) : (o.find? (Path.parts path)).isSome = true := by
  unfold isCurrent at h
  split at h
  · rename_i f hf
    rw [hf]
    rfl
  · cases h

/-- **Every call keeps the invariant.** -/
theorem carryOut_inv {o : OpenFiles δ} {ds : List Deed} (h : Inv digest o ds) (c : Call) :
    Inv digest (carryOut digest o c).2 (ds ++ [(carryOut digest o c).1]) := by
  rcases carryOut_cases digest o c with ⟨hcur, hc⟩ | ⟨-, e, ha, hc⟩ | ⟨-, ha, hc⟩
  · rw [hc]
    refine inv_of_silent digest h ?_ fun _ => isSome_of_isCurrent digest hcur
    unfold Deed.accepted
    split <;> rfl
  · rw [hc]
    refine inv_of_silent digest h ?_ fun hr => ?_
    · simp only [Deed.accepted, ha]
    · obtain ⟨r, hr⟩ := hr
      cases hr
  · rw [hc]
    refine inv_of_accepted digest h c (Uri.fileUri c.path) ?_ rfl ⟨_, rfl⟩
    simp only [Deed.accepted, ha, List.map_singleton]

/-! ## Sequences of calls -/

/-- The open files after some calls, and what came of each. -/
def run (calls : List Call) : OpenFiles δ × List Deed :=
  calls.foldl
    (fun s c => ((carryOut digest s.1 c).2, s.2 ++ [(carryOut digest s.1 c).1])) ({}, [])

theorem run_concat (calls : List Call) (c : Call) :
    run digest (calls ++ [c]) =
      ((carryOut digest (run digest calls).1 c).2,
        (run digest calls).2 ++ [(carryOut digest (run digest calls).1 c).1]) := by
  unfold run
  rw [List.foldl_append]
  rfl

theorem run_inv (calls : List Call) : Inv digest (run digest calls).1 (run digest calls).2 := by
  induction calls using List.reverseRecOn with
  | nil => exact inv_fresh digest
  | append_singleton calls c ih =>
    rw [run_concat]
    exact carryOut_inv digest ih c

/-! ## What a call comes to -/

/-- A call fails only because the client refuses its notice, and then changes nothing. -/
theorem carryOut_of_error {o : OpenFiles δ} {c : Call} {e : BackendFailure}
    (h : (carryOut digest o c).1.result = .error e) :
    c.answer ≠ .ok () ∧ (carryOut digest o c).2 = o := by
  rcases carryOut_cases digest o c with ⟨-, hc⟩ | ⟨-, e', ha, hc⟩ | ⟨-, -, hc⟩
  · rw [hc] at h
    cases h
  · rw [hc, ha]
    exact ⟨by simp, rfl⟩
  · rw [hc] at h
    cases h

/-- A call whose notice would be accepted succeeds. -/
theorem carryOut_succeeds (o : OpenFiles δ) {c : Call} (ha : c.answer = .ok ()) :
    ∃ r, (carryOut digest o c).1.result = .ok r := by
  cases hr : (carryOut digest o c).1.result with
  | ok r => exact ⟨r, rfl⟩
  | error e => exact absurd ha (carryOut_of_error digest hr).1

/-- What is tried depends on the open files and the arguments, not on the answer. -/
theorem carryOut_tried (o : OpenFiles δ) (c : Call) :
    (carryOut digest o c).1.tried =
      if o.isCurrent digest c.path c.content then []
      else [o.notice c.path c.content (Uri.fileUri c.path)] := by
  rcases carryOut_cases digest o c with ⟨hcur, hc⟩ | ⟨hcur, e', ha, hc⟩ | ⟨hcur, ha, hc⟩
  · rw [hc, hcur]; rfl
  · rw [hc, hcur]; rfl
  · rw [hc, hcur]; rfl

/-- No call touches the entry of another path. -/
theorem carryOut_find?_ne (o : OpenFiles δ) (c : Call) {parts : List Path.Part}
    (h : parts ≠ Path.parts c.path) : (carryOut digest o c).2.find? parts = o.find? parts := by
  rcases carryOut_cases digest o c with ⟨-, hc⟩ | ⟨-, e', -, hc⟩ | ⟨-, -, hc⟩
  · rw [hc]
  · rw [hc]
  · rw [hc, find?_sent, if_neg (Ne.symm h)]

theorem carryOut_of_ok {o : OpenFiles δ} {c : Call} {r : SyncResult}
    (h : (carryOut digest o c).1.result = .ok r) :
    r = if o.isCurrent digest c.path c.content then .unchanged
      else if (o.find? (Path.parts c.path)).isSome then .changed else .opened := by
  rcases carryOut_cases digest o c with ⟨hcur, hc⟩ | ⟨-, e', -, hc⟩ | ⟨hcur, -, hc⟩
  · rw [hc] at h
    cases h
    rw [hcur]
    rfl
  · rw [hc] at h
    cases h
  · rw [hc] at h
    cases h
    rw [hcur]
    unfold notice
    split <;> rfl

/-- A file is current if its content has the digest of the notice that was accepted last. -/
theorem isCurrent_iff {o : OpenFiles δ} {ds : List Deed} (h : Inv digest o ds)
    (path content : String) :
    o.isCurrent digest path content = true ↔
      ∃ x, last? ds (Path.parts path) = some x ∧ digest x.1.content = digest content := by
  unfold isCurrent
  rw [h.entries]
  cases last? ds (Path.parts path) with
  | none => simp
  | some x => simp [entryOf]

/-- A call that finds the file unchanged changes nothing. -/
theorem carryOut_of_unchanged {o : OpenFiles δ} {c : Call}
    (h : (carryOut digest o c).1.result = .ok .unchanged) : (carryOut digest o c).2 = o := by
  rcases carryOut_cases digest o c with ⟨-, hc⟩ | ⟨-, e', -, hc⟩ | ⟨-, -, hc⟩
  · rw [hc]
  · rw [hc]
  · rw [hc] at h
    unfold notice at h
    split at h <;> cases h

/-- The outcome of a call that succeeds, read off the history. -/
theorem outcome_iff {o : OpenFiles δ} {ds : List Deed} (h : Inv digest o ds) {c : Call}
    {r : SyncResult} (hr : (carryOut digest o c).1.result = .ok r) :
    (r = .opened ↔ ¬ Succeeded ds (Path.parts c.path)) ∧
    (r = .unchanged ↔ ∃ x, last? ds (Path.parts c.path) = some x ∧
      digest x.1.content = digest c.content) ∧
    (r = .changed ↔ Succeeded ds (Path.parts c.path) ∧
      ¬ ∃ x, last? ds (Path.parts c.path) = some x ∧ digest x.1.content = digest c.content) ∧
    (carryOut digest o c).1.tried = noticesOf c ((accepted ds).length + 1) r := by
  rw [← h.tracked, ← isCurrent_iff digest h, carryOut_tried, ← h.next, carryOut_of_ok digest hr]
  -- a file that is current is open, so three of the four cases are left
  cases hcur : o.isCurrent digest c.path c.content with
  | true => simp [isSome_of_isCurrent digest hcur, noticesOf]
  | false =>
    unfold notice
    cases (o.find? (Path.parts c.path)).isSome with
    | true => simp [noticesOf]
    | false => simp [noticesOf]

/-- **Every call follows the history**, for all calls of which fewer than `2 ^ 31 - 1` have a
notice accepted. A call that fails changes nothing, so that the same call tries the same notice
again. A call whose notice would be accepted succeeds: it opens the file if no call for it has
succeeded before, finds it unchanged if the notice accepted last had a content of the same digest,
and changes it otherwise; it tries just the notice that says so. The versions of the notices are
`1`, `2`, …. Each entry holds the digest and the version of the notice that was accepted last for
its path, and no call touches the entry of another path. -/
theorem calls_follow_history (calls : List Call)
    (h : (accepted (run digest calls).2).length < 2 ^ 31 - 1) :
    (∀ before c after, calls = before ++ c :: after →
      let o := (run digest before).1
      let ds := (run digest before).2
      let deed := (carryOut digest o c).1
      let o' := (run digest (before ++ [c])).1
      (∀ e, deed.result = .error e →
        o' = o ∧ ∀ answer, (carryOut digest o' { c with answer }).1.tried = deed.tried) ∧
      (c.answer = .ok () → ∃ r, deed.result = .ok r) ∧
      (∀ r, deed.result = .ok r →
        (r = .opened ↔ ¬ Succeeded ds (Path.parts c.path)) ∧
        (r = .unchanged ↔ ∃ x, last? ds (Path.parts c.path) = some x ∧
          digest x.1.content = digest c.content) ∧
        (r = .changed ↔ Succeeded ds (Path.parts c.path) ∧
          ¬ ∃ x, last? ds (Path.parts c.path) = some x ∧
            digest x.1.content = digest c.content) ∧
        (r = .unchanged → o' = o) ∧
        deed.tried = noticesOf c ((accepted ds).length + 1) r) ∧
      ∀ parts, parts ≠ Path.parts c.path → o'.find? parts = o.find? parts) ∧
    (accepted (run digest calls).2).map (fun x => x.2.version) =
      (List.range' 1 (accepted (run digest calls).2).length).map Int.ofNat ∧
    (run digest calls).1.nextVersion < 2 ^ 31 ∧
    ((run digest calls).1.files.map OpenFile.parts).Nodup ∧
    (∀ f ∈ (run digest calls).1.files, ∃ x, last? (run digest calls).2 f.parts = some x ∧
      f.digest = digest x.1.content ∧ (f.version : Int) = x.2.version) := by
  have hi := run_inv digest calls
  refine ⟨?_, hi.versions, by rw [hi.next]; omega, hi.keys, ?_⟩
  · intro before c after _ o ds deed o'
    have hb : Inv digest o ds := run_inv digest before
    have ho' : o' = (carryOut digest o c).2 := congrArg Prod.fst (run_concat digest before c)
    refine ⟨fun e he => ?_, carryOut_succeeds digest o, fun r hr => ?_, fun parts hp => ?_⟩
    · obtain ⟨-, hsame⟩ := carryOut_of_error digest he
      rw [ho', hsame]
      refine ⟨rfl, fun answer => ?_⟩
      rw [carryOut_tried, carryOut_tried]
    · obtain ⟨hopened, hunchanged, hchanged, htried⟩ := outcome_iff digest hb hr
      refine ⟨hopened, hunchanged, hchanged, fun hu => ?_, htried⟩
      rw [ho']
      exact carryOut_of_unchanged digest (hu ▸ hr)
    · rw [ho']
      exact carryOut_find?_ne digest o c hp
  · -- each path has one entry, so an entry is what is found for its path
    intro f hf
    have hfind := find?_of_mem hi.keys hf
    have hentry := (hi.entries f.parts).symm.trans hfind
    obtain ⟨x, hx, hxf⟩ := Option.map_eq_some_iff.1 hentry
    refine ⟨x, hx, ?_, ?_⟩
    · rw [← hxf]; rfl
    · rw [← hxf]
      exact version_toNat digest hi hx

/-- A notice that is refused takes no version: the file is opened by the next call, and changed by
a call that spells its path another way. -/
theorem calls_follow_history_refused :
    let calls : List Call :=
      [⟨"/a/b", "x", .error (.rpc .closed)⟩, ⟨"/a/b", "x", .ok ()⟩, ⟨"/a//b", "y", .ok ()⟩]
    (accepted (run id calls).2).length = 2 ∧
      (accepted (run id calls).2).map (fun x => x.2.version) = [1, 2] := by
  intro calls
  have hlen : (accepted (run id calls).2).length = 2 := by decide +kernel
  refine ⟨hlen, ?_⟩
  rw [(calls_follow_history id calls (by rw [hlen]; decide)).2.1, hlen]
  rfl

end OpenFiles

end SymbolContext
