import SymbolContext.LogSettings
import SymbolContext.Proofs.Path.Parent
import SymbolContext.Proofs.Text.Decimal

/-!
# A log file for each process

The number of a process is put between the stem and the extension of a file name.

* `isProper_processName`: the result is **the name of a file** again, so it takes the place of the
  old name in its directory;
* `processName_inj`: the names of two processes differ in **the digits of the number**, and in
  nothing else;
* `extension_processName`: what followed the last dot **still does**, if there was something;
* `same_file_iff`: two processes share the file of their environment when **no number is asked for
  or none has a place**.
-/

namespace SymbolContext

/-! ## Names with a number -/

/-- What follows the number of a process in a file name. -/
def behindNumber (name : String) : String :=
  match (Path.splitName name).2 with
  | some ext => if ext = "" then "" else "." ++ ext
  | none => ""

/-- A file name with the number of a process. -/
def processName (name : String) (pid : Nat) : String :=
  (Path.splitName name).1 ++ "." ++ Decimal.text pid ++ behindNumber name

section
variable {path name : String}

theorem toList_processName (name : String) (pid : Nat) :
    (processName name pid).toList = (Path.splitName name).1.toList ++
      '.' :: (Decimal.digits pid ++ (behindNumber name).toList) := by
  simp [processName]

theorem processName_inj {p q : Nat} (h : processName name p = processName name q) : p = q := by
  have hchars := congrArg String.toList h
  rw [toList_processName, toList_processName] at hchars
  have hdigits := (List.cons.inj (List.append_cancel_left hchars)).2
  exact Decimal.digits_inj (List.append_cancel_right hdigits)

/-- The stem is not empty, and it and what follows the number are made of the name. -/
theorem stem_and_behind (hname : name ≠ "") :
    (Path.splitName name).1 ≠ "" ∧
      (∀ c ∈ (Path.splitName name).1.toList, c ∈ name.toList) ∧
      ∀ c ∈ (behindNumber name).toList, c ∈ name.toList := by
  unfold behindNumber
  obtain hsplit | ⟨stem, ext, hstem, -, htext, hsplit⟩ := Path.splitName_cases name
  · simp [hsplit, hname]
  · rw [hsplit]
    refine ⟨hstem, ?_, ?_⟩
    · simp +contextual [htext]
    · by_cases hext : ext = ""
      · simp [hext]
      · simp +contextual [hext, htext]

theorem isProper_processName (h : Path.IsProper name) (pid : Nat) :
    Path.IsProper (processName name pid) := by
  have hname : name ≠ "" := by simpa using (Path.isName_iff.1 h.isName).1
  obtain ⟨hstem, hfront, hback⟩ := stem_and_behind hname
  refine ⟨Path.isName_iff.2 ?_, ?_⟩
  · -- a stem, a dot and a digit are more than two dots
    have hlength : 2 < (processName name pid).toList.length := by
      have hchars : (Path.splitName name).1.toList ≠ [] := by simpa using hstem
      have hstemLength := List.length_pos_iff.2 hchars
      have hdigits := List.length_pos_iff.2 (Decimal.digits_ne_nil pid)
      rw [toList_processName, List.length_append, List.length_cons, List.length_append]
      omega
    refine ⟨?_, ?_, ?_⟩ <;> intro heq <;> simp [heq] at hlength
  · have hdigits : '/' ∉ Decimal.digits pid := fun hmem =>
      absurd (Decimal.isDigit_of_mem_digits hmem) (by decide)
    have hstemSlash : '/' ∉ (Path.splitName name).1.toList := fun hmem =>
      h.noSlash (hfront _ hmem)
    have hbackSlash : '/' ∉ (behindNumber name).toList := fun hmem => h.noSlash (hback _ hmem)
    rw [toList_processName]
    simp [hstemSlash, hdigits, hbackSlash]

theorem extension_processName {ext : String} (h : (Path.splitName name).2 = some ext)
    (hne : ext ≠ "") (pid : Nat) : (Path.splitName (processName name pid)).2 = some ext := by
  obtain ⟨stem, hstem, hext, hname⟩ := Path.splitName_eq_iff.1 h
  have hsplit : Path.splitName name = (stem, some ext) := by
    rw [hname, Path.splitName_append hstem hext]
  rw [Path.splitName_eq_iff]
  refine ⟨stem ++ "." ++ Decimal.text pid, by simp, hext, ?_⟩
  simp [processName, behindNumber, hsplit, hne, String.append_assoc]

/-! ## Paths with a number -/

theorem withProcessId_of_none (h : Path.fileName? path = none) (pid : Nat) :
    withProcessId path pid = path := by
  rw [withProcessId, h]

/-- A path with a file name gets the new name behind its parent. -/
theorem withProcessId_of_fileName? (h : Path.fileName? path = some name) (pid : Nat) :
    Path.IsProper (processName name pid) ∧
      withProcessId path pid = Path.child (Path.parent path) (processName name pid) := by
  refine ⟨isProper_processName (Path.isProper_of_fileName? h) pid, ?_⟩
  unfold withProcessId processName behindNumber
  rw [h]
  obtain hsplit | ⟨stem, ext, -, -, -, hsplit⟩ := Path.splitName_cases name
  · simp [hsplit, Path.withFileName]
  · by_cases hext : ext = ""
    · simp [hsplit, hext, Path.withFileName]
    · simp [hsplit, hext, Path.withFileName, String.append_assoc]

theorem fileName?_withProcessId (h : Path.fileName? path = some name) (pid : Nat) :
    Path.fileName? (withProcessId path pid) = some (processName name pid) := by
  obtain ⟨hproper, hpath⟩ := withProcessId_of_fileName? h pid
  rw [hpath, Path.fileName?_child _ hproper]

theorem parts_withProcessId (h : Path.fileName? path = some name) (pid : Nat) :
    Path.parts (withProcessId path pid) =
      Path.parts (Path.parent path) ++ [.name (processName name pid)] := by
  obtain ⟨hproper, hpath⟩ := withProcessId_of_fileName? h pid
  rw [hpath, Path.parts_child _ hproper]

theorem parts_parent_withProcessId (h : Path.fileName? path = some name) (pid : Nat) :
    Path.parts (Path.parent (withProcessId path pid)) = Path.parts (Path.parent path) := by
  obtain ⟨hproper, hpath⟩ := withProcessId_of_fileName? h pid
  rw [hpath, Path.parts_parent_child _ hproper]

theorem extension?_withProcessId {ext : String} (h : Path.fileName? path = some name)
    (hext : Path.extension? path = some ext) (hne : ext ≠ "") (pid : Nat) :
    Path.extension? (withProcessId path pid) = some ext := by
  rw [Path.extension?, h] at hext
  rw [Path.extension?, fileName?_withProcessId h]
  exact extension_processName hext hne pid

theorem withProcessId_inj (h : Path.fileName? path = some name) {p q : Nat}
    (hparts : Path.parts (withProcessId path p) = Path.parts (withProcessId path q)) : p = q := by
  rw [parts_withProcessId h, parts_withProcessId h, List.append_cancel_left_eq] at hparts
  apply processName_inj
  simpa using hparts

end

/-! ## The files of processes -/

namespace LogSettings

/-- **When two processes log to one place**: if no number is asked for, or there is no file name to
put it into. -/
theorem same_file_iff (env : Environment) (p q : Nat) :
    (ofEnvironment env p).file.map Path.parts = (ofEnvironment env q).file.map Path.parts ↔
      p = q ∨ env "LSP_BRIDGE_LOG_UNIQUE" ≠ some "true" ∨
        ∀ path, env "LSP_BRIDGE_LOG_FILE" = some path → Path.fileName? path = none := by
  unfold ofEnvironment isOn
  by_cases hunique : env "LSP_BRIDGE_LOG_UNIQUE" = some "true"
  · cases hfile : env "LSP_BRIDGE_LOG_FILE" with
    | none => simp
    | some path =>
      cases hname : Path.fileName? path with
      | none => simp [withProcessId_of_none hname, hname]
      | some name =>
        refine ⟨fun h => .inl ?_, fun h => ?_⟩
        · have hparts : Path.parts (withProcessId path p) = Path.parts (withProcessId path q) := by
            simpa [hunique] using h
          exact withProcessId_inj hname hparts
        · have hpq : p = q := by simpa [hname, hunique] using h
          rw [hpq]
  · simp [hunique]

end LogSettings

/-- **Each process has a log file of its own**, next to the one that is asked for. With a file name
in the path, the paths for two processes are the same only if the processes are; each has the parts
of the directory and then a name, with the extension of the old name if that is not empty. Without a
file name nothing is changed. So processes that ask for their numbers in one environment share a
file only if its path has no name. -/
theorem unique_log_files :
    (∀ path name, Path.fileName? path = some name →
      (∀ p q, Path.parts (withProcessId path p) = Path.parts (withProcessId path q) → p = q) ∧
      Path.parts path = Path.parts (Path.parent path) ++ [.name name] ∧
      ∀ pid, ∃ name',
        Path.parts (withProcessId path pid) = Path.parts (Path.parent path) ++ [.name name'] ∧
        Path.parts (Path.parent (withProcessId path pid)) = Path.parts (Path.parent path) ∧
        ∀ ext, Path.extension? path = some ext → ext ≠ "" →
          Path.extension? (withProcessId path pid) = some ext) ∧
    (∀ path pid, Path.fileName? path = none → withProcessId path pid = path) ∧
    ∀ env p q,
      (LogSettings.ofEnvironment env p).file.map Path.parts =
          (LogSettings.ofEnvironment env q).file.map Path.parts ↔
        p = q ∨ env "LSP_BRIDGE_LOG_UNIQUE" ≠ some "true" ∨
          ∀ path, env "LSP_BRIDGE_LOG_FILE" = some path → Path.fileName? path = none := by
  refine ⟨fun path name h => ⟨?_, Path.parts_of_fileName? h, fun pid => ?_⟩, ?_,
    LogSettings.same_file_iff⟩
  · intro p q hparts
    exact withProcessId_inj h hparts
  · refine ⟨processName name pid, parts_withProcessId h pid, parts_parent_withProcessId h pid, ?_⟩
    intro ext hext hne
    exact extension?_withProcessId h hext hne pid
  · intro path pid h
    exact withProcessId_of_none h pid

/-- A name that is all dots up to its extension, in a path with segments to drop on both sides. -/
theorem unique_log_files_dots :
    let path := "./logs//./..x/."
    let env : Environment := fun key =>
      if key = "LSP_BRIDGE_LOG_UNIQUE" then some "true" else some path
    Path.fileName? path = some "..x" ∧ Path.extension? path = some "x" ∧
      withProcessId path 42 = "./logs/..42.x" ∧
      (∀ q, Path.parts (withProcessId path q) = Path.parts (withProcessId path 42) → q = 42) ∧
      Path.parts (Path.parent (withProcessId path 42)) = [.here, .name "logs"] ∧
      Path.extension? (withProcessId path 42) = some "x" ∧
      (LogSettings.ofEnvironment env 7).file.map Path.parts ≠
        (LogSettings.ofEnvironment env 42).file.map Path.parts ∧
      Path.fileName? "logs/.." = none ∧ withProcessId "logs/.." 42 = "logs/.." := by
  intro path env
  have hname : Path.fileName? path = some "..x" := by decide +kernel
  have hext : Path.extension? path = some "x" := by decide +kernel
  have hnone : Path.fileName? "logs/.." = none := by decide +kernel
  have hparent : Path.parts (Path.parent path) = [.here, .name "logs"] := by decide +kernel
  obtain ⟨hpaths, hunchanged, hsettings⟩ := unique_log_files
  obtain ⟨hinj, -, hprocess⟩ := hpaths path "..x" hname
  obtain ⟨-, -, hdirectory, hextension⟩ := hprocess 42
  refine ⟨hname, hext, by decide +kernel, fun q => hinj q 42, hdirectory.trans hparent,
    hextension "x" hext (by decide), ?_, hnone, hunchanged "logs/.." 42 hnone⟩
  rw [Ne, hsettings]
  simp [env, hname]

end SymbolContext
