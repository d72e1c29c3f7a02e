import SymbolContext.Text.Utf8

/-!
# Octets of ASCII in any octets

An octet of ASCII ends whatever character has begun and stands for itself, and no other octets are
read as a character of ASCII. So reading octets and cutting them at such an octet can be done in
either order, however ill-formed they are.

* `State.Fit`, kept by every step (`fit_step`): the octets that may come next are none of ASCII, and
  the character begun will be none either.
* `scan_append`: **reading can be cut at an octet of ASCII.**
* `exists_of_scan_eq`: **and a character of ASCII is read only from its own octet.**
-/

namespace SymbolContext.Utf8

/-- The least value that a character begun can have with the next octet. -/
def Partial.least (p : Partial) : Nat := p.bits * 64 + (p.low.toNat - 0x80)

/-- Neither the next octet nor the character begun is one of ASCII. -/
def State.Fit : State → Prop
  | .start => True
  | .inside p =>
    (0x80 ≤ p.low.toNat ∧ p.high.toNat ≤ 0xBF) ∧ (if p.owed = 0 then 0x80 else 2) ≤ p.least

instance : DecidablePred State.Fit
  | .start => isTrue trivial
  | .inside p => inferInstanceAs (Decidable
      ((0x80 ≤ p.low.toNat ∧ p.high.toNat ≤ 0xBF) ∧ (if p.owed = 0 then 0x80 else 2) ≤ p.least))

theorem fit_inside_iff {owed bits : Nat} {low high : UInt8} :
    State.Fit (.inside ⟨owed, low, high, bits⟩) ↔ (0x80 ≤ low.toNat ∧ high.toNat ≤ 0xBF) ∧
      (if owed = 0 then 0x80 else 2) ≤ bits * 64 + (low.toNat - 0x80) := Iff.rfl

/-! ## One octet -/

theorem fit_first (b : UInt8) : (first b).2.Fit := by
  have hall : ∀ n : Fin 256, (first (UInt8.ofNat n)).2.Fit := by decide +kernel
  have hb := hall ⟨b.toNat, b.toNat_lt⟩
  rwa [UInt8.ofNat_toNat] at hb

/-- The value of a character begun grows with the octet that follows. -/
theorem least_le {owed bits : Nat} {low high b : UInt8}
    (h : State.Fit (.inside ⟨owed, low, high, bits⟩)) (hb : low ≤ b ∧ b ≤ high) :
    (if owed = 0 then 0x80 else 2) ≤ bits * 64 + b.toNat % 64 := by
  rw [UInt8.le_iff_toNat_le, UInt8.le_iff_toNat_le] at hb
  obtain ⟨⟨hlow, hhigh⟩, hleast⟩ := fit_inside_iff.1 h
  refine Nat.le_trans hleast ?_
  omega

theorem fit_step {s : State} (h : s.Fit) (b : UInt8) : (step s b).2.Fit := by
  cases s with
  | start => exact fit_first b
  | inside p =>
    obtain ⟨owed, low, high, bits⟩ := p
    rw [step]
    split
    · rename_i hb
      have hbits := least_le h hb
      cases owed with
      | zero => trivial
      | succ k =>
        rw [if_neg (Nat.succ_ne_zero k)] at hbits
        refine fit_inside_iff.2 ⟨by decide, ?_⟩
        dsimp only
        split <;> omega
    · exact fit_first b

/-- An octet of ASCII ends what has begun, and stands for itself. -/
theorem step_ascii {s : State} {b : UInt8} (h : s.Fit) (hb : b.toNat < 0x80) :
    step s b = (finish s ++ [some (Char.ofNat b.toNat)], .start) := by
  have hfirst : first b = ([some (Char.ofNat b.toNat)], .start) := by
    have hle : b ≤ 0x7F := UInt8.le_iff_toNat_le.2 (Nat.le_of_lt_succ hb)
    rw [first, if_pos hle]
  cases s with
  | start => exact hfirst
  | inside p =>
    have hlow : ¬ (p.low ≤ b ∧ b ≤ p.high) := by
      rw [UInt8.le_iff_toNat_le]
      have hascii : 0x80 ≤ p.low.toNat := h.1.1
      omega
    rw [step, if_neg hlow, hfirst]
    rfl

theorem toNat_ofNat {n : Nat} (h : n.isValidChar) : (Char.ofNat n).toNat = n := by
  unfold Char.ofNat
  rw [dif_pos h]
  unfold Char.ofNatAux Char.toNat
  simp

/-- A value that is not below 128 is that of no character of ASCII, except that NUL stands for all
values that are those of no character. -/
theorem ofNat_ne_ascii {n : Nat} {c : Char} (h : 0x80 ≤ n) (hc : c.toNat < 0x80)
    (hnul : c ≠ '\x00') : Char.ofNat n ≠ c := by
  rintro rfl
  by_cases hvalid : n.isValidChar
  · rw [toNat_ofNat hvalid] at hc
    omega
  · refine hnul ?_
    unfold Char.ofNat
    rw [dif_neg hvalid]
    rfl

/-- **A character of ASCII comes from its own octet.** -/
theorem toNat_eq_of_mem_step {s : State} {b : UInt8} {c : Char} (h : s.Fit) (hc : c.toNat < 0x80)
    (hnul : c ≠ '\x00') (hmem : some c ∈ (step s b).1) : b.toNat = c.toNat := by
  have hfirst : some c ∈ (first b).1 → b.toNat = c.toNat := by
    intro hm
    unfold first at hm
    split at hm
    · rename_i hle
      have hb : b.toNat < 0x80 := Nat.lt_succ_of_le (UInt8.le_iff_toNat_le.1 hle)
      rw [Option.some.inj (List.mem_singleton.1 hm), toNat_ofNat (.inl (by omega))]
    · repeat' split at hm
      all_goals simp at hm
  cases s with
  | start => exact hfirst hmem
  | inside p =>
    obtain ⟨owed, low, high, bits⟩ := p
    rw [step] at hmem
    split at hmem
    · rename_i hb
      cases owed with
      | zero =>
        exact absurd (Option.some.inj (List.mem_singleton.1 hmem)).symm
          (ofNat_ne_ascii (least_le h hb) hc hnul)
      | succ k => exact absurd hmem List.not_mem_nil
    · exact hfirst ((List.mem_cons.1 hmem).resolve_left (by simp))

/-! ## All octets -/

theorem some_notMem_finish (s : State) (c : Char) : some c ∉ finish s := by
  cases s <;> simp [finish]

theorem scanFrom_append {s : State} {b : UInt8} (h : s.Fit) (hb : b.toNat < 0x80)
    (bytes rest : List UInt8) :
    scanFrom s (bytes ++ b :: rest) =
      scanFrom s bytes ++ some (Char.ofNat b.toNat) :: scanFrom .start rest := by
  induction bytes generalizing s with
  | nil =>
    show (step s b).1 ++ scanFrom (step s b).2 rest = finish s ++ _
    rw [step_ascii h hb, List.append_assoc]
    rfl
  | cons x bytes ih =>
    rw [List.cons_append, scanFrom, scanFrom, ih (fit_step h x), List.append_assoc]

/-- **Reading can be cut at an octet of ASCII.** -/
theorem scan_append {b : UInt8} (hb : b.toNat < 0x80) (bytes rest : List UInt8) :
    scan (bytes ++ b :: rest) = scan bytes ++ some (Char.ofNat b.toNat) :: scan rest :=
  scanFrom_append (s := .start) trivial hb bytes rest

/-- What an octet of ASCII emits has one character, and it is the last. -/
theorem finish_append_eq {s : State} {c : Char} {front mid : List (Option Char)}
    (h : finish s ++ [some c] = front ++ some c :: mid) : finish s = front ∧ mid = [] := by
  have hfinish := some_notMem_finish s c
  rcases List.append_eq_append_iff.1 h with ⟨more, rfl, hmore⟩ | ⟨more, hs, hmore⟩
  · cases more with
    | nil => exact ⟨(List.append_nil _).symm, (List.cons.inj hmore).2.symm⟩
    | cons d more => simp at hmore
  · cases more with
    | nil => exact ⟨hs.trans (List.append_nil _), (List.cons.inj hmore).2⟩
    | cons d more =>
      obtain ⟨rfl, -⟩ := List.cons.inj hmore
      exact absurd (hs ▸ List.mem_append_right front List.mem_cons_self) hfinish

theorem exists_of_scanFrom_eq {s : State} {c : Char} (h : s.Fit) (hc : c.toNat < 0x80)
    (hnul : c ≠ '\x00') {bytes : List UInt8} {front back : List (Option Char)}
    (heq : scanFrom s bytes = front ++ some c :: back) :
    ∃ before behind, bytes = before ++ UInt8.ofNat c.toNat :: behind ∧
      scanFrom s before = front ∧ scanFrom .start behind = back := by
  induction bytes generalizing s front with
  | nil =>
    have hmem : some c ∈ scanFrom s [] := heq ▸ List.mem_append_right front List.mem_cons_self
    exact absurd hmem (some_notMem_finish s c)
  | cons b bytes ih =>
    rw [scanFrom] at heq
    have hcases : (∃ more, front = (step s b).1 ++ more ∧
          scanFrom (step s b).2 bytes = more ++ some c :: back) ∨
        ∃ mid, (step s b).1 = front ++ some c :: mid ∧
          back = mid ++ scanFrom (step s b).2 bytes := by
      rcases List.append_eq_append_iff.1 heq with hlater | ⟨mid, hout, htail⟩
      · exact .inl hlater
      · cases mid with
        | nil => exact .inl ⟨[], by rw [hout]; simp, htail.symm⟩
        | cons d mid =>
          obtain ⟨rfl, hback⟩ := List.cons.inj htail
          exact .inr ⟨mid, hout, hback⟩
    rcases hcases with ⟨more, rfl, htail⟩ | ⟨mid, hout, rfl⟩
    · obtain ⟨before, behind, rfl, hbefore, hbehind⟩ := ih (fit_step h b) htail
      exact ⟨b :: before, behind, rfl, by rw [scanFrom, hbefore], hbehind⟩
    · -- the character comes from this octet, which ends what has begun
      have hmem : some c ∈ (step s b).1 := hout ▸ List.mem_append_right front List.mem_cons_self
      have hb := toNat_eq_of_mem_step h hc hnul hmem
      have hstep := step_ascii h (b := b) (by omega)
      rw [hb, Char.ofNat_toNat] at hstep
      rw [hstep] at hout
      obtain ⟨hfinish, rfl⟩ := finish_append_eq hout
      refine ⟨[], bytes, ?_, hfinish, by rw [hstep]; rfl⟩
      rw [← hb, UInt8.ofNat_toNat]
      rfl

/-- **A character of ASCII is read only from its own octet**, with what stands before and behind it
read on its own. -/
theorem exists_of_scan_eq {c : Char} (hc : c.toNat < 0x80) (hnul : c ≠ '\x00')
    {bytes : List UInt8} {front back : List (Option Char)}
    (h : scan bytes = front ++ some c :: back) :
    ∃ before behind, bytes = before ++ UInt8.ofNat c.toNat :: behind ∧
      scan before = front ∧ scan behind = back :=
  exists_of_scanFrom_eq (s := .start) trivial hc hnul h

/-! ## Lossy reading -/

theorem toList_decodeLossy (bytes : List UInt8) :
    (decodeLossy bytes).toList = (scan bytes).map fun c => c.getD '\uFFFD' := String.toList_ofList

theorem decodeLossy_append {b : UInt8} (hb : b.toNat < 0x80) (bytes rest : List UInt8) :
    (decodeLossy (bytes ++ b :: rest)).toList =
      (decodeLossy bytes).toList ++ Char.ofNat b.toNat :: (decodeLossy rest).toList := by
  rw [toList_decodeLossy, scan_append hb, List.map_append, List.map_cons, ← toList_decodeLossy,
    ← toList_decodeLossy]
  rfl

theorem exists_of_decodeLossy_eq {c : Char} (hc : c.toNat < 0x80) (hnul : c ≠ '\x00')
    {bytes : List UInt8} {front back : List Char}
    (h : (decodeLossy bytes).toList = front ++ c :: back) :
    ∃ before behind, bytes = before ++ UInt8.ofNat c.toNat :: behind ∧
      (decodeLossy before).toList = front ∧ (decodeLossy behind).toList = back := by
  rw [toList_decodeLossy, List.map_eq_append_iff] at h
  obtain ⟨u, w, hscan, rfl, hw⟩ := h
  obtain ⟨x, v, rfl, hx, rfl⟩ := List.map_eq_cons_iff.1 hw
  -- the sign for an ill-formed piece is none of ASCII
  obtain rfl : x = some c := by
    cases x with
    | none =>
      rw [Option.getD_none] at hx
      rw [← hx] at hc
      exact absurd hc (by decide)
    | some d => rw [← hx, Option.getD_some]
  obtain ⟨before, behind, rfl, rfl, rfl⟩ := exists_of_scan_eq hc hnul hscan
  exact ⟨before, behind, rfl, toList_decodeLossy before, toList_decodeLossy behind⟩

/-- An octet that emits nothing has begun a character. -/
theorem step_ne_start {s : State} {b : UInt8} (h : (step s b).1 = []) : (step s b).2 ≠ .start := by
  have hfirst : (first b).1 = [] → (first b).2 ≠ .start := by
    unfold first
    repeat' split
    all_goals simp
  cases s with
  | start => exact hfirst h
  | inside p =>
    obtain ⟨owed, low, high, bits⟩ := p
    rw [step] at h ⊢
    split at h
    · rename_i hb
      rw [if_pos hb]
      cases owed with
      | zero => cases h
      | succ k => simp
    · cases h

theorem scanFrom_eq_nil {s : State} {bytes : List UInt8} (h : scanFrom s bytes = []) :
    s = .start ∧ bytes = [] := by
  induction bytes generalizing s with
  | nil =>
    cases s with
    | start => exact ⟨rfl, rfl⟩
    | inside p => cases h
  | cons b bytes ih =>
    obtain ⟨hout, hrest⟩ := List.append_eq_nil_iff.1 h
    exact absurd (ih hrest).1 (step_ne_start hout)

theorem eq_nil_of_decodeLossy {bytes : List UInt8} (h : (decodeLossy bytes).toList = []) :
    bytes = [] := by
  rw [toList_decodeLossy, List.map_eq_nil_iff] at h
  exact (scanFrom_eq_nil h).2

end SymbolContext.Utf8
