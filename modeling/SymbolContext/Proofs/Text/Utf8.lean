import SymbolContext.Text.Utf8

/-!
# Reading back what was written in UTF-8

The machine that reads octets is followed through the octets of one character, by their number:
the first octet fixes how many follow and the bounds of the second (`first_two`, `first_three`,
`first_four`), and each following octet adds six bits (`step_more`, `step_last`).

* `scan_encode`: the octets of a text are read as its characters, so **`decode?` and `decodeLossy`
  undo `encode`**.
* `mem_encodeChar`: an ASCII octet occurs in no character but its own.
-/

namespace SymbolContext.Utf8

/-! ## Single octets -/

theorem first_ascii {n : Nat} (h : n < 128) :
    first (UInt8.ofNat n) = ([some (Char.ofNat n)], .start) := by
  have hall : ∀ m : Fin 128, first (UInt8.ofNat m) = ([some (Char.ofNat m)], .start) := by
    decide +kernel
  exact hall ⟨n, h⟩

theorem first_two {k : Nat} (hlow : 2 ≤ k) (hhigh : k < 32) :
    first (UInt8.ofNat (k + 0xC0)) = ([], .inside ⟨0, 0x80, 0xBF, k⟩) := by
  have hall : ∀ m : Fin 32, 2 ≤ m.val →
      first (UInt8.ofNat (m + 0xC0)) = ([], .inside ⟨0, 0x80, 0xBF, m⟩) := by decide
  exact hall ⟨k, hhigh⟩ hlow

theorem first_three {k : Nat} (h : k < 16) :
    first (UInt8.ofNat (k + 0xE0)) = ([], .inside ⟨1, if k = 0 then 0xA0 else 0x80,
      if k = 13 then 0x9F else 0xBF, k⟩) := by
  have hall : ∀ m : Fin 16, first (UInt8.ofNat (m + 0xE0)) = ([], .inside
      ⟨1, if m.val = 0 then 0xA0 else 0x80, if m.val = 13 then 0x9F else 0xBF, m⟩) := by decide
  exact hall ⟨k, h⟩

theorem first_four {k : Nat} (h : k < 5) :
    first (UInt8.ofNat (k + 0xF0)) = ([], .inside ⟨2, if k = 0 then 0x90 else 0x80,
      if k = 4 then 0x8F else 0xBF, k⟩) := by
  have hall : ∀ m : Fin 5, first (UInt8.ofNat (m + 0xF0)) = ([], .inside
      ⟨2, if m.val = 0 then 0x90 else 0x80, if m.val = 4 then 0x8F else 0xBF, m⟩) := by decide
  exact hall ⟨k, h⟩

section
variable {low high : UInt8} {bits k : Nat}

/-- The octet with the bits `k`, which follows the first of a character, is within bounds. -/
def Follows (k : Nat) (low high : UInt8) : Prop :=
  k < 64 ∧ low.toNat ≤ k + 0x80 ∧ k + 0x80 ≤ high.toNat

theorem follows_of_lt (h : k < 64) : Follows k 0x80 0xBF := by
  refine ⟨h, ?_, ?_⟩
  · show 0x80 ≤ k + 0x80
    omega
  · show k + 0x80 ≤ 0xBF
    omega

/-- After some first octets the bounds are closer. -/
theorem follows_of_bounds {p q : Prop} [Decidable p] [Decidable q] (h : k < 64)
    (hlow : p → low.toNat ≤ k + 0x80) (hhigh : q → k + 0x80 ≤ high.toNat) :
    Follows k (if p then low else 0x80) (if q then high else 0xBF) := by
  obtain ⟨-, hall⟩ := follows_of_lt h
  refine ⟨h, ?_, ?_⟩
  · split
    · exact hlow ‹p›
    · exact hall.1
  · split
    · exact hhigh ‹q›
    · exact hall.2

theorem Follows.between (h : Follows k low high) :
    low ≤ UInt8.ofNat (k + 0x80) ∧ UInt8.ofNat (k + 0x80) ≤ high ∧
      (UInt8.ofNat (k + 0x80)).toNat % 64 = k := by
  obtain ⟨hk, hlow, hhigh⟩ := h
  have hb : (UInt8.ofNat (k + 0x80)).toNat = k + 0x80 := by
    rw [UInt8.toNat_ofNat']
    omega
  rw [UInt8.le_iff_toNat_le, UInt8.le_iff_toNat_le, hb]
  exact ⟨hlow, hhigh, by omega⟩

theorem step_last (h : Follows k low high) :
    step (.inside ⟨0, low, high, bits⟩) (UInt8.ofNat (k + 0x80)) =
      ([some (Char.ofNat (bits * 64 + k))], .start) := by
  obtain ⟨hlow, hhigh, hmod⟩ := h.between
  simp only [step, if_pos (And.intro hlow hhigh), hmod]

theorem step_more {owed : Nat} (h : Follows k low high) :
    step (.inside ⟨owed + 1, low, high, bits⟩) (UInt8.ofNat (k + 0x80)) =
      ([], .inside ⟨owed, 0x80, 0xBF, bits * 64 + k⟩) := by
  obtain ⟨hlow, hhigh, hmod⟩ := h.between
  simp only [step, if_pos (And.intro hlow hhigh), hmod]

end

/-! ## One character -/

/-- No character is a surrogate or above U+10FFFF. -/
theorem char_valid (c : Char) :
    c.val.toNat < 0xD800 ∨ (0xDFFF < c.val.toNat ∧ c.val.toNat < 0x110000) := c.valid

section
variable {v : Nat} (rest : List UInt8)

theorem scanFrom_one (h : v < 0x80) :
    scanFrom .start (UInt8.ofNat v :: rest) = some (Char.ofNat v) :: scanFrom .start rest := by
  rw [scanFrom, step, first_ascii h]
  rfl

theorem scanFrom_two (hlow : 0x80 ≤ v) (hhigh : v < 0x800) :
    scanFrom .start (UInt8.ofNat (v / 64 % 32 + 0xC0) :: UInt8.ofNat (v % 64 + 0x80) :: rest) =
      some (Char.ofNat v) :: scanFrom .start rest := by
  have hsum : v / 64 % 32 * 64 + v % 64 = v := by omega
  rw [scanFrom, step, first_two (by omega) (by omega), scanFrom,
    step_last (follows_of_lt (by omega)), hsum]
  rfl

/-- The second octet of three is bounded below after `E0` and above after `ED`. -/
theorem scanFrom_three (hlow : 0x800 ≤ v) (hhigh : v < 0x10000)
    (hvalid : v < 0xD800 ∨ 0xDFFF < v) :
    scanFrom .start (UInt8.ofNat (v / 4096 % 16 + 0xE0) :: UInt8.ofNat (v / 64 % 64 + 0x80) ::
      UInt8.ofNat (v % 64 + 0x80) :: rest) = some (Char.ofNat v) :: scanFrom .start rest := by
  have hsum : (v / 4096 % 16 * 64 + v / 64 % 64) * 64 + v % 64 = v := by omega
  have hsecond : Follows (v / 64 % 64) (if v / 4096 % 16 = 0 then 0xA0 else 0x80)
      (if v / 4096 % 16 = 13 then 0x9F else 0xBF) := by
    refine follows_of_bounds (by omega) (fun hzero => ?_) fun hlast => ?_
    · show 0xA0 ≤ _
      omega
    · show _ ≤ 0x9F
      omega
  rw [scanFrom, step, first_three (by omega), scanFrom, step_more hsecond, scanFrom,
    step_last (follows_of_lt (by omega)), hsum]
  rfl

/-- The second octet of four is bounded below after `F0` and above after `F4`. -/
theorem scanFrom_four (hlow : 0x10000 ≤ v) (hhigh : v < 0x110000) :
    scanFrom .start (UInt8.ofNat (v / 262144 % 8 + 0xF0) :: UInt8.ofNat (v / 4096 % 64 + 0x80) ::
      UInt8.ofNat (v / 64 % 64 + 0x80) :: UInt8.ofNat (v % 64 + 0x80) :: rest) =
        some (Char.ofNat v) :: scanFrom .start rest := by
  have hsum : ((v / 262144 % 8 * 64 + v / 4096 % 64) * 64 + v / 64 % 64) * 64 + v % 64 = v := by
    omega
  have hsecond : Follows (v / 4096 % 64) (if v / 262144 % 8 = 0 then 0x90 else 0x80)
      (if v / 262144 % 8 = 4 then 0x8F else 0xBF) := by
    refine follows_of_bounds (by omega) (fun hzero => ?_) fun hlast => ?_
    · show 0x90 ≤ _
      omega
    · show _ ≤ 0x8F
      omega
  rw [scanFrom, step, first_four (by omega), scanFrom, step_more hsecond, scanFrom,
    step_more (follows_of_lt (by omega)), scanFrom, step_last (follows_of_lt (by omega)), hsum]
  rfl

end

/-- **The octets of a character are read as that character.** -/
theorem scanFrom_char (c : Char) (rest : List UInt8) :
    scanFrom .start (String.utf8EncodeChar c ++ rest) = some c :: scanFrom .start rest := by
  have hvalid := char_valid c
  have hc : Char.ofNat c.val.toNat = c := Char.ofNat_toNat c
  unfold String.utf8EncodeChar
  generalize c.val.toNat = v at *
  subst hc
  dsimp only
  split
  · exact scanFrom_one rest (by omega)
  · split
    · exact scanFrom_two rest (by omega) (by omega)
    · split
      · exact scanFrom_three rest (by omega) (by omega) (by omega)
      · exact scanFrom_four rest (by omega) (by omega)

/-- An ASCII octet occurs in no character but its own. -/
theorem mem_encodeChar {c : Char} {b : UInt8} (h : b ∈ String.utf8EncodeChar c)
    (hb : b.toNat < 128) : c.toNat = b.toNat := by
  show c.val.toNat = b.toNat
  unfold String.utf8EncodeChar at h
  generalize c.val.toNat = v at *
  have hoctet : ∀ k, (UInt8.ofNat k).toNat = k % 256 := fun k => UInt8.toNat_ofNat'
  dsimp only at h
  split at h
  · rw [List.mem_singleton.1 h, hoctet]
    omega
  · exfalso
    split at h
    · simp only [List.mem_cons, List.not_mem_nil, or_false] at h
      rcases h with rfl | rfl <;> rw [hoctet] at hb <;> omega
    · split at h
      · simp only [List.mem_cons, List.not_mem_nil, or_false] at h
        rcases h with rfl | rfl | rfl <;> rw [hoctet] at hb <;> omega
      · simp only [List.mem_cons, List.not_mem_nil, or_false] at h
        rcases h with rfl | rfl | rfl | rfl <;> rw [hoctet] at hb <;> omega

/-! ## Texts -/

@[simp] theorem encode_append (s t : String) : encode (s ++ t) = encode s ++ encode t := by
  simp [encode, String.toList_append]

theorem scanFrom_flatMap (cs : List Char) :
    scanFrom .start (cs.flatMap String.utf8EncodeChar) = cs.map some := by
  induction cs with
  | nil => rfl
  | cons c cs ih => rw [List.flatMap_cons, scanFrom_char, ih, List.map_cons]

/-- **The octets of a text are read as its characters.** -/
theorem scan_encode (s : String) : scan (encode s) = s.toList.map some :=
  scanFrom_flatMap s.toList

theorem decode?_encode (s : String) : decode? (encode s) = some s := by
  have hall : ∀ cs : List Char, (cs.map some).mapM id = some cs := fun cs => by
    induction cs with
    | nil => rfl
    | cons c cs ih => rw [List.map_cons, List.mapM_cons, ih]; rfl
  rw [decode?, scan_encode, hall, Option.map_some, String.ofList_toList]

theorem decodeLossy_encode (s : String) : decodeLossy (encode s) = s := by
  rw [decodeLossy, scan_encode, List.map_map]
  show String.ofList (s.toList.map id) = s
  rw [List.map_id, String.ofList_toList]

end SymbolContext.Utf8
