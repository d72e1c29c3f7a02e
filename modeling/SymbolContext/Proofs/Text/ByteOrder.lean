import Mathlib.Algebra.Group.Nat.Defs
import SymbolContext.Text.Utf8

/-!
# The order of octets

Texts are ordered by their characters, and the octets of a text are ordered alike. A character is
written as a first octet and some continuation octets of six bits each (`octets`). Among characters
of one length, its octets are its digits; a longer one begins with a greater octet.

* `octets_lt`: **more digits do not change the order**, by induction on their number.
* `encode_lt`: **texts in order have their octets in order.**
-/

namespace SymbolContext.Utf8

/-- A number in `k` continuation octets, behind a first octet marked with `lead`. -/
def octets (lead : Nat) : Nat → Nat → List UInt8
  | 0, v => [UInt8.ofNat (v + lead)]
  | k + 1, v => octets lead k (v / 64) ++ [UInt8.ofNat (v % 64 + 128)]

theorem cons_lt {m n : Nat} (h : m < n) (hn : n < 256) (xs ys : List UInt8) :
    UInt8.ofNat m :: xs < UInt8.ofNat n :: ys := by
  refine List.cons_lt_cons_iff.2 (.inl ?_)
  rw [UInt8.lt_iff_toNat_lt, UInt8.toNat_ofNat', UInt8.toNat_ofNat',
    Nat.mod_eq_of_lt (Nat.lt_trans h hn), Nat.mod_eq_of_lt hn]
  exact h

theorem octets_lt {lead k v w : Nat} (h : v < w) (hw : w / 64 ^ k + lead < 256)
    (xs ys : List UInt8) : octets lead k v ++ xs < octets lead k w ++ ys := by
  induction k generalizing v w xs ys with
  | zero =>
    rw [Nat.pow_zero, Nat.div_one] at hw
    exact cons_lt (by omega) hw xs ys
  | succ k ih =>
    simp only [octets, List.append_assoc, List.singleton_append]
    by_cases hdigits : v / 64 < w / 64
    · apply ih hdigits
      rwa [Nat.div_div_eq_div_mul, ← Nat.pow_succ']
    · have hsame : v / 64 = w / 64 := by omega
      rw [hsame]
      exact List.append_left_lt (cons_lt (by omega) (by omega) xs ys)

/-- The first octet. -/
theorem octets_eq_cons (lead k v : Nat) :
    ∃ rest, octets lead k v = UInt8.ofNat (v / 64 ^ k + lead) :: rest := by
  induction k generalizing v with
  | zero => exact ⟨[], by simp [octets]⟩
  | succ k ih =>
    obtain ⟨rest, hrest⟩ := ih (v / 64)
    refine ⟨rest ++ [UInt8.ofNat (v % 64 + 128)], ?_⟩
    rw [octets, hrest, Nat.div_div_eq_div_mul, ← Nat.pow_succ', List.cons_append]

/-- What the first octet before `k` continuation octets is marked with. -/
def mark : Nat → Nat
  | 0 => 0
  | 1 => 192
  | 2 => 224
  | 3 => 240
  | _ => 248

/-- The least number that needs `k` continuation octets. -/
def least : Nat → Nat
  | 0 => 0
  | 1 => 0x80
  | 2 => 0x800
  | 3 => 0x10000
  | _ => 0x110000

theorem mark_least_mono : ∀ l ≤ 3, ∀ k < l, mark (k + 1) ≤ mark l ∧ least (k + 1) ≤ least l := by
  decide

theorem first_lt : ∀ {k v : Nat}, k ≤ 3 → v < least (k + 1) → v / 64 ^ k + mark k < mark (k + 1)
  | 0, v, _, h | 1, v, _, h | 2, v, _, h | 3, v, _, h => by
    simp only [least] at h
    simp only [mark]
    omega

/-- A character is written in as few octets as it fits in. -/
theorem encodeChar_eq_octets (c : Char) : ∃ k ≤ 3,
    (least k ≤ c.val.toNat ∧ c.val.toNat < least (k + 1)) ∧
      String.utf8EncodeChar c = octets (mark k) k c.val.toNat := by
  have hvalid : c.val.toNat < 0xd800 ∨ 0xdfff < c.val.toNat ∧ c.val.toNat < 0x110000 := c.valid
  unfold String.utf8EncodeChar
  generalize c.val.toNat = v at *
  have hdigits : v / 64 / 64 = v / 4096 ∧ v / 4096 / 64 = v / 262144 := by omega
  dsimp only
  split
  · exact ⟨0, by decide, by simp only [least]; omega, rfl⟩
  split
  · refine ⟨1, by decide, by simp only [least]; omega, ?_⟩
    rw [Nat.mod_eq_of_lt (by omega : v / 64 < 32)]
    rfl
  split
  · refine ⟨2, by decide, by simp only [least]; omega, ?_⟩
    rw [Nat.mod_eq_of_lt (by omega : v / 4096 < 16), ← hdigits.1]
    rfl
  · refine ⟨3, by decide, by simp only [least]; omega, ?_⟩
    rw [Nat.mod_eq_of_lt (by omega : v / 262144 < 8), ← hdigits.2, ← hdigits.1]
    rfl

theorem encodeChar_lt {c d : Char} (h : c < d) (xs ys : List UInt8) :
    String.utf8EncodeChar c ++ xs < String.utf8EncodeChar d ++ ys := by
  have hval : c.val.toNat < d.val.toNat := h
  obtain ⟨k, hk, ⟨hleast, hbound⟩, hc⟩ := encodeChar_eq_octets c
  obtain ⟨l, hl, ⟨hleast', hbound'⟩, hd⟩ := encodeChar_eq_octets d
  have hfirst := first_lt hk hbound
  have hfirst' := first_lt hl hbound'
  have htop : mark (l + 1) ≤ 248 := by
    have hall : ∀ l ≤ 3, mark (l + 1) ≤ 248 := by decide
    exact hall l hl
  rw [hc, hd]
  rcases Nat.lt_trichotomy k l with hlt | rfl | hlt
  · obtain ⟨hmark, -⟩ := mark_least_mono l hl k hlt
    obtain ⟨rest, hrest⟩ := octets_eq_cons (mark k) k c.val.toNat
    obtain ⟨rest', hrest'⟩ := octets_eq_cons (mark l) l d.val.toNat
    rw [hrest, hrest']
    have hbelow := Nat.le_trans hmark (Nat.le_add_left (mark l) (d.val.toNat / 64 ^ l))
    exact cons_lt (Nat.lt_of_lt_of_le hfirst hbelow) (by omega) _ _
  · exact octets_lt hval (by omega) xs ys
  · obtain ⟨-, hless⟩ := mark_least_mono k hk l hlt
    omega

theorem encode_lt {s t : String} (h : s < t) : encode s < encode t := by
  rw [String.lt_iff] at h
  unfold encode
  generalize s.toList = cs at h
  generalize t.toList = ds at h
  induction h with
  | nil =>
    rename_i c cs
    obtain ⟨k, -, -, hc⟩ := encodeChar_eq_octets c
    obtain ⟨rest, hrest⟩ := octets_eq_cons (mark k) k c.val.toNat
    rw [List.flatMap_cons, hc, hrest]
    exact List.nil_lt_cons _ _
  | rel h =>
    rw [List.flatMap_cons, List.flatMap_cons]
    exact encodeChar_lt h _ _
  | cons _ ih =>
    rw [List.flatMap_cons, List.flatMap_cons]
    exact List.append_left_lt ih

end SymbolContext.Utf8
