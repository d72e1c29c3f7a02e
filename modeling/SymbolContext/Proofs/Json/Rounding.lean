import Mathlib
import SymbolContext.Json.Number

/-!
# Rounding

What `Float` arithmetic does to numbers, in exact arithmetic. A mantissa and an exponent are
rounded by a shift to the exponent that leaves fifty-three bits; what is cut off moves the
mantissa by at most one half.

* `size_round`, `cut_rounded_dyadic_le`: what a number is rounded to, and how much larger that is.
* `under_round_of_lt`: **a number below `overflowBound` stays finite.**
* `isFinite_mul_of_lt`, `isFinite_div`, `unpack_toFloat`: what this says of arithmetic.
-/

open Float.Model Float.Model.UnpackedFloat

namespace SymbolContext.Double

/-- The number `m * 2 ^ e`. -/
def dyadic (m : Nat) (e : Int) : ℚ := m * 2 ^ e

/-- From here on numbers are rounded to infinity. -/
def overflowBound : Nat := (2 ^ 54 - 1) * 2 ^ 970

theorem dyadic_nonneg (m : Nat) (e : Int) : 0 ≤ dyadic m e := by
  unfold dyadic
  positivity

theorem dyadic_shift (m k : Nat) (e : Int) : dyadic (m * 2 ^ k) e = dyadic m (e + k) := by
  unfold dyadic
  rw [zpow_add₀ two_ne_zero, zpow_natCast]
  push_cast
  ring

theorem dyadic_mul (m n : Nat) (e f : Int) :
    dyadic (m * n) (e + f) = dyadic m e * dyadic n f := by
  unfold dyadic
  rw [zpow_add₀ two_ne_zero]
  push_cast
  ring

theorem two_zpow_le_dyadic {m : Nat} (hm : m ≠ 0) (e : Int) :
    (2 : ℚ) ^ (m.log2 + e) ≤ dyadic m e := by
  have hlog : ((2 ^ m.log2 : Nat) : ℚ) ≤ m := by exact_mod_cast Nat.log2_self_le hm
  rw [zpow_add₀ two_ne_zero, zpow_natCast]
  unfold dyadic
  push_cast at hlog
  exact mul_le_mul_of_nonneg_right hlog (by positivity)

/-! ## One shift -/

theorem mantissa_shift (em : ExtendedMantissa) (k : Nat) :
    (em >>> k).mantissa = em.mantissa / 2 ^ k := by
  induction k with
  | zero => exact (Nat.div_one _).symm
  | succ k ih =>
    have hstep : (em >>> (k + 1)).mantissa = (em >>> k).mantissa / 2 := rfl
    rw [hstep, ih, Nat.div_div_eq_div_mul, Nat.pow_succ]

theorem roundBit_shift (em : ExtendedMantissa) (k : Nat) :
    (em >>> (k + 1)).roundBit = (em.mantissa / 2 ^ k % 2 != 0) := by
  have hstep : (em >>> (k + 1)).roundBit = ((em >>> k).mantissa % 2 != 0) := rfl
  rw [hstep, mantissa_shift]

theorem le_roundedMantissa (em : ExtendedMantissa) : em.mantissa ≤ em.roundedMantissa := by
  obtain ⟨m, r, s⟩ := em
  cases r <;> cases s <;> simp [ExtendedMantissa.roundedMantissa, ExtendedMantissa.accuracy,
    Accuracy.roundToNearestEven]

theorem roundedMantissa_le (em : ExtendedMantissa) :
    em.roundedMantissa ≤ em.mantissa + em.roundBit.toNat := by
  obtain ⟨m, r, s⟩ := em
  cases r <;> cases s <;> simp [ExtendedMantissa.roundedMantissa, ExtendedMantissa.accuracy,
    Accuracy.roundToNearestEven]
  omega

/-- The mantissa moves up by at most one half of what its last bit counts. -/
theorem rounded_shift_le (m k : Nat) :
    2 * ((⟨m, false, false⟩ : ExtendedMantissa) >>> k).roundedMantissa * 2 ^ k ≤
      2 * m + 2 ^ k := by
  have hle := roundedMantissa_le ((⟨m, false, false⟩ : ExtendedMantissa) >>> k)
  rw [mantissa_shift] at hle
  cases k with
  | zero =>
    have hbit : ((⟨m, false, false⟩ : ExtendedMantissa) >>> 0).roundBit.toNat = 0 := rfl
    rw [hbit] at hle
    simp only [Nat.pow_zero, Nat.div_one, Nat.mul_one] at hle ⊢
    omega
  | succ k =>
    rw [roundBit_shift] at hle
    -- the half that is rounded up is in the mantissa: its first bit cut off is one
    have hhalf : 2 * (m / 2 ^ (k + 1)) + m / 2 ^ k % 2 = m / 2 ^ k := by
      rw [Nat.pow_succ, ← Nat.div_div_eq_div_mul]
      omega
    have hfloor : m / 2 ^ k * 2 ^ k ≤ m := Nat.div_mul_le_self m (2 ^ k)
    have hbit : (m / 2 ^ k % 2 != 0).toNat = m / 2 ^ k % 2 := by
      rcases Nat.mod_two_eq_zero_or_one (m / 2 ^ k) with h | h <;> simp [h]
    simp only [hbit] at hle
    have htop : 2 * ((⟨m, false, false⟩ : ExtendedMantissa) >>> (k + 1)).roundedMantissa ≤
        m / 2 ^ k + 1 := by omega
    calc 2 * ((⟨m, false, false⟩ : ExtendedMantissa) >>> (k + 1)).roundedMantissa * 2 ^ (k + 1)
        ≤ (m / 2 ^ k + 1) * 2 ^ (k + 1) := Nat.mul_le_mul_right _ htop
      _ = 2 * (m / 2 ^ k * 2 ^ k) + 2 ^ (k + 1) := by rw [Nat.pow_succ]; ring
      _ ≤ 2 * m + 2 ^ (k + 1) := by omega

/-! ## Rounding to fifty-three bits -/

/-- The exponent that leaves at most fifty-three bits of a mantissa, and is one of a double. -/
def fitted (m : Nat) (e : Int) : Int := max e (max (m.log2 - 52 + e) (-1074))

/-- The mantissa for this exponent, before the bits that are cut off are rounded. -/
def cut (m : Nat) (e : Int) (a : Accuracy) : ExtendedMantissa :=
  ExtendedMantissa.ofMantissaAndAccuracy m a >>> (fitted m e - e).toNat

theorem ofMantissaAndAccuracy_mantissa (m : Nat) (a : Accuracy) :
    (ExtendedMantissa.ofMantissaAndAccuracy m a).mantissa = m := by
  cases a with
  | exact => rfl
  | inexact o => cases o <;> rfl

theorem targetExponent_eq (t : Int) :
    Format.binary64.targetExponent t = max (t - 53) (-1074) := rfl

theorem shiftToTargetExponent_eq (m : Nat) (e : Int) (a : Accuracy) :
    shiftToTargetExponent Format.binary64 m e a = (cut m e a, fitted m e) := by
  have hshift : (max (totalExponent m e - 53) (-1074) - e).toNat = (fitted m e - e).toNat := by
    unfold fitted totalExponent
    omega
  unfold shiftToTargetExponent shiftToExponent cut
  simp only [targetExponent_eq, hshift]
  refine Prod.ext rfl ?_
  change e + ((fitted m e - e).toNat : Int) = fitted m e
  unfold fitted
  omega

theorem cut_mantissa_lt (m : Nat) (e : Int) (a : Accuracy) : (cut m e a).mantissa < 2 ^ 53 := by
  unfold cut
  rw [mantissa_shift, ofMantissaAndAccuracy_mantissa, Nat.div_lt_iff_lt_mul (by positivity),
    ← Nat.pow_add]
  refine Nat.lt_of_lt_of_le Nat.lt_log2_self (Nat.pow_le_pow_right (by decide) ?_)
  unfold fitted
  omega

theorem cut_rounded_le (m : Nat) (e : Int) (a : Accuracy) :
    (cut m e a).roundedMantissa ≤ 2 ^ 53 := by
  have hle := roundedMantissa_le (cut m e a)
  have hlt := cut_mantissa_lt m e a
  have hbit := Bool.toNat_le (cut m e a).roundBit
  omega

/-- What fits is left alone. -/
theorem fitted_of_lt {m : Nat} {e : Int} (hm : m < 2 ^ 53) (he : -1074 ≤ e) : fitted m e = e := by
  have hlog : m.log2 ≤ 52 := by
    by_cases h : m = 0
    · subst h
      decide
    · have := (Nat.log2_lt h).2 hm
      omega
  unfold fitted
  omega

theorem cut_of_fitted {m : Nat} {e : Int} {a : Accuracy} (h : fitted m e = e) :
    (cut m e a).mantissa = m := by
  unfold cut
  rw [h, mantissa_shift, ofMantissaAndAccuracy_mantissa]
  simp

/-- A mantissa and an exponent, as they are; without a mantissa it is zero. -/
def settled (s : Sign) (m : Nat) (e : Int) : UnpackedFloat :=
  if h : m = 0 then .zero s else .finite s m e (Nat.pos_of_ne_zero h)

/-- **How a number is rounded.** A mantissa that is rounded up to fifty-four bits is halved once
more. -/
theorem roundWithAccuracy_eq (s : Sign) (m : Nat) (e : Int) (a : Accuracy) :
    roundWithAccuracy Format.binary64 s m e a =
      if (cut m e a).roundedMantissa < 2 ^ 53 then
        settled s (cut m e a).roundedMantissa (fitted m e)
      else settled s (2 ^ 52) (fitted m e + 1) := by
  have hbot : -1074 ≤ fitted m e := by
    unfold fitted
    omega
  have htop := cut_rounded_le m e a
  have hround : roundWithAccuracy Format.binary64 s m e a =
      settled s (cut (cut m e a).roundedMantissa (fitted m e) .exact).mantissa
        (fitted (cut m e a).roundedMantissa (fitted m e)) := by
    simp only [roundWithAccuracy, shiftToTargetExponent_eq, settled]
  rw [hround]
  by_cases hlt : (cut m e a).roundedMantissa < 2 ^ 53
  · have hfit := fitted_of_lt hlt hbot
    rw [if_pos hlt, cut_of_fitted hfit, hfit]
  · have heq : (cut m e a).roundedMantissa = 2 ^ 53 := by omega
    have hlog : (2 ^ 53 : Nat).log2 = 53 := by decide
    have hfit : fitted (2 ^ 53) (fitted m e) = fitted m e + 1 := by
      rw [fitted, hlog]
      omega
    have hone : (fitted m e + 1 - fitted m e).toNat = 1 := by omega
    have hcut : (cut (2 ^ 53) (fitted m e) .exact).mantissa = 2 ^ 52 := by
      rw [cut, hfit, hone, mantissa_shift, ofMantissaAndAccuracy_mantissa]
      rfl
    rw [if_neg hlt, heq, hcut, hfit]

/-- The magnitude of a finite number. -/
def size : UnpackedFloat → ℚ
  | .finite _ m e _ => dyadic m e
  | _ => 0

theorem size_settled (s : Sign) (m : Nat) (e : Int) : size (settled s m e) = dyadic m e := by
  unfold settled
  split
  case isTrue h => simp [size, dyadic, h]
  case isFalse h => rfl

/-- The magnitude of a rounded number. -/
theorem size_round (s : Sign) (m : Nat) (e : Int) (a : Accuracy) :
    size (roundWithAccuracy Format.binary64 s m e a) =
      dyadic (cut m e a).roundedMantissa (fitted m e) := by
  rw [roundWithAccuracy_eq]
  split
  case isTrue hlt => exact size_settled s _ _
  case isFalse hlt =>
    have heq : (cut m e a).roundedMantissa = 2 ^ 52 * 2 ^ 1 := by
      have hle := cut_rounded_le m e a
      omega
    rw [size_settled, heq, dyadic_shift]
    rfl

/-- Rounding adds at most one half of what the last bit counts. -/
theorem cut_rounded_dyadic_le (m : Nat) (e : Int) :
    2 * dyadic (cut m e .exact).roundedMantissa (fitted m e) ≤ 2 * dyadic m e + 2 ^ fitted m e := by
  obtain ⟨k, hk⟩ : ∃ k : Nat, fitted m e = e + k :=
    ⟨(fitted m e - e).toNat, by unfold fitted; omega⟩
  have hshift : (fitted m e - e).toNat = k := by omega
  have hle := rounded_shift_le m k
  have hcut : cut m e .exact = (⟨m, false, false⟩ : ExtendedMantissa) >>> k := by
    rw [cut, hshift]
    rfl
  rw [← hcut] at hle
  have hrat : 2 * ((cut m e .exact).roundedMantissa : ℚ) * 2 ^ k ≤ 2 * m + 2 ^ k := by
    exact_mod_cast hle
  have hpow : (0 : ℚ) ≤ 2 ^ e := by positivity
  rw [hk, ← dyadic_shift, zpow_add₀ two_ne_zero, zpow_natCast]
  unfold dyadic
  push_cast
  nlinarith [mul_le_mul_of_nonneg_right hrat hpow]

/-! ## Overflow -/

/-- Finite, with an exponent of at most `top`. -/
def Under (top : Int) : UnpackedFloat → Prop
  | .zero _ => True
  | .finite _ _ e _ => e ≤ top
  | _ => False

theorem under_settled {top e : Int} (h : e ≤ top) (s : Sign) (m : Nat) :
    Under top (settled s m e) := by
  unfold settled
  split
  · trivial
  · exact h

theorem under_round {top e : Int} {m : Nat} (h : fitted m e < top) (s : Sign) (a : Accuracy) :
    Under top (roundWithAccuracy Format.binary64 s m e a) := by
  rw [roundWithAccuracy_eq]
  split
  · exact under_settled (by omega) s _
  · exact under_settled (by omega) s _

theorem overflowBound_eq : (overflowBound : ℚ) = (2 ^ 54 - 1) * 2 ^ (970 : Int) := by
  unfold overflowBound
  rw [Nat.cast_mul, Nat.cast_sub (Nat.one_le_two_pow), show (970 : Int) = (970 : Nat) from rfl,
    zpow_natCast]
  simp only [Nat.cast_pow, Nat.cast_ofNat, Nat.cast_one]

theorem log2_add_lt {m : Nat} {e : Int} (hm : m ≠ 0) (h : dyadic m e < overflowBound) :
    m.log2 + e < 1024 := by
  have hpow : (2 : ℚ) ^ (m.log2 + e) < 2 ^ (1024 : Int) := by
    calc (2 : ℚ) ^ (m.log2 + e) ≤ dyadic m e := two_zpow_le_dyadic hm e
      _ < overflowBound := h
      _ = (2 ^ 54 - 1) * 2 ^ (970 : Int) := overflowBound_eq
      _ ≤ 2 ^ (54 : Int) * 2 ^ (970 : Int) := by
        refine mul_le_mul_of_nonneg_right ?_ (by positivity)
        norm_num
      _ = 2 ^ (1024 : Int) := by rw [← zpow_add₀ two_ne_zero]; rfl
  exact (zpow_lt_zpow_iff_right₀ (by norm_num)).1 hpow

/-- **A number below the bound stays finite.** -/
theorem under_round_of_lt {m : Nat} {e : Int} (he : e ≤ 971) (h : dyadic m e < overflowBound)
    (s : Sign) : Under 971 (roundWithAccuracy Format.binary64 s m e .exact) := by
  have hfit : fitted m e ≤ 971 := by
    by_cases hm : m = 0
    · subst hm
      have hlog : Nat.log2 0 = 0 := Nat.log2_zero
      unfold fitted
      omega
    · have hlog := log2_add_lt hm h
      unfold fitted
      omega
  rcases Int.lt_or_eq_of_le hfit with hlt | heq
  · exact under_round hlt s .exact
  · rw [roundWithAccuracy_eq, if_pos]
    · exact under_settled hfit s _
    · -- a mantissa that is rounded up to the next power would be half a bit beyond the bound
      refine Nat.lt_of_not_le fun hge => ?_
      have hnear := cut_rounded_dyadic_le m e
      have hle : dyadic (2 ^ 53) 971 ≤ dyadic (cut m e .exact).roundedMantissa 971 := by
        unfold dyadic
        exact mul_le_mul_of_nonneg_right (by exact_mod_cast hge) (by positivity)
      have hsplit : (2 : ℚ) ^ (971 : Int) = 2 * 2 ^ (970 : Int) := by
        rw [show (971 : Int) = 1 + 970 from rfl, zpow_add₀ two_ne_zero, zpow_one]
      have hpos : (0 : ℚ) < 2 ^ (970 : Int) := by positivity
      rw [overflowBound_eq] at h
      rw [heq, hsplit] at hnear
      unfold dyadic at hle hnear h
      rw [hsplit] at hle hnear
      generalize (2 : ℚ) ^ (970 : Int) = unit at *
      push_cast at hle
      linarith

/-! ## Numbers with all their bits -/

section
variable {m : Nat} {e : Int} (hm : 52 ≤ m.log2) (he : -1074 ≤ m.log2 - 52 + e)
include hm he

theorem fitted_of_normal : fitted m e = m.log2 - 52 + e := by
  unfold fitted
  omega

theorem le_cut_rounded : 2 ^ 52 ≤ (cut m e .exact).roundedMantissa := by
  have hne : m ≠ 0 := by
    rintro rfl
    simp at hm
  have hfit := fitted_of_normal hm he
  refine Nat.le_trans ?_ (le_roundedMantissa _)
  rw [cut, mantissa_shift, ofMantissaAndAccuracy_mantissa, Nat.le_div_iff_mul_le (by positivity),
    ← Nat.pow_add]
  refine Nat.le_trans (Nat.pow_le_pow_right (by decide) ?_) (Nat.log2_self_le hne)
  omega

theorem dyadic_cut_rounded_le : dyadic (cut m e .exact).roundedMantissa (fitted m e) ≤
    dyadic m e * (1 + 1 / 2 ^ 53) := by
  have hne : m ≠ 0 := by
    rintro rfl
    simp at hm
  have hnear := cut_rounded_dyadic_le m e
  have hlow := two_zpow_le_dyadic hne e
  have hpow : (2 : ℚ) ^ (m.log2 + e) = 2 ^ fitted m e * 2 ^ 52 := by
    rw [fitted_of_normal hm he, ← zpow_natCast, ← zpow_add₀ two_ne_zero]
    congr 1
    push_cast
    omega
  rw [hpow] at hlow
  linarith

/-- A rounded number has all its fifty-three bits unless it is very small, and has gained at most
`2 ^ -53` of itself. -/
theorem round_of_normal (s : Sign) :
    ∃ m' e' h, roundWithAccuracy Format.binary64 s m e .exact = .finite s m' e' h ∧
      2 ^ 52 ≤ m' ∧ m' < 2 ^ 53 ∧ m.log2 - 52 + e ≤ e' ∧
      dyadic m' e' ≤ dyadic m e * (1 + 1 / 2 ^ 53) := by
  have hfit := fitted_of_normal hm he
  have hfloor := le_cut_rounded hm he
  have hsize := dyadic_cut_rounded_le hm he
  have hround := size_round s m e .exact
  rw [roundWithAccuracy_eq] at hround ⊢
  by_cases hlt : (cut m e .exact).roundedMantissa < 2 ^ 53
  · rw [if_pos hlt]
    refine ⟨_, _, Nat.lt_of_lt_of_le (by decide) hfloor, dif_neg (by omega), hfloor, hlt, ?_, hsize⟩
    omega
  · -- the carry leaves the least mantissa, one exponent higher
    rw [if_neg hlt] at hround ⊢
    refine ⟨2 ^ 52, fitted m e + 1, by decide, dif_neg (by decide), by decide, by decide, ?_, ?_⟩
    · omega
    · rw [size_settled] at hround
      rw [hround]
      exact hsize

end

/-! ## Sixty-four bits -/

theorem ofNat_ne_allOnes {n : Nat} (h : n < 2047) : BitVec.ofNat 11 n ≠ -1#11 := by
  intro heq
  have hnat := congrArg BitVec.toNat heq
  simp at hnat
  omega

theorem isFinite_unpack_iff (b : BitVec Format.binary64.numBits) :
    (UnpackedFloat.unpack Format.binary64 b).isFinite = true ↔ unpackExponent b ≠ -1#_ := by
  by_cases hexp : unpackExponent b = -1#_
  · refine iff_of_false ?_ (fun hne => hne hexp)
    simp only [UnpackedFloat.unpack, hexp, if_true]
    split <;> exact Bool.false_ne_true
  · refine iff_of_true ?_ hexp
    simp only [UnpackedFloat.unpack, hexp, if_false]
    split
    · split <;> rfl
    · rfl

/-- **What is under the greatest exponent is packed as a finite number.** -/
theorem isFinite_pack {u : UnpackedFloat} (h : Under 971 u) :
    (Float.Model.pack u).unpack.isFinite = true := by
  refine (isFinite_unpack_iff _).2 ?_
  change unpackExponent (UnpackedFloat.pack Format.binary64 u) ≠ -1#11
  cases u with
  | zero s =>
    simp [UnpackedFloat.pack, packedZero]
  | finite s m e hm =>
    have he : e ≤ 971 := h
    have hbias : (Format.binary64.exponentBias : Int) = 1023 := rfl
    unfold UnpackedFloat.pack
    simp only [hbias]
    rw [if_neg (by norm_num; omega)]
    split
    · rw [unpackExponent_packComponents]
      exact ofNat_ne_allOnes (by norm_num; omega)
    · rw [unpackExponent_packComponents]
      decide
  | infinity s => exact absurd h id
  | notANumber => exact absurd h id

theorem toNat_implicit (v : BitVec 52) : (1#1 ++ v).toNat = 2 ^ 52 + v.toNat := by
  rw [BitVec.toNat_append, ← Nat.shiftLeft_add_eq_or_of_lt v.isLt]
  rfl

/-- The mantissa and the exponent of a finite number. -/
theorem bounds_of_unpack {f : Float.Model} {s : Sign} {m : Nat} {e : Int} {hm : 0 < m}
    (h : f.unpack = .finite s m e hm) :
    m < 2 ^ 53 ∧ e ≤ 971 ∧ (e = -1074 ∨ -1074 ≤ e ∧ 2 ^ 52 ≤ m) := by
  have hbias : (Format.binary64.exponentBias : Int) = 1023 := rfl
  have hfraction : (@unpackMantissa Format.binary64 f.toBits.toBitVec).toNat < 2 ^ 52 :=
    BitVec.isLt _
  simp only [Float.Model.unpack, UnpackedFloat.unpack, hbias] at h
  generalize (@unpackExponent Format.binary64 f.toBits.toBitVec : BitVec 11) = exponent at h
  have hexponent : exponent.toNat < 2048 := exponent.isLt
  by_cases hones : exponent = -1#11
  · rw [if_pos hones] at h
    split at h <;> cases h
  rw [if_neg hones] at h
  have hones' : exponent.toNat ≠ 2047 := fun heq => hones (BitVec.eq_of_toNat_eq heq)
  by_cases hzero : exponent = 0#11
  · subst hzero
    rw [if_pos rfl] at h
    split at h <;> cases h
    exact ⟨by omega, by decide, .inl rfl⟩
  · rw [if_neg hzero] at h
    have hzero' : exponent.toNat ≠ 0 := fun heq => hzero (BitVec.eq_of_toNat_eq heq)
    cases h
    rw [toNat_implicit]
    exact ⟨by omega, by omega, .inr ⟨by omega, by omega⟩⟩

/-- A number with all its bits is packed without loss. -/
theorem unpack_pack {m : Nat} {e : Int} (hlow : 2 ^ 52 ≤ m) (hm : m < 2 ^ 53) (hbot : -1074 ≤ e)
    (htop : e ≤ 971) (s : Sign) (hpos : 0 < m) :
    (Float.Model.pack (.finite s m e hpos)).unpack = .finite s m e hpos := by
  have hbias : (Format.binary64.exponentBias : Int) = 1023 := rfl
  have hbits : m.log2 + 1 = Format.binary64.mantissaBits := by
    rw [(Nat.log2_eq_iff (by omega)).2 ⟨hlow, hm⟩]
    rfl
  have hexp : (BitVec.ofNat 11 (e + 1023 + 52).toNat).toNat = (e + 1075).toNat := by
    rw [BitVec.toNat_ofNat, Nat.mod_eq_of_lt (by omega)]
    omega
  have hzero : BitVec.ofNat 11 (e + 1023 + 52).toNat ≠ 0#11 := by
    intro heq
    rw [heq] at hexp
    simp at hexp
    omega
  have hones : BitVec.ofNat 11 (e + 1023 + 52).toNat ≠ -1#11 := ofNat_ne_allOnes (by omega)
  have hmant : (1#1 ++ BitVec.ofNat 52 m).toNat = m := by
    rw [toNat_implicit, BitVec.toNat_ofNat]
    omega
  have hpack : UnpackedFloat.pack Format.binary64 (.finite s m e hpos) =
      packComponents Format.binary64 s (BitVec.ofNat 11 (e + 1023 + 52).toNat)
        (BitVec.ofNat 52 m) := by
    simp only [UnpackedFloat.pack, hbias, hbits, if_true]
    rw [if_neg (by norm_num; omega)]
    rfl
  simp only [Float.Model.unpack, Float.Model.pack, hpack, UnpackedFloat.unpack,
    unpackExponent_packComponents, unpackMantissa_packComponents, unpackSign_packComponents,
    Sign.ofBitVec_toBitVec, hones, hzero, if_false, hmant, hexp, hbias]
  congr 1
  omega

/-! ## Arithmetic -/

theorem cases_of_isFinite {u : UnpackedFloat} (h : u.isFinite = true) :
    (∃ s, u = .zero s) ∨ ∃ s m e hm, u = .finite s m e hm := by
  cases u with
  | zero s => exact .inl ⟨s, rfl⟩
  | finite s m e hm => exact .inr ⟨s, m, e, hm, rfl⟩
  | infinity s => cases h
  | notANumber => cases h

theorem isFinite_neg {f : Float} (h : f.isFinite = true) : (-f).isFinite = true := by
  refine isFinite_pack ?_
  obtain ⟨s, hu⟩ | ⟨s, m, e, hm, hu⟩ := cases_of_isFinite h
  · rw [hu]
    trivial
  · rw [hu]
    exact (bounds_of_unpack hu).2.1

theorem isInf_of_isFinite {f : Float} (h : f.isFinite = true) : f.isInf = false := by
  obtain ⟨s, hu⟩ | ⟨s, m, e, hm, hu⟩ := cases_of_isFinite h
  · change f.toModel.unpack.isInf = false
    rw [hu]
    rfl
  · change f.toModel.unpack.isInf = false
    rw [hu]
    rfl

theorem isFinite_round (s : Sign) (m : Nat) (e : Int) (a : Accuracy) :
    (roundWithAccuracy Format.binary64 s m e a).isFinite = true := by
  rw [roundWithAccuracy_eq]
  unfold settled
  split <;> split <;> rfl

theorem isInf_pack {e : Int} (he : 971 < e) (s : Sign) (m : Nat) (hm : 0 < m) :
    (Float.Model.pack (.finite s m e hm)).unpack.isInf = true := by
  have hbias : (Format.binary64.exponentBias : Int) = 1023 := rfl
  have hpack : UnpackedFloat.pack Format.binary64 (.finite s m e hm) =
      packedInfinity Format.binary64 s := by
    simp only [UnpackedFloat.pack, hbias]
    rw [if_pos (by norm_num; omega)]
  simp only [Float.Model.unpack, Float.Model.pack, hpack, UnpackedFloat.unpack, packedInfinity,
    unpackExponent_packComponents, unpackMantissa_packComponents, if_true]
  rfl

theorem isFinite_or_isInf_pack {u : UnpackedFloat} (h : u.isFinite = true) :
    (Float.Model.pack u).unpack.isFinite = true ∨ (Float.Model.pack u).unpack.isInf = true := by
  obtain ⟨s, rfl⟩ | ⟨s, m, e, hm, rfl⟩ := cases_of_isFinite h
  · exact .inl (isFinite_pack trivial)
  · by_cases he : e ≤ 971
    · exact .inl (isFinite_pack he)
    · exact .inr (isInf_pack (by omega) s m hm)

/-- A product of finite numbers is finite if it is not infinite. -/
theorem isFinite_mul {f g : Float} (hf : f.isFinite = true) (hg : g.isFinite = true)
    (h : (f * g).isInf = false) : (f * g).isFinite = true := by
  have hmul : (UnpackedFloat.mul Format.binary64 f.toModel.unpack g.toModel.unpack).isFinite =
      true := by
    obtain ⟨s, hu⟩ | ⟨s, m, e, hm, hu⟩ := cases_of_isFinite hf <;>
      obtain ⟨s', hv⟩ | ⟨s', m', e', hm', hv⟩ := cases_of_isFinite hg <;> rw [hu, hv]
    · rfl
    · rfl
    · rfl
    · exact isFinite_round _ _ _ _
  exact (isFinite_or_isInf_pack hmul).resolve_right (ne_true_of_eq_false h)

/-- A product below the bound is finite. -/
theorem isFinite_mul_of_lt {f g : Float} {s s' : Sign} {m m' : Nat} {e e' : Int} {hm : 0 < m}
    {hm' : 0 < m'} (hf : f.toModel.unpack = .finite s m e hm)
    (hg : g.toModel.unpack = .finite s' m' e' hm')
    (h : dyadic m e * dyadic m' e' < overflowBound) : (f * g).isFinite = true := by
  have hmul : UnpackedFloat.mul Format.binary64 f.toModel.unpack g.toModel.unpack =
      roundWithAccuracy Format.binary64 (s * s') (m * m') (e + e') .exact := by
    rw [hf, hg]
    rfl
  obtain ⟨-, htop, -⟩ := bounds_of_unpack hf
  obtain ⟨-, htop', hlow⟩ := bounds_of_unpack hg
  rw [← dyadic_mul] at h
  refine isFinite_pack ?_
  rw [hmul]
  refine under_round_of_lt ?_ h _
  have hlog := log2_add_lt (Nat.mul_ne_zero hm.ne' hm'.ne') h
  rcases hlow with hleast | ⟨-, hlow⟩
  · omega
  · have hbits : 52 ≤ (m * m').log2 := by
      rw [Nat.le_log2 (Nat.mul_ne_zero hm.ne' hm'.ne')]
      exact Nat.le_trans hlow (Nat.le_mul_of_pos_left m' hm)
    omega

theorem log2_quotient {m m' : Nat} (k : Nat) (h : (m <<< k) / m' ≠ 0) (hm' : m' ≠ 0) :
    ((m <<< k) / m').log2 + m'.log2 ≤ m.log2 + k := by
  have hle : 2 ^ (((m <<< k) / m').log2 + m'.log2) ≤ m * 2 ^ k := by
    rw [Nat.pow_add, ← Nat.shiftLeft_eq m k]
    exact Nat.le_trans (Nat.mul_le_mul (Nat.log2_self_le h) (Nat.log2_self_le hm'))
      (Nat.div_mul_le_self _ _)
  have hlt : m * 2 ^ k < 2 ^ (m.log2 + 1 + k) := by
    rw [Nat.pow_add]
    exact Nat.mul_lt_mul_of_pos_right Nat.lt_log2_self (Nat.two_pow_pos k)
  have := (Nat.pow_lt_pow_iff_right (by decide)).1 (Nat.lt_of_le_of_lt hle hlt)
  omega

/-- A finite number divided by two or more is finite. -/
theorem isFinite_div {f g : Float} {s : Sign} {m : Nat} {e : Int} {hm : 0 < m}
    (hf : f.isFinite = true) (hg : g.toModel.unpack = .finite s m e hm) (h : 1 ≤ m.log2 + e) :
    (f / g).isFinite = true := by
  refine isFinite_pack ?_
  rw [hg]
  obtain ⟨s', hu⟩ | ⟨s', m', e', hm', hu⟩ := cases_of_isFinite hf
  · rw [hu]
    trivial
  · rw [hu]
    obtain ⟨hlt, htop, -⟩ := bounds_of_unpack hu
    have hlog : m'.log2 ≤ 52 := by
      have := (Nat.log2_lt hm'.ne').2 hlt
      omega
    refine under_round ?_ _ _
    have htarget := targetExponent_eq (totalExponent m' e' - totalExponent m e)
    generalize Format.binary64.targetExponent (totalExponent m' e' - totalExponent m e) = t
      at htarget ⊢
    simp only [totalExponent] at htarget
    generalize hk : (e' - e - min (e' - e) t).toNat = k
    by_cases hq : (m' <<< k) / m = 0
    · rw [hq, fitted, Nat.log2_zero]
      omega
    · have hquot := log2_quotient k hq hm.ne'
      unfold fitted
      omega

/-! ## Whole numbers and powers of ten -/

theorem log2_mul_two_pow {m : Nat} (hm : m ≠ 0) (k : Nat) : (m * 2 ^ k).log2 = m.log2 + k := by
  rw [Nat.log2_eq_iff (Nat.mul_ne_zero hm (Nat.two_pow_pos k).ne')]
  constructor
  · rw [Nat.pow_add]
    exact Nat.mul_le_mul_right _ (Nat.log2_self_le hm)
  · rw [Nat.add_right_comm, Nat.pow_add]
    exact Nat.mul_lt_mul_of_pos_right Nat.lt_log2_self (Nat.two_pow_pos k)

/-- A mantissa that is given enough bits is rounded and packed as a number that has them all. -/
theorem unpack_pack_round {m k : Nat} (hm : m ≠ 0) (hk : 52 ≤ m.log2 + k)
    (h : (m : ℚ) < overflowBound) (s : Sign) :
    ∃ m' e' hm',
      (Float.Model.pack (roundWithAccuracy Format.binary64 s (m * 2 ^ k) (-k) .exact)).unpack =
        .finite s m' e' hm' ∧
      dyadic m' e' ≤ m * (1 + 1 / 2 ^ 53) ∧ m.log2 ≤ m'.log2 + e' := by
  have hlog := log2_mul_two_pow hm k
  have hvalue : dyadic (m * 2 ^ k) (-k) = m := by
    rw [dyadic_shift, Int.add_left_neg]
    simp [dyadic]
  obtain ⟨m', e', hm', hround, hlow, hhigh, hexp, hsize⟩ :=
    round_of_normal (m := m * 2 ^ k) (e := -k) (by omega) (by omega) s
  have htop : Under 971 (.finite s m' e' hm') := by
    rw [← hround]
    exact under_round_of_lt (by omega) (by rwa [hvalue]) s
  rw [hvalue] at hsize
  refine ⟨m', e', hm', ?_, hsize, ?_⟩
  · rw [hround]
    exact unpack_pack hlow hhigh (by omega) htop s hm'
  · have hbits := (Nat.le_log2 hm'.ne').2 hlow
    omega

/-- **A whole number as a double** is larger by `2 ^ -53` of it at most. -/
theorem unpack_toFloat {n : Nat} (hn : n ≠ 0) (hlt : n < 2 ^ 64) :
    ∃ m e hm, n.toUInt64.toFloat.toModel.unpack = .finite .positive m e hm ∧
      dyadic m e ≤ n * (1 + 1 / 2 ^ 53) := by
  obtain ⟨k, hk⟩ : ∃ k : Nat, k = (-max (totalExponent n 0 - 53) (-1074)).toNat := ⟨_, rfl⟩
  have hround : UnpackedFloat.ofNat Format.binary64 n =
      roundWithAccuracy Format.binary64 .positive (n * 2 ^ k) (-k) .exact := by
    have hpos : compare (n : Int) 0 = .gt := Int.compare_eq_gt.2 (by omega)
    simp only [UnpackedFloat.ofNat, UnpackedFloat.ofInt, UnpackedFloat.normalize, hpos,
      Int.toNat_natCast, UnpackedFloat.round, decreaseExponent, targetExponent_eq, Int.zero_sub,
      ← hk, Nat.shiftLeft_eq]
  have hword : n.toUInt64.toNat = n := Nat.mod_eq_of_lt hlt
  have hfloat : n.toUInt64.toFloat.toModel =
      Float.Model.pack (UnpackedFloat.ofNat Format.binary64 n.toUInt64.toNat) := rfl
  have hbits : 52 ≤ n.log2 + k := by
    unfold totalExponent at hk
    omega
  have hbound : (n : ℚ) < overflowBound := by
    have hle : 2 ^ 64 ≤ overflowBound := by decide +kernel
    exact_mod_cast Nat.lt_of_lt_of_le hlt hle
  obtain ⟨m, e, hm, hunpack, hsize, -⟩ := unpack_pack_round hn hbits hbound .positive
  rw [hfloat, hword, hround]
  exact ⟨m, e, hm, hunpack, hsize⟩

theorem isFinite_toFloat {n : Nat} (hlt : n < 2 ^ 64) : n.toUInt64.toFloat.isFinite = true := by
  by_cases hn : n = 0
  · subst hn
    decide +kernel
  · obtain ⟨m, e, hm, hunpack, -⟩ := unpack_toFloat hn hlt
    change n.toUInt64.toFloat.toModel.unpack.isFinite = true
    rw [hunpack]
    rfl

/-- The small powers of ten, which are exact, are what the others would be. -/
theorem ofScientific_one (x : Nat) :
    Float.ofScientific 1 false x = .ofModel (Float.Model.ofScientific 1 x) := by
  by_cases hx : x ≤ 22
  · have hsmall : ∀ x : Fin 23,
        Float.ofScientific 1 false x = .ofModel (Float.Model.ofScientific 1 x) := by decide +kernel
    exact hsmall ⟨x, by omega⟩
  · unfold Float.ofScientific
    rw [dif_neg (fun h => hx h.2)]
    rfl

/-- **A power of ten as a double.** -/
theorem unpack_power {x : Nat} (hx : x ≤ 308) :
    ∃ m e hm, (Float.ofScientific 1 false x).toModel.unpack = .finite .positive m e hm ∧
      dyadic m e ≤ 10 ^ x * (1 + 1 / 2 ^ 53) ∧ (10 ^ x).log2 ≤ m.log2 + e := by
  have hround : UnpackedFloat.ofScientific Format.binary64 1 x =
      roundWithAccuracy Format.binary64 .positive (10 ^ x * 2 ^ 53) (-(53 : Nat)) .exact := by
    unfold UnpackedFloat.ofScientific
    rw [dif_neg Nat.one_ne_zero, if_neg, if_neg, if_pos (Int.natCast_nonneg x)]
    · change roundWithAccuracy Format.binary64 .positive (1 <<< 53 * 10 ^ x) (-53 + 0) .exact = _
      rw [Nat.shiftLeft_eq, Nat.one_mul, Nat.mul_comm]
      rfl
    · change ¬ (x : Int) < -(2 ^ 11 + 0)
      omega
    · change ¬ (2 : Int) ^ 11 < x
      omega
  have hbound : ((10 ^ x : Nat) : ℚ) < overflowBound := by
    refine Nat.cast_lt.2 (Nat.lt_of_le_of_lt (Nat.pow_le_pow_right (by decide) hx) ?_)
    decide +kernel
  obtain ⟨m, e, hm, hunpack, hsize, hlog⟩ :=
    unpack_pack_round (k := 53) (Nat.pow_pos (by decide)).ne' (by omega) hbound .positive
  rw [ofScientific_one]
  refine ⟨m, e, hm, ?_, by exact_mod_cast hsize, hlog⟩
  change (Float.Model.pack (UnpackedFloat.ofScientific Format.binary64 1 x)).unpack = _
  rw [hround]
  exact hunpack

end SymbolContext.Double
