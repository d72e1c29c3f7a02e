import SymbolContext.Proofs.Json.Rounding

/-!
# The shortest digits of a double

There are at most seventeen of them, and they stay on the near side of the bound from which on
numbers are rounded to infinity (`tame_shortest`).
-/

namespace SymbolContext.Double

/-- The digits that would be next to those of the greatest double. -/
def beyondGreatest : Nat := 17976931348623158

/-- Few digits, and a number that is not too great. -/
structure Digits.Tame (x : Digits) : Prop where
  few : x.digits ≤ 10 ^ 17
  below : 0 ≤ x.exponent → x.digits * 10 ^ x.exponent.toNat ≤ overflowBound
  notBeyond : ¬ (x.digits = beyondGreatest ∧ x.exponent = 292)

theorem Digits.tame_zero : (Digits.mk 0 0).Tame where
  few := by decide
  below := fun _ => by
    rw [Nat.zero_mul]
    exact Nat.zero_le _
  notBeyond := by decide

theorem Digits.Tame.tenth {x : Digits} (h : x.Tame) :
    (Digits.mk (x.digits / 10) (x.exponent + 1)).Tame where
  few := by
    have := h.few
    dsimp only
    omega
  below := by
    dsimp only
    intro hexp
    by_cases hpos : 0 ≤ x.exponent
    · have hsucc : (x.exponent + 1).toNat = x.exponent.toNat + 1 := by omega
      calc x.digits / 10 * 10 ^ (x.exponent + 1).toNat
          = x.digits / 10 * 10 * 10 ^ x.exponent.toNat := by rw [hsucc, Nat.pow_succ]; ring
        _ ≤ x.digits * 10 ^ x.exponent.toNat :=
          Nat.mul_le_mul_right _ (Nat.div_mul_le_self x.digits 10)
        _ ≤ overflowBound := h.below hpos
    · have hzero : (x.exponent + 1).toNat = 0 := by omega
      have hbound : 10 ^ 17 ≤ overflowBound := by decide +kernel
      have hfew := h.few
      rw [hzero, Nat.pow_zero, Nat.mul_one]
      omega
  notBeyond := by
    dsimp only
    rintro ⟨heq, -⟩
    have := h.few
    unfold beyondGreatest at heq
    omega

theorem Digits.Tame.strip (fuel : Nat) {x : Digits} (h : x.Tame) : (x.strip fuel).Tame := by
  induction fuel generalizing x with
  | zero => exact h
  | succ fuel ih =>
    rw [Digits.strip]
    split
    · exact ih h.tenth
    · exact h

theorem Digits.Tame.le_wordMax {x : Digits} (h : x.Tame) : x.digits ≤ Decimal.wordMax :=
  h.few.trans (by decide)

theorem Digits.Tame.exponent_le {x : Digits} (h : x.Tame) (hne : x.digits ≠ 0) :
    x.exponent ≤ 308 := by
  refine Int.le_of_not_gt fun hgt => ?_
  have hpow : 10 ^ 309 ≤ 10 ^ x.exponent.toNat := by
    rw [Nat.pow_le_pow_iff_right (by decide)]
    omega
  have hone : 10 ^ x.exponent.toNat ≤ x.digits * 10 ^ x.exponent.toNat :=
    Nat.le_mul_of_pos_left _ (Nat.pos_of_ne_zero hne)
  have hbound : overflowBound < 10 ^ 309 := by decide +kernel
  exact absurd ((hpow.trans hone).trans (h.below (by omega))) (Nat.not_le.2 hbound)

/-! ## The number of digits before the point -/

theorem shiftUp_spec (fuel : Nat) {num den : Nat} (h : num < den) :
    0 < shiftUp num den (fuel + 1) ∧ num * 10 ^ (shiftUp num den (fuel + 1) - 1) < den := by
  induction fuel generalizing num with
  | zero =>
    have hone : shiftUp num den 1 = 1 := by
      rw [shiftUp, if_neg (by omega), shiftUp]
    rw [hone]
    exact ⟨by decide, by omega⟩
  | succ fuel ih =>
    rw [shiftUp, if_neg (by omega), Nat.add_sub_cancel]
    refine ⟨Nat.succ_pos _, ?_⟩
    by_cases hten : num * 10 < den
    · obtain ⟨hpos, hlt⟩ := ih hten
      have hsucc : shiftUp (num * 10) den (fuel + 1) =
          shiftUp (num * 10) den (fuel + 1) - 1 + 1 := by omega
      rw [hsucc, Nat.pow_succ]
      calc num * (10 ^ (shiftUp (num * 10) den (fuel + 1) - 1) * 10)
          = num * 10 * 10 ^ (shiftUp (num * 10) den (fuel + 1) - 1) := by ring
        _ < den := hlt
    · rw [shiftUp, if_pos (by omega)]
      omega

/-- A number lies below the power of ten with its digits before the point. -/
theorem lt_of_magnitude (num : Nat) {den : Nat} (hden : 0 < den) :
    num * 10 ^ (-magnitude num den).toNat < den * 10 ^ (magnitude num den).toNat := by
  unfold magnitude
  split
  · have hpos : 0 < (Decimal.digits (num / den)).length := Nat.length_toDigits_pos
    have hlt : num / den < 10 ^ (Decimal.digits (num / den)).length :=
      (Nat.length_toDigits_le_iff (by decide) hpos).1 (Nat.le_refl _)
    have hneg : (-((Decimal.digits (num / den)).length : Int)).toNat = 0 := by omega
    rw [hneg, Int.toNat_natCast, Nat.pow_zero, Nat.mul_one, Nat.mul_comm]
    exact (Nat.div_lt_iff_lt_mul hden).1 hlt
  · rename_i hlt
    obtain ⟨hpos, hspec⟩ := shiftUp_spec 399 (Nat.lt_of_not_le hlt)
    simp only [Nat.reduceAdd] at hpos hspec
    have hneg : (-(1 - (shiftUp num den 400 : Int))).toNat = shiftUp num den 400 - 1 := by omega
    have hzero : (1 - (shiftUp num den 400 : Int)).toNat = 0 := by omega
    rw [hneg, hzero, Nat.pow_zero, Nat.mul_one]
    exact hspec

/-! ## One grid -/

/-- Whether a number lies between two bounds, which count themselves when `closed`. -/
def between (low high : Nat) (closed : Bool) (n : Nat) : Bool :=
  if closed then low ≤ n && n ≤ high else low < n && n < high

theorem le_of_between {low high n : Nat} {closed : Bool} (h : between low high closed n = true) :
    n ≤ high := by
  unfold between at h
  split at h
  · simp only [Bool.and_eq_true, decide_eq_true_eq] at h
    exact h.2
  · simp only [Bool.and_eq_true, decide_eq_true_eq] at h
    exact Nat.le_of_lt h.2

/-- What lies outside although more lies under the upper bound lies outside the lower one. -/
theorem le_low_of_between {low high n n' : Nat} {closed : Bool} (hle : n ≤ n')
    (h : between low high closed n' = true) (hout : between low high closed n = false) :
    n ≤ low := by
  unfold between at h hout
  split at h
  · rw [if_pos ‹_›] at hout
    simp only [Bool.and_eq_true, decide_eq_true_eq, Bool.and_eq_false_iff,
      decide_eq_false_iff_not] at h hout
    omega
  · rw [if_neg ‹_›] at hout
    simp only [Bool.and_eq_true, decide_eq_true_eq, Bool.and_eq_false_iff,
      decide_eq_false_iff_not] at h hout
    omega

/-- The search on a grid, with its two scales and the candidate below named. -/
theorem onGrid_eq {num den up unit below : Nat} {e : Int} (hup : up = 10 ^ (-e).toNat)
    (hunit : unit = den * 10 ^ e.toNat) (hbelow : num * up / unit = below) (low high : Nat)
    (closed : Bool) :
    onGrid num den low high closed e =
      if between (low * up) (high * up) closed (below * unit) &&
          (decide (2 * (num * up) ≤ (2 * below + 1) * unit) ||
            !between (low * up) (high * up) closed ((below + 1) * unit)) then some ⟨below, e⟩
      else if between (low * up) (high * up) closed ((below + 1) * unit) then
        some ⟨below + 1, e⟩
      else none := by
  have hup' : (if e < 0 then Nat.pow 10 e.natAbs else 1) = up := by
    rw [hup]
    split
    · have habs : e.natAbs = (-e).toNat := by omega
      rw [habs]
      rfl
    · have hzero : (-e).toNat = 0 := by omega
      rw [hzero]
      rfl
  have hunit' : (if e < 0 then den else den * Nat.pow 10 e.natAbs) = unit := by
    rw [hunit]
    split
    · have hzero : e.toNat = 0 := by omega
      rw [hzero, Nat.pow_zero, Nat.mul_one]
    · have habs : e.natAbs = e.toNat := by omega
      rw [habs]
      rfl
  simp only [onGrid, hup', hunit', hbelow]
  rfl

/-- The number found on a grid lies under the upper bound; the neighbour above is found only if
the one below lies outside the lower bound, or is farther off. -/
theorem onGrid_cases {num den low high up unit : Nat} {closed : Bool} {e : Int} {x : Digits}
    (hup : up = 10 ^ (-e).toNat) (hunit : unit = den * 10 ^ e.toNat)
    (h : onGrid num den low high closed e = some x) :
    x.exponent = e ∧ x.digits * unit ≤ high * up ∧
      (x.digits = num * up / unit ∨ x.digits = num * up / unit + 1 ∧
        (num * up / unit * unit ≤ low * up ∨
          (2 * (num * up / unit) + 1) * unit < 2 * (num * up))) := by
  generalize hbelow : num * up / unit = below
  rw [onGrid_eq hup hunit hbelow] at h
  split at h
  · rename_i hin
    cases h
    rw [Bool.and_eq_true] at hin
    exact ⟨rfl, le_of_between hin.1, .inl rfl⟩
  · rename_i hout
    split at h
    · rename_i hin
      cases h
      refine ⟨rfl, le_of_between hin, .inr ⟨rfl, ?_⟩⟩
      by_cases hnear : 2 * (num * up) ≤ (2 * below + 1) * unit
      · left
        refine le_low_of_between (Nat.mul_le_mul_right unit (Nat.le_succ below)) hin ?_
        simpa [hnear] using hout
      · exact .inr (Nat.lt_of_not_le hnear)
    · cases h

/-- A number below `10 ^ top` has at most `n` digits on the grid of `10 ^ (top - n)`. -/
theorem digits_lt {num den n : Nat} {top : Int} (hden : 0 < den)
    (h : num * 10 ^ (-top).toNat < den * 10 ^ top.toNat) :
    num * 10 ^ (-(top - n)).toNat / (den * 10 ^ (top - n).toNat) < 10 ^ n := by
  rw [Nat.div_lt_iff_lt_mul (Nat.mul_pos hden (Nat.pow_pos (by decide)))]
  have hten : 0 < 10 ^ (-top).toNat := Nat.pow_pos (by decide)
  have hexp : top.toNat + (-(top - n)).toNat = n + (top - n).toNat + (-top).toNat := by omega
  refine Nat.lt_of_mul_lt_mul_right (a := 10 ^ (-top).toNat) ?_
  calc num * 10 ^ (-(top - n)).toNat * 10 ^ (-top).toNat
      = num * 10 ^ (-top).toNat * 10 ^ (-(top - n)).toNat := by ring
    _ < den * 10 ^ top.toNat * 10 ^ (-(top - n)).toNat :=
      Nat.mul_lt_mul_of_pos_right h (Nat.pow_pos (by decide))
    _ = den * 10 ^ (n + (top - n).toNat + (-top).toNat) := by
      rw [Nat.mul_assoc, ← Nat.pow_add, hexp]
    _ = 10 ^ n * (den * 10 ^ (top - n).toNat) * 10 ^ (-top).toNat := by
      rw [Nat.pow_add, Nat.pow_add]
      ring

section
variable {num den low high : Nat}

/-- The greatest double and its lower bound are nearer to the digits below. -/
theorem not_beyond {unit : Nat} (hunit : 10 ^ 292 ≤ unit)
    (hnum : num ≤ (2 ^ 55 - 4) * 2 ^ 969) (hlow : low ≤ (2 ^ 55 - 5) * 2 ^ 969)
    (h : beyondGreatest = num / unit ∨ beyondGreatest = num / unit + 1 ∧
      (num / unit * unit ≤ low ∨ (2 * (num / unit) + 1) * unit < 2 * num)) : False := by
  have hbelow : num / unit * unit ≤ num := Nat.div_mul_le_self num unit
  generalize num / unit = below at h hbelow
  rcases h with rfl | ⟨heq, hlt | hlt⟩
  · have hgrid : beyondGreatest * 10 ^ 292 ≤ beyondGreatest * unit := Nat.mul_le_mul_left _ hunit
    have hgreat : (2 ^ 55 - 4) * 2 ^ 969 < beyondGreatest * 10 ^ 292 := by decide +kernel
    exact Nat.not_le.2 hgreat ((hgrid.trans hbelow).trans hnum)
  · have hgrid : (beyondGreatest - 1) * 10 ^ 292 ≤ below * unit :=
      Nat.mul_le_mul (Nat.sub_le_of_le_add heq.le) hunit
    have hgreat : (2 ^ 55 - 5) * 2 ^ 969 < (beyondGreatest - 1) * 10 ^ 292 := by decide +kernel
    exact Nat.not_le.2 hgreat ((hgrid.trans hlt).trans hlow)
  · have hgrid : (2 * beyondGreatest - 1) * 10 ^ 292 ≤ (2 * below + 1) * unit :=
      Nat.mul_le_mul (by rw [heq]; omega) hunit
    have hgreat : 2 * ((2 ^ 55 - 4) * 2 ^ 969) < (2 * beyondGreatest - 1) * 10 ^ 292 := by
      decide +kernel
    exact Nat.not_le.2 hgreat ((hgrid.trans hlt.le).trans (Nat.mul_le_mul_left 2 hnum))

/-- **What is found on a grid is tame**, for a number that is finite. -/
theorem tame_onGrid {n : Nat} {closed : Bool} {x : Digits} (hden : 0 < den) (hn : n ≤ 17)
    (hnum : num ≤ (2 ^ 55 - 4) * 2 ^ 969) (hlow : low ≤ (2 ^ 55 - 5) * 2 ^ 969)
    (hhigh : high ≤ overflowBound)
    (h : onGrid num den low high closed (magnitude num den - n) = some x) : x.Tame := by
  have hlt := digits_lt (n := n) hden (lt_of_magnitude num hden)
  obtain ⟨hexp, hle, hcases⟩ := onGrid_cases rfl rfl h
  generalize magnitude num den - n = e at *
  have hpow : 10 ^ n ≤ 10 ^ 17 := Nat.pow_le_pow_right (by decide) hn
  refine ⟨by omega, fun hpos => ?_, ?_⟩
  · have hup : (-e).toNat = 0 := by omega
    rw [hup, Nat.pow_zero, Nat.mul_one] at hle
    rw [hexp]
    calc x.digits * 10 ^ e.toNat ≤ x.digits * (den * 10 ^ e.toNat) :=
          Nat.mul_le_mul_left _ (Nat.le_mul_of_pos_left _ hden)
      _ ≤ high := hle
      _ ≤ overflowBound := hhigh
  · rintro ⟨hdigits, h292⟩
    obtain rfl : e = 292 := hexp.symm.trans h292
    have hup : (-(292 : Int)).toNat = 0 := rfl
    have hunit : (292 : Int).toNat = 292 := rfl
    simp only [hdigits, hup, hunit, Nat.pow_zero, Nat.mul_one] at hcases
    exact not_beyond (Nat.le_mul_of_pos_left _ hden) hnum hlow hcases

end

theorem significand_lt (d : Double) : d.significand < 2 ^ 53 := by
  have hfraction : d.fractionBits < 2 ^ 52 := Nat.mod_lt _ (by decide)
  unfold significand
  split
  · omega
  · have hpow : Nat.pow 2 52 = 2 ^ 52 := rfl
    omega

/-- **The shortest digits of a finite double are tame.** -/
theorem tame_shortest {d : Double} (h : d.exponentBits < 2047) : d.shortest.Tame := by
  have hsig := d.significand_lt
  have hscale : d.scale - 1077 ≤ 969 := by
    unfold scale
    omega
  have htimes : Nat.pow 2 (d.scale - 1077) ≤ 2 ^ 969 := by
    rw [Nat.pow_eq, Nat.pow_le_pow_iff_right (by decide)]
    exact hscale
  unfold shortest
  split
  · exact Digits.tame_zero
  · refine Digits.Tame.strip 20 ?_
    cases hfound : (List.range 17).findSome? _ with
    | none => exact Digits.tame_zero
    | some x =>
      obtain ⟨k, hk, hx⟩ := List.exists_of_findSome?_eq_some hfound
      rw [List.mem_range] at hk
      refine tame_onGrid (Nat.pow_pos (by decide)) (by omega) ?_ ?_ ?_ hx
      · exact Nat.mul_le_mul (by omega) htimes
      · refine Nat.mul_le_mul ?_ htimes
        split <;> omega
      · have hbound : overflowBound = (2 ^ 55 - 2) * 2 ^ 969 := by decide +kernel
        rw [hbound]
        exact Nat.mul_le_mul (by omega) htimes

end SymbolContext.Double
