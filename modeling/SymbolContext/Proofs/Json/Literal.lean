import SymbolContext.Proofs.Json.Shortest
import SymbolContext.Proofs.Text.Decimal

/-!
# Number literals

Reading a literal gives an integer of 64 bits or a finite double (`isNumber_value?`). The text of
an integer is a literal that stands for it (`exists_literal_intText`), and the text of a finite
double is one that stands for some double (`exists_literal_text`), though not always for the same
one.
-/

namespace SymbolContext.Json

open Double

/-! ## Scaling by a power of ten -/

/-- The power that is multiplied with or divided by. -/
abbrev power (x : Nat) : Float := Float.ofScientific 1 false x

theorem isFinite_power {x : Nat} (hx : x ≤ 308) : (power x).isFinite = true := by
  obtain ⟨m, e, hm, hunpack, -⟩ := unpack_power hx
  change (power x).toModel.unpack.isFinite = true
  rw [hunpack]
  rfl

theorem isFinite_div_power {f : Float} {x : Nat} (hf : f.isFinite = true) (hpos : x ≠ 0)
    (hx : x ≤ 308) : (f / power x).isFinite = true := by
  obtain ⟨m, e, hm, hunpack, -, hlog⟩ := unpack_power hx
  refine isFinite_div hf hunpack ?_
  have hten : 1 ≤ (10 ^ x).log2 := by
    rw [Nat.le_log2 (Nat.pow_pos (by decide)).ne']
    exact Nat.le_trans (by decide) (Nat.le_self_pow hpos 10)
  omega

/-- **Scaling a finite number gives a finite number**, if it gives one. -/
theorem isFinite_scaled {f g : Float} {e : Int} (hf : f.isFinite = true)
    (h : scaled f e = some g) : g.isFinite = true := by
  fun_induction scaled f e with
  | case1 f e hle p hpos hinf => cases h
  | case2 f e hle p hpos hinf =>
    cases h
    exact isFinite_mul hf (isFinite_power hle) (Bool.eq_false_of_not_eq_true hinf)
  | case3 f e hle p hneg =>
    cases h
    exact isFinite_div_power hf (by omega) hle
  | case4 f e hgt hzero =>
    cases h
    exact hf
  | case5 f e hgt hzero hpos => cases h
  | case6 f e hgt hzero hneg ih => exact ih (isFinite_div_power hf (by decide) (by decide)) h

/-- **Scaling down always gives a number.** -/
theorem exists_scaled_of_neg (f : Float) {e : Int} (he : e < 0) : ∃ g, scaled f e = some g := by
  fun_induction scaled f e with
  | case1 f e hle p hpos hinf => omega
  | case2 f e hle p hpos hinf => omega
  | case3 f e hle p hneg => exact ⟨_, rfl⟩
  | case4 f e hgt hzero => exact ⟨_, rfl⟩
  | case5 f e hgt hzero hpos => omega
  | case6 f e hgt hzero hneg ih => exact ih (by omega)

theorem exists_scaled_of_not_isInf {f : Float} {x : Nat} (hx : x ≤ 308)
    (h : (f * power x).isInf = false) : ∃ g, scaled f x = some g := by
  refine ⟨f * power x, ?_⟩
  rw [scaled, if_pos (by omega), if_pos (by omega)]
  simp only [Int.natAbs_natCast]
  rw [if_neg (by rw [h]; exact Bool.false_ne_true)]

/-- A product that is below the bound also after two roundings is finite. -/
theorem exists_scaled_of_lt {n x : Nat} (hn : n ≠ 0) (hlt : n < 2 ^ 64) (hx : x ≤ 308)
    (h : n * 10 ^ x * (2 ^ 53 + 1) ^ 2 < overflowBound * 2 ^ 106) :
    ∃ g, scaled n.toUInt64.toFloat x = some g := by
  refine exists_scaled_of_not_isInf hx (isInf_of_isFinite ?_)
  obtain ⟨m, e, hm, hunpack, hsize⟩ := unpack_toFloat hn hlt
  obtain ⟨m', e', hm', hunpack', hsize', -⟩ := unpack_power hx
  refine isFinite_mul_of_lt hunpack hunpack' ?_
  have hrat : (n : ℚ) * 10 ^ x * (2 ^ 53 + 1) ^ 2 < overflowBound * 2 ^ 106 := by exact_mod_cast h
  calc dyadic m e * dyadic m' e'
      ≤ n * (1 + 1 / 2 ^ 53) * (10 ^ x * (1 + 1 / 2 ^ 53)) :=
        mul_le_mul hsize hsize' (dyadic_nonneg m' e') (by positivity)
    _ = n * 10 ^ x * (2 ^ 53 + 1) ^ 2 / 2 ^ 106 := by ring
    _ < overflowBound := by
      rw [div_lt_iff₀ (by positivity)]
      exact hrat

/-- The only numbers with few digits for which that leaves a doubt. -/
theorem near_bound {n x : Nat} (hn : n ≤ 10 ^ 17) (hx : x ≤ 308) (hle : n * 10 ^ x ≤ overflowBound)
    (hge : overflowBound * 2 ^ 106 ≤ n * 10 ^ x * (2 ^ 53 + 1) ^ 2) :
    x = 292 ∧ beyondGreatest - 3 ≤ n ∧ n ≤ beyondGreatest := by
  have hten : 0 < 10 ^ x := Nat.pow_pos (by decide)
  have hquot : n ≤ overflowBound / 10 ^ x := (Nat.le_div_iff_mul_le hten).2 hle
  rcases Nat.lt_trichotomy x 292 with hlt | rfl | hgt
  · have hpow : 10 ^ x ≤ 10 ^ 291 := by
      rw [Nat.pow_le_pow_iff_right (by decide)]
      omega
    have hfar : 10 ^ 17 * 10 ^ 291 * (2 ^ 53 + 1) ^ 2 < overflowBound * 2 ^ 106 := by decide +kernel
    exact absurd (hge.trans (Nat.mul_le_mul_right _ (Nat.mul_le_mul hn hpow))) (Nat.not_le.2 hfar)
  · refine ⟨rfl, ?_, ?_⟩
    · refine Nat.le_of_not_lt fun hlt => ?_
      have hfar : (beyondGreatest - 4) * 10 ^ 292 * (2 ^ 53 + 1) ^ 2 < overflowBound * 2 ^ 106 := by
        decide +kernel
      refine absurd (hge.trans (Nat.mul_le_mul_right _ (Nat.mul_le_mul_right _ ?_)))
        (Nat.not_le.2 hfar)
      omega
    · have hbound : overflowBound / 10 ^ 292 = beyondGreatest := by decide +kernel
      rwa [hbound] at hquot
  · -- the multiples of the greater powers leave a wide gap below the bound
    have hgap : ∀ k : Fin 16, overflowBound / 10 ^ (293 + k.val) * 10 ^ (293 + k.val) *
        (2 ^ 53 + 1) ^ 2 < overflowBound * 2 ^ 106 := by decide +kernel
    have hfar := hgap ⟨x - 293, by omega⟩
    have hexp : 293 + (x - 293) = x := by omega
    simp only [hexp] at hfar
    exact absurd (hge.trans (Nat.mul_le_mul_right _ (Nat.mul_le_mul_right _ hquot)))
      (Nat.not_le.2 hfar)

theorem not_isInf_near_bound : ∀ k : Fin 3,
    ((beyondGreatest - 3 + k.val).toUInt64.toFloat * power 292).isInf = false := by
  decide +kernel

/-- **Tame digits scaled by their power are finite.** -/
theorem exists_scaled_of_tame {x : Digits} (h : x.Tame) (hne : x.digits ≠ 0) :
    ∃ g, scaled x.digits.toUInt64.toFloat x.exponent = some g := by
  by_cases hneg : x.exponent < 0
  · exact exists_scaled_of_neg _ hneg
  obtain ⟨e, he⟩ : ∃ e : Nat, x.exponent = e := ⟨x.exponent.toNat, by omega⟩
  have hbelow := h.below (by omega)
  have hfew := h.few
  have hnot := h.notBeyond
  rw [he, Int.toNat_natCast] at hbelow
  rw [he] at hnot ⊢
  have htop : e ≤ 308 := by
    have := h.exponent_le hne
    omega
  by_cases hlt : x.digits * 10 ^ e * (2 ^ 53 + 1) ^ 2 < overflowBound * 2 ^ 106
  · exact exists_scaled_of_lt hne (by omega) htop hlt
  · obtain ⟨rfl, hlow, hhigh⟩ := near_bound hfew htop hbelow (Nat.le_of_not_lt hlt)
    have hdigits : x.digits ≠ beyondGreatest := fun heq => hnot ⟨heq, rfl⟩
    have hinf := not_isInf_near_bound ⟨x.digits - (beyondGreatest - 3), by omega⟩
    have hsum : beyondGreatest - 3 + (x.digits - (beyondGreatest - 3)) = x.digits := by omega
    simp only [hsum] at hinf
    exact exists_scaled_of_not_isInf htop hinf

/-! ## The value of a literal -/

theorem isDigit_iff (c : Char) : isDigit c = true ↔ c.isDigit = true := by
  simp [isDigit, Char.isDigit, Char.le_def]

theorem digitsValue_singleton {c : Char} (h : c.isDigit = true) :
    digitsValue [c] = c.toNat - '0'.toNat := by
  rw [digitsValue, Decimal.value?_eq_some_iff.2 ⟨List.cons_ne_nil c [], by simpa using h, rfl⟩]
  simp [Nat.ofDigitChars_cons, Nat.ofDigitChars_nil]

theorem le_ofDigitChars (cs : List Char) (n : Nat) : n ≤ Nat.ofDigitChars 10 cs n := by
  rw [Nat.ofDigitChars_eq_ofDigitChars_zero]
  exact Nat.le_add_right_of_le (Nat.le_mul_of_pos_left n (Nat.pow_pos (by decide)))

/-- Digits are all absorbed if their value fits a word. -/
theorem absorb_eq {cs : List Char} (hcs : ∀ c ∈ cs, c.isDigit = true) {n : Nat}
    (h : Nat.ofDigitChars 10 cs n ≤ Decimal.wordMax) :
    absorb n cs = (Nat.ofDigitChars 10 cs n, cs.length) := by
  induction cs generalizing n with
  | nil => rfl
  | cons c cs ih =>
    have hc := hcs c List.mem_cons_self
    have hrest : ∀ d ∈ cs, d.isDigit = true := fun d hd => hcs d (List.mem_cons_of_mem c hd)
    rw [Nat.ofDigitChars_cons] at h ⊢
    have hle := le_ofDigitChars cs (10 * n + (c.toNat - '0'.toNat))
    rw [absorb, digitsValue_singleton hc, Nat.mul_comm n 10, if_pos (by omega), ih hrest h]
    rfl

theorem absorb_le {cs : List Char} {n : Nat} (h : n ≤ Decimal.wordMax) :
    (absorb n cs).1 ≤ Decimal.wordMax := by
  induction cs generalizing n with
  | nil => exact h
  | cons c cs ih =>
    rw [absorb]
    split
    · exact ih ‹_›
    · exact h

theorem exponentBits_ofFloat {f : Float} (h : f.isFinite = true) :
    (Double.ofFloat f).exponentBits < 2047 := by
  have hones := (isFinite_unpack_iff f.toModel.toBits.toBitVec).1 h
  have hbits : (Double.ofFloat f).exponentBits =
      (@Float.Model.UnpackedFloat.unpackExponent .binary64 f.toModel.toBits.toBitVec).toNat := by
    simp [exponentBits, Float.Model.UnpackedFloat.unpackExponent, Double.ofFloat, Float.toBits,
      Nat.shiftRight_eq_div_pow]
  have hlt : (Double.ofFloat f).exponentBits < 2048 := Nat.mod_lt _ (by decide)
  have hne : (Double.ofFloat f).exponentBits ≠ 2047 := by
    intro heq
    refine hones (BitVec.eq_of_toNat_eq ?_)
    rw [← hbits, heq]
    rfl
  omega

theorem isFinite_magnitude? {l : Literal} {f : Float} (h : l.magnitude? = some f) :
    f.isFinite = true := by
  have hword : (absorb (absorb 0 l.whole).1 (l.fraction.getD [])).1 < 2 ^ 64 :=
    Nat.lt_of_le_of_lt (absorb_le (absorb_le (by decide))) (by decide)
  have hn := isFinite_toFloat hword
  simp only [Literal.magnitude?] at h
  split at h
  · exact isFinite_scaled hn h
  · split at h
    · split at h
      · cases h
      · cases h
        decide +kernel
    · exact isFinite_scaled hn h

/-- An integer of 64 bits, with or without a sign, or a finite double. -/
def IsNumber : Json → Prop
  | .int i => -(2 ^ 63) ≤ i ∧ i < 2 ^ 64
  | .float d => d.exponentBits < 2047
  | _ => False

theorem isNumber_double? {l : Literal} {v : Json} (h : l.double? = some v) : IsNumber v := by
  obtain ⟨f, hf, hv⟩ := Option.bind_eq_some_iff.1 h
  cases hv
  have hfin := isFinite_magnitude? hf
  refine exponentBits_ofFloat ?_
  split
  · exact isFinite_neg hfin
  · exact hfin

/-- **What a literal stands for fits 64 bits.** -/
theorem isNumber_value? {l : Literal} {v : Json} (h : l.value? = some v) : IsNumber v := by
  have hneg : Nat.pow 2 63 = 2 ^ 63 := rfl
  have hmax : Decimal.wordMax = 2 ^ 64 - 1 := rfl
  simp only [Literal.value?] at h
  split at h
  · split at h
    · split at h
      · cases h
        simp only [IsNumber]
        omega
      · exact isNumber_double? h
    · split at h
      · cases h
        simp only [IsNumber]
        omega
      · exact isNumber_double? h
  · exact isNumber_double? h

theorem isNumber_number? {cs : List Char} {v : Json} (h : number? cs = some v) : IsNumber v := by
  obtain ⟨l, -, hv⟩ := Option.bind_eq_some_iff.1 h
  exact isNumber_value? hv

/-! ## The characters of a literal -/

/-- One or more digits. -/
def AreDigits (cs : List Char) : Prop := cs ≠ [] ∧ ∀ c ∈ cs, c.isDigit = true

/-- The fraction of a literal as characters. -/
def Literal.fractionChars (l : Literal) : List Char :=
  match l.fraction with
  | none => []
  | some ds => '.' :: ds

/-- The exponent of a literal as characters. -/
def Literal.exponentChars (l : Literal) : List Char :=
  match l.exponent with
  | none => []
  | some (true, ds) => 'e' :: '-' :: ds
  | some (false, ds) => 'e' :: ds

/-- A literal as characters. -/
def Literal.chars (l : Literal) : List Char :=
  (if l.negative then ['-'] else []) ++ (l.whole ++ (l.fractionChars ++ l.exponentChars))

/-- A literal of which every part has digits, and the first no zero in front of others. -/
structure Literal.Proper (l : Literal) : Prop where
  whole : AreDigits l.whole
  noZero : l.whole.head? = some '0' → l.whole.length = 1
  fraction : ∀ ds ∈ l.fraction, AreDigits ds
  exponent : ∀ x ∈ l.exponent, AreDigits x.2

/-- A text that does not go on with a digit. -/
def EndsDigits (cs : List Char) : Prop := ∀ c ∈ cs.head?, c.isDigit = false

theorem takeDigits?_append {ds r : List Char} (hds : AreDigits ds) (hr : EndsDigits r) :
    takeDigits? (ds ++ r) = some (ds, r) := by
  have hall : ∀ c ∈ ds, isDigit c = true := fun c hc => (isDigit_iff c).2 (hds.2 c hc)
  have hstop : r.takeWhile isDigit = [] ∧ r.dropWhile isDigit = r := by
    cases r with
    | nil => exact ⟨rfl, rfl⟩
    | cons c r =>
      have hc : isDigit c = false := by
        rw [Bool.eq_false_iff, Ne, isDigit_iff, hr c rfl]
        exact Bool.false_ne_true
      exact ⟨List.takeWhile_cons_of_neg (by simp [hc]), List.dropWhile_cons_of_neg (by simp [hc])⟩
  have htake : (ds ++ r).takeWhile isDigit = ds := by
    rw [List.takeWhile_append_of_pos hall, hstop.1, List.append_nil]
  have hdrop : (ds ++ r).dropWhile isDigit = r := by
    rw [List.dropWhile_append_of_pos hall, hstop.2]
  unfold takeDigits?
  rw [htake, hdrop]
  split
  · exact absurd rfl hds.1
  · rfl

theorem takeDigits?_self {ds : List Char} (hds : AreDigits ds) :
    takeDigits? ds = some (ds, []) := by
  have htake := takeDigits?_append hds (r := []) (by simp [EndsDigits])
  rwa [List.append_nil] at htake

section
variable {l : Literal}

theorem endsDigits_exponentChars (l : Literal) : EndsDigits l.exponentChars := by
  unfold Literal.exponentChars
  split <;> simp [EndsDigits]

theorem endsDigits_fractionChars (l : Literal) :
    EndsDigits (l.fractionChars ++ l.exponentChars) := by
  unfold Literal.fractionChars
  split
  · exact endsDigits_exponentChars l
  · simp [EndsDigits]

theorem takeExponent?_exponentChars (h : l.Proper) :
    takeExponent? l.exponentChars = some (l.exponent, []) := by
  unfold Literal.exponentChars
  split
  case h_1 hnone => rw [hnone]; rfl
  case h_2 ds hsome =>
    have htake := takeDigits?_self (h.exponent _ hsome)
    simp [takeExponent?, htake, hsome]
  case h_3 ds hsome =>
    have hds := h.exponent _ hsome
    have htake := takeDigits?_self hds
    obtain ⟨c, cs, rfl⟩ := List.exists_cons_of_ne_nil hds.1
    have hc : c.isDigit = true := hds.2 c List.mem_cons_self
    have hminus : c ≠ '-' := by rintro rfl; exact absurd hc (by decide)
    have hplus : c ≠ '+' := by rintro rfl; exact absurd hc (by decide)
    simp [takeExponent?, hminus, hplus, htake, hsome]

theorem takeFraction?_fractionChars (h : l.Proper) :
    takeFraction? (l.fractionChars ++ l.exponentChars) = some (l.fraction, l.exponentChars) := by
  unfold Literal.fractionChars
  split
  case h_1 hnone =>
    rw [hnone, List.nil_append]
    unfold Literal.exponentChars
    split <;> rfl
  case h_2 ds hsome =>
    have htake := takeDigits?_append (h.fraction ds hsome) (endsDigits_exponentChars l)
    simp [takeFraction?, htake, hsome]

/-- **A literal is read back from its characters.** -/
theorem ofChars?_chars (h : l.Proper) : Literal.ofChars? l.chars = some l := by
  have htake := takeDigits?_append h.whole (endsDigits_fractionChars l)
  have hzero : ¬ (l.whole.head? = some '0' ∧ 1 < l.whole.length) := by
    rintro ⟨hhead, hlen⟩
    have := h.noZero hhead
    omega
  unfold Literal.ofChars? Literal.chars
  cases hsign : l.negative with
  | true =>
    have hl : Literal.mk true l.whole l.fraction l.exponent = l := by rw [← hsign]
    simp [htake, hzero, takeFraction?_fractionChars h, takeExponent?_exponentChars h, hl]
  | false =>
    -- the first digit is no sign
    obtain ⟨c, cs, hwhole⟩ := List.exists_cons_of_ne_nil h.whole.1
    have hc : c.isDigit = true := h.whole.2 c (hwhole ▸ List.mem_cons_self)
    have hminus : c ≠ '-' := by rintro rfl; exact absurd hc (by decide)
    have hl : Literal.mk false (c :: cs) l.fraction l.exponent = l := by rw [← hsign, ← hwhole]
    rw [hwhole, List.cons_append] at htake
    have hzero' : c = '0' → cs = [] := by simpa [hwhole] using hzero
    simpa [hwhole, hminus, htake, takeFraction?_fractionChars h, takeExponent?_exponentChars h,
      hl] using hzero'

end

theorem number?_chars {l : Literal} (h : l.Proper) : number? l.chars = l.value? := by
  unfold number?
  rw [ofChars?_chars h]
  rfl

/-! ## Numbers read back -/

theorem areDigits_digits (n : Nat) : AreDigits (Decimal.digits n) :=
  ⟨Decimal.digits_ne_nil n, fun _ hc => Decimal.isDigit_of_mem_digits hc⟩

theorem digitsValue_digits (n : Nat) : digitsValue (Decimal.digits n) = n := by
  rw [digitsValue, Decimal.value?_digits]
  rfl

theorem proper_integer (negative : Bool) (n : Nat) :
    (Literal.mk negative (Decimal.digits n) none none).Proper where
  whole := areDigits_digits n
  noZero := by
    intro hhead
    by_cases hn : n = 0
    · subst hn
      rfl
    · exact absurd hhead (Decimal.head?_digits hn)
  fraction := fun ds hds => by cases hds
  exponent := fun x hx => by cases hx

/-- **The text of an integer of 64 bits is a literal that stands for it.** -/
theorem exists_literal_intText {i : Int} (hlow : -(2 ^ 63) ≤ i) (hhigh : i < 2 ^ 64) :
    ∃ l : Literal, l.Proper ∧ (Decimal.intText i).toList = l.chars ∧ l.value? = some (.int i) := by
  have hneg : Nat.pow 2 63 = 2 ^ 63 := rfl
  have hmax : Decimal.wordMax = 2 ^ 64 - 1 := rfl
  cases i with
  | ofNat n =>
    refine ⟨_, proper_integer false n, ?_, ?_⟩
    · simp [Decimal.intText, Literal.chars, Literal.fractionChars, Literal.exponentChars]
    · simp only [Int.ofNat_eq_natCast] at hhigh
      simp only [Literal.value?, digitsValue_digits]
      rw [if_neg (by decide), if_pos (by omega)]
      rfl
  | negSucc n =>
    refine ⟨_, proper_integer true (n + 1), ?_, ?_⟩
    · simp [Decimal.intText, Literal.chars, Literal.fractionChars, Literal.exponentChars]
    · simp only [Literal.value?, digitsValue_digits]
      rw [if_pos trivial, if_pos (by omega)]
      rfl

/-- The digits of a literal as one number. -/
def Literal.all (l : Literal) : Nat := Nat.ofDigitChars 10 (l.whole ++ l.fraction.getD []) 0

theorem Literal.Proper.fractionDigits {l : Literal} (h : l.Proper) :
    ∀ c ∈ l.fraction.getD [], c.isDigit = true := by
  cases hfrac : l.fraction with
  | none => intro c hc; cases hc
  | some ds => exact (h.fraction ds hfrac).2

/-- The magnitude of a literal all whose digits fit a word. -/
theorem magnitude?_eq {l : Literal} (h : l.Proper) (hword : l.all ≤ Decimal.wordMax) :
    l.magnitude? = match l.exponent with
      | none => scaled l.all.toUInt64.toFloat (-(l.fraction.getD []).length)
      | some (negative, ds) =>
        if exponentMax < digitsValue ds then
          if l.all ≠ 0 ∧ negative = false then none else some 0.0
        else scaled l.all.toUInt64.toFloat
          (if negative then -(l.fraction.getD []).length - digitsValue ds
            else -(l.fraction.getD []).length + digitsValue ds) := by
  have hall : l.all = Nat.ofDigitChars 10 (l.fraction.getD []) (Nat.ofDigitChars 10 l.whole 0) :=
    Nat.ofDigitChars_append 0
  rw [hall] at hword ⊢
  have hwhole := absorb_eq h.whole.2 ((le_ofDigitChars _ _).trans hword)
  have hfrac := absorb_eq h.fractionDigits hword
  cases hexp : l.exponent <;>
    simp only [Literal.magnitude?, hexp, hwhole, hfrac, Nat.sub_self, Int.natCast_zero,
      Int.zero_sub]

theorem exists_magnitude?_of_fraction {l : Literal} {ds : List Char} (h : l.Proper)
    (hword : l.all ≤ Decimal.wordMax) (hfrac : l.fraction = some ds) (hexp : l.exponent = none) :
    ∃ f, l.magnitude? = some f := by
  rw [magnitude?_eq h hword, hexp, hfrac]
  refine exists_scaled_of_neg _ ?_
  have hpos := List.length_pos_of_ne_nil (h.fraction ds hfrac).1
  simp only [Option.getD_some]
  omega

theorem exists_magnitude?_of_exponent {l : Literal} {x : Digits} {n : Nat} {negative : Bool}
    (h : l.Proper) (hx : x.Tame) (hne : x.digits ≠ 0) (hall : l.all = x.digits)
    (hexp : l.exponent = some (negative, Decimal.digits n))
    (hsum : -((l.fraction.getD []).length : Int) + (if negative then -(n : Int) else n) =
      x.exponent)
    (hmax : negative = false → n ≤ exponentMax) : ∃ f, l.magnitude? = some f := by
  have hword : l.all ≤ Decimal.wordMax := hall ▸ hx.le_wordMax
  have hscaled := exists_scaled_of_tame hx hne
  rw [magnitude?_eq h hword, hexp, hall]
  simp only [digitsValue_digits]
  split
  · rename_i hgt
    cases negative with
    | true => exact ⟨0.0, if_neg (fun hand => Bool.noConfusion hand.2)⟩
    | false => exact absurd (hmax rfl) (Nat.not_le.2 hgt)
  · cases negative with
    | true =>
      simp only [if_true] at hsum ⊢
      rwa [Int.sub_eq_add_neg, hsum]
    | false =>
      simp only [Bool.false_eq_true, if_false] at hsum ⊢
      rwa [hsum]

theorem toList_intText (i : Int) :
    (Decimal.intText i).toList =
      if i < 0 then '-' :: Decimal.digits i.natAbs else Decimal.digits i.natAbs := by
  cases i with
  | ofNat n =>
    rw [if_neg (by simp [Int.ofNat_eq_natCast])]
    simp [Decimal.intText]
  | negSucc n =>
    rw [if_pos (by omega)]
    simp [Decimal.intText]

theorem AreDigits.take {ds : List Char} (h : AreDigits ds) {k : Nat} (hk : 0 < k) :
    AreDigits (ds.take k) := by
  refine ⟨fun hnil => ?_, fun c hc => h.2 c (List.mem_of_mem_take hc)⟩
  rcases List.take_eq_nil_iff.1 hnil with hzero | hds
  · omega
  · exact h.1 hds

theorem AreDigits.drop {ds : List Char} (h : AreDigits ds) {k : Nat} (hk : k < ds.length) :
    AreDigits (ds.drop k) := by
  refine ⟨fun hnil => ?_, fun c hc => h.2 c (List.mem_of_mem_drop hc)⟩
  have := List.drop_eq_nil_iff.1 hnil
  omega

theorem AreDigits.append {ds ds' : List Char} (h : AreDigits ds)
    (h' : ∀ c ∈ ds', c.isDigit = true) : AreDigits (ds ++ ds') := by
  refine ⟨fun hnil => h.1 (List.append_eq_nil_iff.1 hnil).1, fun c hc => ?_⟩
  rcases List.mem_append.1 hc with hc | hc
  · exact h.2 c hc
  · exact h' c hc

theorem areDigits_zero : AreDigits ['0'] := ⟨List.cons_ne_nil _ _, List.forall_mem_singleton.2 rfl⟩

/-- Characters that are read as a double, with a sign in front or without. -/
def ReadsDouble (cs : List Char) : Prop :=
  ∀ negative : Bool, ∃ l : Literal, l.Proper ∧ l.chars = (if negative then '-' :: cs else cs) ∧
    (l.fraction ≠ none ∨ l.exponent ≠ none) ∧ ∃ f, l.magnitude? = some f

theorem ReadsDouble.literal {cs : List Char} (h : ReadsDouble cs) (negative : Bool) :
    ∃ l : Literal, l.Proper ∧ (if negative then '-' :: cs else cs) = l.chars ∧
      ∃ d, l.value? = some (.float d) := by
  obtain ⟨l, hl, hchars, hsome, f, hf⟩ := h negative
  have hdouble : l.value? = l.double? := by
    unfold Literal.value?
    split
    · rename_i hfrac hexp
      exact absurd hsome (by simp [hfrac, hexp])
    · rfl
  refine ⟨l, hl, hchars.symm, Double.ofFloat (if l.negative then -f else f), ?_⟩
  rw [hdouble, Literal.double?, hf]
  rfl

/-- Digits with a point are read if they fit a word together. -/
theorem readsDouble_point {ws fs : List Char} (hw : AreDigits ws)
    (hzero : ws.head? = some '0' → ws.length = 1) (hf : AreDigits fs)
    (hword : Nat.ofDigitChars 10 (ws ++ fs) 0 ≤ Decimal.wordMax) :
    ReadsDouble (ws ++ '.' :: fs) := by
  intro negative
  have hproper : (Literal.mk negative ws (some fs) none).Proper := by
    refine ⟨hw, hzero, fun ds hds => ?_, fun x hx => by cases hx⟩
    cases hds
    exact hf
  refine ⟨_, hproper, ?_, .inl (Option.some_ne_none fs),
    exists_magnitude?_of_fraction hproper hword rfl rfl⟩
  cases negative <;> simp [Literal.chars, Literal.fractionChars, Literal.exponentChars]

theorem isDigit_of_mem_zeros {k : Nat} : ∀ c ∈ List.replicate k '0', c.isDigit = true := by
  intro c hc
  rw [List.eq_of_mem_replicate hc]
  rfl

section
variable {x : Digits}

theorem ofDigitChars_digits (x : Digits) :
    Nat.ofDigitChars 10 (Decimal.digits x.digits) 0 = x.digits :=
  Nat.ofDigitChars_ten_toDigits

/-- Digits, zeros up to the point and one behind it, if they are sixteen at most. -/
theorem readsDouble_whole {k : Nat} (hne : x.digits ≠ 0)
    (hk : (Decimal.digits x.digits).length + k ≤ 16) :
    ReadsDouble (Decimal.digits x.digits ++ List.replicate k '0' ++ ['.', '0']) := by
  have hdigits := areDigits_digits x.digits
  refine readsDouble_point (hdigits.append isDigit_of_mem_zeros) ?_ areDigits_zero ?_
  · rw [List.head?_append_of_ne_nil _ hdigits.1]
    exact fun hzero => absurd hzero (Decimal.head?_digits hne)
  · have hlt : x.digits < 10 ^ (Decimal.digits x.digits).length :=
      (Nat.length_toDigits_le_iff (by decide) Nat.length_toDigits_pos).1 (Nat.le_refl _)
    have hpow : 10 ^ k * 10 ^ (Decimal.digits x.digits).length ≤ 10 ^ 16 := by
      rw [← Nat.pow_add]
      exact Nat.pow_le_pow_right (by decide) (by omega)
    have hprod : 10 ^ k * x.digits ≤ 10 ^ 16 := (Nat.mul_le_mul_left _ hlt.le).trans hpow
    have hmax : 10 * 10 ^ 16 + 0 ≤ Decimal.wordMax := by decide
    rw [Nat.ofDigitChars_append, Nat.ofDigitChars_append, ofDigitChars_digits,
      Nat.ofDigitChars_replicate_zero, Nat.ofDigitChars_cons, Nat.ofDigitChars_nil]
    exact (Nat.add_le_add_right (Nat.mul_le_mul_left 10 hprod) _).trans hmax

/-- Digits with a point between them. -/
theorem readsDouble_inner (h : x.Tame) (hne : x.digits ≠ 0) {k : Nat} (hk : 0 < k)
    (hlt : k < (Decimal.digits x.digits).length) :
    ReadsDouble ((Decimal.digits x.digits).take k ++ '.' :: (Decimal.digits x.digits).drop k) := by
  have hdigits := areDigits_digits x.digits
  refine readsDouble_point (hdigits.take hk) ?_ (hdigits.drop hlt) ?_
  · rw [List.head?_take, if_neg (by omega)]
    exact fun hzero => absurd hzero (Decimal.head?_digits hne)
  · rw [List.take_append_drop, ofDigitChars_digits]
    exact h.le_wordMax

/-- Digits behind zeros. -/
theorem readsDouble_small (h : x.Tame) (k : Nat) :
    ReadsDouble ('0' :: '.' :: List.replicate k '0' ++ Decimal.digits x.digits) := by
  have hdigits := areDigits_digits x.digits
  have hzeros : AreDigits (List.replicate k '0' ++ Decimal.digits x.digits) := by
    refine ⟨fun hnil => hdigits.1 (List.append_eq_nil_iff.1 hnil).2, fun c hc => ?_⟩
    rcases List.mem_append.1 hc with hc | hc
    · exact isDigit_of_mem_zeros c hc
    · exact hdigits.2 c hc
  have hpoint : '0' :: '.' :: List.replicate k '0' ++ Decimal.digits x.digits =
      ['0'] ++ '.' :: (List.replicate k '0' ++ Decimal.digits x.digits) := rfl
  rw [hpoint]
  refine readsDouble_point areDigits_zero (fun _ => rfl) hzeros ?_
  rw [← List.append_assoc, Nat.ofDigitChars_append, Nat.ofDigitChars_append,
    Nat.ofDigitChars_replicate_zero, Nat.ofDigitChars_cons, Nat.ofDigitChars_nil]
  simp only [Nat.mul_zero, Nat.zero_add, Nat.sub_self]
  rw [ofDigitChars_digits]
  exact h.le_wordMax

/-- One digit, the others as a fraction, and an exponent. If there are no others, then there is no
fraction, which is as good as one without digits. -/
def scientific (negative : Bool) (ds : List Char) (e : Int) : Literal where
  negative := negative
  whole := ds.take 1
  fraction := if ds.length = 1 then none else some (ds.drop 1)
  exponent := some (decide (e < 0), Decimal.digits e.natAbs)

theorem fraction_scientific (negative : Bool) (ds : List Char) (e : Int) :
    (scientific negative ds e).fraction.getD [] = ds.drop 1 := by
  unfold scientific
  dsimp only
  split
  · rename_i hone
    exact (List.drop_eq_nil_of_le (Nat.le_of_eq hone)).symm
  · rfl

theorem proper_scientific {ds : List Char} (h : AreDigits ds) (hhead : ds.head? ≠ some '0')
    (negative : Bool) (e : Int) : (scientific negative ds e).Proper := by
  have hlen := List.length_pos_of_ne_nil h.1
  refine ⟨h.take (by decide), fun hzero => ?_, fun fs hfs => ?_, fun y hy => ?_⟩
  · unfold scientific at hzero
    rw [List.head?_take, if_neg (by decide)] at hzero
    exact absurd hzero hhead
  · unfold scientific at hfs
    dsimp only at hfs
    split at hfs
    · cases hfs
    · cases hfs
      exact h.drop (by omega)
  · cases hy
    exact areDigits_digits _

theorem chars_scientific (negative : Bool) (ds : List Char) (e : Int) :
    (scientific negative ds e).chars = (if negative then ['-'] else []) ++
      (ds.take 1 ++ (if ds.length = 1 then [] else '.' :: ds.drop 1) ++
        'e' :: (Decimal.intText e).toList) := by
  rw [toList_intText]
  by_cases hone : ds.length = 1 <;> by_cases hneg : e < 0 <;>
    simp [scientific, Literal.chars, Literal.fractionChars, Literal.exponentChars, hone, hneg]

/-- Tame digits with an exponent are read. -/
theorem readsDouble_exponent (hx : x.Tame) (hne : x.digits ≠ 0) {e : Int}
    (he : e = (Decimal.digits x.digits).length + x.exponent - 1) :
    ReadsDouble ((Decimal.digits x.digits).take 1 ++
      (if (Decimal.digits x.digits).length = 1 then []
        else '.' :: (Decimal.digits x.digits).drop 1) ++
      'e' :: (Decimal.intText e).toList) := by
  intro negative
  have hdigits := areDigits_digits x.digits
  have hproper := proper_scientific hdigits (Decimal.head?_digits hne) negative e
  have hlen := List.length_pos_of_ne_nil hdigits.1
  have hshort : (Decimal.digits x.digits).length ≤ 18 := by
    refine (Nat.length_toDigits_le_iff (by decide) (by decide)).2 ?_
    have := hx.few
    omega
  refine ⟨_, hproper, ?_, .inr (Option.some_ne_none _),
    exists_magnitude?_of_exponent hproper hx hne ?_ rfl ?_ ?_⟩
  · rw [chars_scientific]
    cases negative <;> rfl
  · rw [Literal.all, fraction_scientific]
    exact (congrArg (Nat.ofDigitChars 10 · 0) (List.take_append_drop 1 _)).trans
      (ofDigitChars_digits x)
  · rw [fraction_scientific, List.length_drop]
    by_cases hneg : e < 0
    · simp only [hneg, decide_true, if_true]
      omega
    · simp only [hneg, decide_false, Bool.false_eq_true, if_false]
      omega
  · intro hpos
    have htop := hx.exponent_le hne
    have hmax : exponentMax = 2 ^ 31 - 1 := rfl
    simp only [decide_eq_false_iff_not] at hpos
    omega

end

/-- **The text of a finite double is a literal that stands for a double.** -/
theorem exists_literal_text {d : Double} (h : d.exponentBits < 2047) :
    ∃ l : Literal, l.Proper ∧ d.text.toList = l.chars ∧ ∃ d', l.value? = some (.float d') := by
  have htame := tame_shortest h
  simp only [Double.text, Double.signed, String.toList_ofList]
  refine ReadsDouble.literal ?_ d.isNegative
  split
  · exact readsDouble_point areDigits_zero (fun _ => rfl) areDigits_zero (by decide)
  · rename_i hne
    split
    · exact readsDouble_whole hne (by omega)
    split
    · exact readsDouble_inner htame hne (by omega) (by omega)
    split
    · exact readsDouble_small htame _
    · exact readsDouble_exponent htame hne rfl

end SymbolContext.Json
