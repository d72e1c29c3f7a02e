import SymbolContext.Text.Decimal

/-!
# Reading back decimal numbers

The value of a string of digits is computed from the left, as `Nat.ofDigitChars` does, so
**a number is read back from its digits** (`value?_digits`), also under a bound
(`natUpTo?_digits`). Nothing else is read as a number (`value?_eq_some_iff`,
`natUpTo?_eq_some_iff`).
-/

namespace SymbolContext.Decimal

theorem digit?_of_isDigit {c : Char} (h : c.isDigit = true) :
    digit? c = some (c.toNat - '0'.toNat) := by
  have hrange : '0' ≤ c ∧ c ≤ '9' := by
    simpa [Char.isDigit, Char.le_def] using h
  rw [digit?, if_pos hrange]

theorem isDigit_of_mem_digits {n : Nat} {c : Char} (h : c ∈ digits n) : c.isDigit = true :=
  Nat.isDigit_of_mem_toDigits (by decide) (by decide) h

@[simp] theorem toList_text (n : Nat) : (text n).toList = digits n := String.toList_ofList

theorem digits_ne_nil (n : Nat) : digits n ≠ [] := Nat.toDigits_ne_nil

/-- The value of digits that follow a number. -/
theorem foldl_digits {cs : List Char} (h : ∀ c ∈ cs, c.isDigit = true) (acc : Nat) :
    cs.foldl (fun acc d => do return 10 * (← acc) + (← digit? d)) (some acc) =
      some (Nat.ofDigitChars 10 cs acc) := by
  induction cs generalizing acc with
  | nil => rw [Nat.ofDigitChars_nil]; rfl
  | cons c cs ih =>
    have hc := digit?_of_isDigit (h c List.mem_cons_self)
    have hcs : ∀ d ∈ cs, d.isDigit = true := fun d hd => h d (List.mem_cons_of_mem c hd)
    rw [List.foldl_cons, hc, Nat.ofDigitChars_cons]
    exact ih hcs _

/-- **A number is read back from its digits.** -/
theorem value?_digits (n : Nat) : value? (digits n) = some n := by
  have hall : ∀ c ∈ digits n, c.isDigit = true := fun c hc => isDigit_of_mem_digits hc
  have hvalue := foldl_digits hall 0
  rw [digits, Nat.ofDigitChars_ten_toDigits, ← digits] at hvalue
  cases hd : digits n with
  | nil => exact absurd hd (digits_ne_nil n)
  | cons c cs => rwa [hd] at hvalue

theorem digits_inj {m n : Nat} (h : digits m = digits n) : m = n :=
  Option.some.inj (by rw [← value?_digits, h, value?_digits])

/-- The first digit of a number is no zero. -/
theorem head?_digits {n : Nat} (h : n ≠ 0) : (digits n).head? ≠ some '0' := by
  unfold digits
  induction n using Nat.base_induction 10 (by decide) with
  | single m hm =>
    have hdigit : ∀ m : Fin 10, m.val ≠ 0 → Nat.digitChar m.val ≠ '0' := by decide
    rw [Nat.toDigits_of_lt_base hm, List.head?_cons]
    exact fun heq => hdigit ⟨m, hm⟩ h (Option.some.inj heq)
  | digit m k hk hm ih =>
    obtain ⟨c, cs, hcons⟩ := List.exists_cons_of_ne_nil (Nat.toDigits_ne_nil (n := m) (b := 10))
    rw [← Nat.toDigits_append_toDigits (by decide) hm hk, hcons]
    rw [hcons] at ih
    exact ih (Nat.ne_of_gt hm)

theorem natUpTo?_digits (bound n : Nat) :
    natUpTo? bound (digits n) = if n ≤ bound then some n else none := by
  have hsign : ∀ rest, digits n ≠ '+' :: rest := fun rest heq => by
    have hplus : '+' ∈ digits n := heq ▸ List.mem_cons_self
    exact absurd (isDigit_of_mem_digits hplus) (by decide)
  rw [natUpTo?, value?_digits]
  · rfl
  · exact hsign

/-! ## What is read as a number -/

theorem isDigit_of_digit? {c : Char} {n : Nat} (h : digit? c = some n) : c.isDigit = true := by
  unfold digit? at h
  split at h
  · rename_i hrange
    simpa [Char.isDigit, Char.le_def] using hrange
  · cases h

theorem isDigit_of_foldl {cs : List Char} {acc : Option Nat} {n : Nat}
    (h : cs.foldl (fun acc d => do return 10 * (← acc) + (← digit? d)) acc = some n) :
    (∃ a, acc = some a) ∧ ∀ c ∈ cs, c.isDigit = true := by
  induction cs generalizing acc with
  | nil => exact ⟨⟨n, h⟩, fun c hc => absurd hc List.not_mem_nil⟩
  | cons c cs ih =>
    obtain ⟨⟨b, hb⟩, hcs⟩ := ih h
    obtain ⟨a, rfl⟩ : ∃ a, acc = some a := by
      cases acc with
      | none => cases hb
      | some a => exact ⟨a, rfl⟩
    obtain ⟨d, hd⟩ : ∃ d, digit? c = some d := by
      cases hc : digit? c with
      | none =>
        dsimp only at hb
        rw [hc] at hb
        cases hb
      | some d => exact ⟨d, rfl⟩
    refine ⟨⟨a, rfl⟩, fun x hx => ?_⟩
    rcases List.mem_cons.1 hx with rfl | hx
    · exact isDigit_of_digit? hd
    · exact hcs x hx

theorem value?_eq_some_iff {cs : List Char} {n : Nat} :
    value? cs = some n ↔
      cs ≠ [] ∧ (∀ c ∈ cs, c.isDigit = true) ∧ Nat.ofDigitChars 10 cs 0 = n := by
  cases cs with
  | nil => simp [value?]
  | cons c cs =>
    rw [value?]
    constructor
    · intro h
      have hdigits := (isDigit_of_foldl h).2
      rw [foldl_digits hdigits] at h
      exact ⟨List.cons_ne_nil c cs, hdigits, Option.some.inj h⟩
    · rintro ⟨-, hdigits, rfl⟩
      exact foldl_digits hdigits 0

/-- A number as one or more digits, with or without a plus sign in front. -/
def Written (cs : List Char) (n : Nat) : Prop :=
  ∃ ds, (cs = ds ∨ cs = '+' :: ds) ∧ ds ≠ [] ∧ (∀ c ∈ ds, c.isDigit = true) ∧
    Nat.ofDigitChars 10 ds 0 = n

/-- **What is read under a bound is a written number, and all written numbers under it are
read.** -/
theorem natUpTo?_eq_some_iff {bound : Nat} {cs : List Char} {n : Nat} :
    natUpTo? bound cs = some n ↔ Written cs n ∧ n ≤ bound := by
  have hbound : ∀ ds, ((value? ds).bind fun m => if m ≤ bound then some m else none) = some n ↔
      value? ds = some n ∧ n ≤ bound := by
    intro ds
    rw [Option.bind_eq_some_iff]
    constructor
    · rintro ⟨m, hm, h⟩
      split at h
      · obtain rfl := Option.some.inj h
        exact ⟨hm, ‹_›⟩
      · cases h
    · rintro ⟨hm, hle⟩
      exact ⟨n, hm, if_pos hle⟩
  unfold natUpTo?
  refine (hbound _).trans (and_congr_left fun _ => ?_)
  rw [value?_eq_some_iff]
  constructor
  · intro h
    split at h
    · exact ⟨_, .inr rfl, h⟩
    · exact ⟨_, .inl rfl, h⟩
  · rintro ⟨ds, rfl | rfl, h⟩
    · split
      · -- a plus sign is no digit
        exact absurd (h.2.1 '+' List.mem_cons_self) (by decide)
      · exact h
    · exact h

end SymbolContext.Decimal
