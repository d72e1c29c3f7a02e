import SymbolContext.Definition.Bracket
import SymbolContext.Text.Utf8

/-!
# The bracket that closes a group

`Bracket.extend?` keeps a stack of open brackets, over lines and multi-octet characters. What it
finds is said here without the stack: by words whose brackets are `Balanced`, and by what is `Kept`
of a text when stray closing brackets are left out.

* `stays_of_balanced`: a balanced word leaves the stack as it was and never empties it.
* `exists_kept` and `Kept.stays`: **the brackets that are kept are those that change the stack**, so
  the innermost bracket that is open can be read off them (`Pending`).
* `scanLines_eq_some_iff`: the search stops at the first character that empties the stack.
* `extend?_eq_some_iff` and `closing_bracket_found` put these together.
-/

namespace SymbolContext

/-! ## The end of a line -/

namespace Text

theorem getLast?_trimEnd {cs : List Char} {c : Char} :
    (trimEnd cs).getLast? = some c ↔ ∃ front blanks, cs = front ++ c :: blanks ∧
      (∀ b ∈ blanks, isBlank b = true) ∧ isBlank c = false := by
  rw [trimEnd, List.getLast?_reverse]
  constructor
  · intro h
    obtain ⟨rest, hrest⟩ := List.head?_eq_some_iff.1 h
    have hc := List.head?_dropWhile_not isBlank cs.reverse
    rw [h] at hc
    have hcs : cs.reverse.takeWhile isBlank ++ c :: rest = cs.reverse := by
      rw [← hrest, List.takeWhile_append_dropWhile]
    refine ⟨rest.reverse, (cs.reverse.takeWhile isBlank).reverse, ?_, fun b hb => ?_, hc⟩
    · simpa using (congrArg List.reverse hcs).symm
    · exact List.all_eq_true.1 List.all_takeWhile b (List.mem_reverse.1 hb)
  · rintro ⟨front, blanks, rfl, hblanks, hc⟩
    have hrev : (front ++ c :: blanks).reverse = blanks.reverse ++ c :: front.reverse := by simp
    rw [hrev, List.dropWhile_append_of_pos fun b hb => hblanks b (List.mem_reverse.1 hb),
      List.dropWhile_cons_of_neg (by simp [hc]), List.head?_cons]

end Text

namespace Bracket

/-- The last character of a line that is not white space. -/
def EndsWith (line : String) (c : Char) : Prop :=
  ∃ front blanks, line.toList = front ++ c :: blanks ∧ (∀ b ∈ blanks, Text.isBlank b = true) ∧
    Text.isBlank c = false

/-! ## Balanced words -/

def isCloser (c : Char) : Bool := [')', ']', '\x7d', '>'].contains c

def isBracket (c : Char) : Bool := isOpener c || isCloser c

/-- The brackets among some characters. -/
def brackets (cs : List Char) : List Char := cs.filter isBracket

/-- A word over the four pairs of brackets in which each bracket has its partner. -/
inductive Balanced : List Char → Prop where
  | nil : Balanced []
  | pair {o c : Char} {u v : List Char} : closer? o = some c → Balanced u → Balanced v →
    Balanced (o :: (u ++ c :: v))

theorem Balanced.append {u v : List Char} (hu : Balanced u) (hv : Balanced v) :
    Balanced (u ++ v) := by
  induction hu with
  | nil => exact hv
  | pair hc hu _ _ ih =>
    rw [List.cons_append, List.append_assoc, List.cons_append]
    exact .pair hc hu ih

theorem isOpener_iff {o : Char} : isOpener o = true ↔ ∃ c, closer? o = some c :=
  Option.isSome_iff_exists

theorem closer?_cases {o c : Char} (h : closer? o = some c) :
    (o = '(' ∧ c = ')') ∨ (o = '[' ∧ c = ']') ∨ (o = '\x7b' ∧ c = '\x7d') ∨
      (o = '<' ∧ c = '>') := by
  unfold closer? at h
  split at h <;> simp_all [eq_comm]

theorem isCloser_of_closer? {o c : Char} (h : closer? o = some c) : isCloser c = true := by
  rcases closer?_cases h with ⟨-, rfl⟩ | ⟨-, rfl⟩ | ⟨-, rfl⟩ | ⟨-, rfl⟩ <;> decide

/-- No bracket both opens and closes. -/
theorem not_isOpener_of_isCloser {c : Char} (h : isCloser c = true) : isOpener c = false := by
  simp only [isCloser, List.contains_eq_mem, List.mem_cons, List.not_mem_nil, or_false,
    decide_eq_true_eq] at h
  rcases h with rfl | rfl | rfl | rfl <;> decide

/-! ## The stack -/

theorem push_opener {o : Char} (h : isOpener o = true) (s : List Char) : push s o = o :: s := by
  rw [push.eq_def, if_pos h]

theorem push_closer {o c : Char} (h : closer? o = some c) (s : List Char) :
    push (o :: s) c = s := by
  simp [push, not_isOpener_of_isCloser (isCloser_of_closer? h), h]

theorem push_stray {q d : Char} (hd : isOpener d = false) (h : closer? q ≠ some d)
    (s : List Char) : push (q :: s) d = q :: s := by
  simp [push, hd, h]

theorem push_other {d : Char} (h : isBracket d = false) (s : List Char) : push s d = s := by
  obtain ⟨ho, hc⟩ := Bool.or_eq_false_iff.1 h
  cases s with
  | nil => simp [push, ho]
  | cons q s =>
    apply push_stray ho
    intro hq
    rw [isCloser_of_closer? hq] at hc
    cases hc

theorem push_eq_nil {q c : Char} {s : List Char} (h : push (q :: s) c = []) :
    closer? q = some c ∧ s = [] := by
  cases hc : isOpener c with
  | true =>
    rw [push_opener hc] at h
    cases h
  | false =>
    by_cases hq : closer? q = some c
    · rw [push_closer hq] at h
      exact ⟨hq, h⟩
    · rw [push_stray hc hq] at h
      cases h

/-- Some bracket stays open all the time while characters are read. -/
def Stays : List Char → List Char → Prop
  | s, [] => s ≠ []
  | s, c :: cs => s ≠ [] ∧ Stays (push s c) cs

theorem Stays.ne_nil {s u : List Char} (h : Stays s u) : s ≠ [] := by
  cases u with
  | nil => exact h
  | cons c u => exact h.1

theorem stays_append {s u v : List Char} :
    Stays s (u ++ v) ↔ Stays s u ∧ Stays (u.foldl push s) v := by
  induction u generalizing s with
  | nil => exact ⟨fun h => ⟨h.ne_nil, h⟩, And.right⟩
  | cons c u ih =>
    rw [List.cons_append, Stays, Stays, ih, List.foldl_cons, and_assoc]

theorem Stays.foldl_ne_nil {s u : List Char} (h : Stays s u) : u.foldl push s ≠ [] := by
  rw [← List.append_nil u] at h
  exact (stays_append.1 h).2

theorem foldl_push_balanced {w : List Char} (h : Balanced w) (s : List Char) :
    w.foldl push s = s := by
  induction h generalizing s with
  | nil => rfl
  | pair hc _ _ ihu ihv =>
    rw [List.foldl_cons, List.foldl_append, List.foldl_cons,
      push_opener (isOpener_iff.2 ⟨_, hc⟩), ihu, push_closer hc, ihv]

theorem stays_of_balanced {w : List Char} (h : Balanced w) {s : List Char} (hs : s ≠ []) :
    Stays s w := by
  induction h generalizing s with
  | nil => exact hs
  | pair hc hu _ ihu ihv =>
    refine ⟨hs, ?_⟩
    rw [push_opener (isOpener_iff.2 ⟨_, hc⟩), stays_append, foldl_push_balanced hu, Stays,
      push_closer hc]
    exact ⟨ihu (List.cons_ne_nil _ _), List.cons_ne_nil _ _, ihv hs⟩

/-- Characters that are no brackets change nothing. -/
theorem foldl_push_brackets (u s : List Char) : (brackets u).foldl push s = u.foldl push s := by
  induction u generalizing s with
  | nil => rfl
  | cons c u ih =>
    cases hc : isBracket c with
    | true =>
      rw [brackets, List.filter_cons_of_pos hc]
      exact ih _
    | false =>
      rw [brackets, List.filter_cons_of_neg (by simp [hc]), List.foldl_cons, push_other hc]
      exact ih s

theorem stays_of_brackets {u s : List Char} (h : Stays s (brackets u)) : Stays s u := by
  induction u generalizing s with
  | nil => exact h
  | cons c u ih =>
    cases hc : isBracket c with
    | true =>
      rw [brackets, List.filter_cons_of_pos hc] at h
      exact ⟨h.1, ih h.2⟩
    | false =>
      rw [brackets, List.filter_cons_of_neg (by simp [hc])] at h
      refine ⟨h.ne_nil, ?_⟩
      rw [push_other hc]
      exact ih h

/-! ## Stray closing brackets -/

/-- The innermost bracket that is open behind a word. -/
def Innermost (w : List Char) (q : Char) : Prop :=
  ∃ x y, w = x ++ q :: y ∧ isOpener q = true ∧ Balanced y

/-- **What is kept of characters that stand behind an opening bracket `o`**, as long as it is open:
the brackets, without each closing one that does not fit the innermost bracket open there. -/
inductive Kept (o : Char) : List Char → List Char → Prop where
  | nil : Kept o [] []
  | other {u w : List Char} {d : Char} : Kept o u w → isBracket d = false → Kept o (u ++ [d]) w
  | opener {u w : List Char} {d : Char} : Kept o u w → isOpener d = true →
    Kept o (u ++ [d]) (w ++ [d])
  | closer {u w : List Char} {q d : Char} : Kept o u w → Innermost w q → closer? q = some d →
    Kept o (u ++ [d]) (w ++ [d])
  | stray {u w : List Char} {q d : Char} : Kept o u w → Innermost (o :: w) q →
    isCloser d = true → closer? q ≠ some d → Kept o (u ++ [d]) w

/-- The brackets that are open behind `o` and a word, innermost first. -/
inductive Pending (o : Char) : List Char → List Char → Prop where
  | base {y : List Char} : Balanced y → Pending o y [o]
  | deeper {w s y : List Char} {q : Char} : Pending o w s → isOpener q = true → Balanced y →
    Pending o (w ++ q :: y) (q :: s)

theorem Pending.ne_nil {o : Char} {w s : List Char} (h : Pending o w s) : s ≠ [] := by
  cases h <;> exact List.cons_ne_nil _ _

theorem Pending.append {o : Char} {w s z : List Char} (h : Pending o w s) (hz : Balanced z) :
    Pending o (w ++ z) s := by
  cases h with
  | base hy => exact .base (hy.append hz)
  | deeper hw hq hy =>
    rw [List.append_assoc, List.cons_append]
    exact .deeper hw hq (hy.append hz)

theorem Pending.innermost {o q : Char} {w s : List Char} (ho : isOpener o = true)
    (h : Pending o w (q :: s)) : Innermost (o :: w) q := by
  cases h with
  | base hy => exact ⟨[], _, rfl, ho, hy⟩
  | deeper _ hq hy => exact ⟨o :: _, _, rfl, hq, hy⟩

/-- In a balanced word no bracket stays open. -/
theorem not_balanced_opened {x y : List Char} {q : Char} (hq : isOpener q = true)
    (hy : Balanced y) : ¬ Balanced (x ++ q :: y) := by
  intro h
  have hstays := stays_of_balanced h (List.cons_ne_nil '(' [])
  have hfold := foldl_push_balanced h ['(']
  rw [List.foldl_append, List.foldl_cons, push_opener hq, foldl_push_balanced hy] at hfold
  exact (stays_append.1 hstays).2.ne_nil (List.cons.inj hfold).2

/-- So the innermost bracket that is open behind a word is the only one. -/
theorem innermost_unique {x x' y y' : List Char} {q q' : Char} (hq : isOpener q = true)
    (hq' : isOpener q' = true) (hy : Balanced y) (hy' : Balanced y')
    (h : x ++ q :: y = x' ++ q' :: y') : x = x' ∧ q = q' ∧ y = y' := by
  rcases List.append_eq_append_iff.1 h with ⟨z, rfl, hz⟩ | ⟨z, rfl, hz⟩
  · cases z with
    | nil => simpa using hz
    | cons c z =>
      obtain ⟨-, rfl⟩ := List.cons.inj hz
      exact absurd hy (not_balanced_opened hq' hy')
  · cases z with
    | nil => simpa [eq_comm] using hz
    | cons c z =>
      obtain ⟨-, rfl⟩ := List.cons.inj hz
      exact absurd hy' (not_balanced_opened hq hy)

/-- **One character**: if a bracket stays open, what is kept goes on with the stack. -/
theorem kept_step {o d : Char} {u w s : List Char} (ho : isOpener o = true) (hk : Kept o u w)
    (hp : Pending o w s) (hd : push s d ≠ []) :
    ∃ w', Kept o (u ++ [d]) w' ∧ Pending o w' (push s d) := by
  obtain ⟨q, rest, rfl⟩ := List.exists_cons_of_ne_nil hp.ne_nil
  cases hopens : isOpener d with
  | true =>
    rw [push_opener hopens]
    exact ⟨w ++ [d], .opener hk hopens, .deeper hp hopens .nil⟩
  | false =>
    by_cases hq : closer? q = some d
    · rw [push_closer hq] at hd ⊢
      cases hp with
      | base => exact absurd rfl hd
      | @deeper w₀ _ y _ hp₀ hopener hy =>
        have hpair : Balanced (q :: (y ++ [d])) := .pair hq hy .nil
        refine ⟨w₀ ++ q :: y ++ [d], .closer hk ⟨w₀, y, rfl, hopener, hy⟩ hq, ?_⟩
        rw [List.append_assoc, List.cons_append]
        exact hp₀.append hpair
    · rw [push_stray hopens hq]
      cases hcloses : isCloser d with
      | true => exact ⟨w, .stray hk (hp.innermost ho) hcloses hq, hp⟩
      | false => exact ⟨w, .other hk (by simp [isBracket, hopens, hcloses]), hp⟩

/-- **A text**: as long as a bracket stays open, some brackets are kept, and those that are open
behind them are on the stack. -/
theorem exists_kept_append {o : Char} (ho : isOpener o = true) (v : List Char) :
    ∀ {u w s : List Char}, Kept o u w → Pending o w s → Stays s v →
      ∃ w', Kept o (u ++ v) w' ∧ Pending o w' (v.foldl push s) := by
  induction v with
  | nil => exact fun {u w s} hk hp _ => ⟨w, by rwa [List.append_nil], hp⟩
  | cons d v ih =>
    intro u w s hk hp hs
    obtain ⟨w₁, hk₁, hp₁⟩ := kept_step ho hk hp hs.2.ne_nil
    obtain ⟨w₂, hk₂, hp₂⟩ := ih hk₁ hp₁ hs.2
    rw [List.append_assoc] at hk₂
    exact ⟨w₂, hk₂, hp₂⟩

theorem exists_kept {o : Char} (ho : isOpener o = true) {u : List Char} (h : Stays [o] u) :
    ∃ w, Kept o u w ∧ Pending o w (u.foldl push [o]) :=
  exists_kept_append ho u .nil (.base .nil) h

/-- The innermost bracket that is open is on top of the stack. -/
theorem Pending.head_eq {o q : Char} {w s : List Char} (ho : isOpener o = true)
    (h : Pending o w s) (hq : Innermost (o :: w) q) : ∃ rest, s = q :: rest := by
  obtain ⟨q', rest, rfl⟩ := List.exists_cons_of_ne_nil h.ne_nil
  obtain ⟨x, y, hw, hq, hy⟩ := hq
  obtain ⟨x', y', hw', hq', hy'⟩ := h.innermost ho
  obtain ⟨-, rfl, -⟩ := innermost_unique hq hq' hy hy' (hw.symm.trans hw')
  exact ⟨rest, rfl⟩

/-- A closing bracket that is kept closes the innermost bracket, and `o` stays open. -/
theorem Pending.close {o q d : Char} {w s : List Char} (h : Pending o w s) (hq : Innermost w q)
    (hd : closer? q = some d) : Pending o (w ++ [d]) (push s d) := by
  obtain ⟨x, y, rfl, hq, hy⟩ := hq
  generalize hw : x ++ q :: y = w at h
  cases h with
  | base hw' =>
    subst hw
    exact absurd hw' (not_balanced_opened hq hy)
  | deeper hp hq' hy' =>
    obtain ⟨rfl, rfl, rfl⟩ := innermost_unique hq hq' hy hy' hw
    rw [push_closer hd, List.append_assoc, List.cons_append]
    exact hp.append (.pair hd hy .nil)

theorem Kept.pending {o : Char} (ho : isOpener o = true) {u w : List Char} (h : Kept o u w) :
    Stays [o] u ∧ Pending o w (u.foldl push [o]) := by
  have hstep : ∀ {u w : List Char} {d : Char}, Stays [o] u →
      Pending o w (push (u.foldl push [o]) d) →
      Stays [o] (u ++ [d]) ∧ Pending o w ((u ++ [d]).foldl push [o]) := by
    intro u w d hs hp
    rw [List.foldl_append]
    exact ⟨stays_append.2 ⟨hs, hs.foldl_ne_nil, hp.ne_nil⟩, hp⟩
  induction h with
  | nil => exact ⟨List.cons_ne_nil _ _, .base .nil⟩
  | other _ hd ih =>
    apply hstep ih.1
    rw [push_other hd]
    exact ih.2
  | opener _ hd ih =>
    apply hstep ih.1
    rw [push_opener hd]
    exact .deeper ih.2 hd .nil
  | closer _ hq hd ih => exact hstep ih.1 (ih.2.close hq hd)
  | stray _ hq hd hne ih =>
    apply hstep ih.1
    obtain ⟨rest, hrest⟩ := ih.2.head_eq ho hq
    rw [hrest, push_stray (not_isOpener_of_isCloser hd) hne, ← hrest]
    exact ih.2

/-- **The bracket that closes `o`**, said with the stack and without it. -/
theorem closes_iff {o c : Char} (ho : isOpener o = true) (u : List Char) :
    Stays [o] u ∧ push (u.foldl push [o]) c = [] ↔
      closer? o = some c ∧ ∃ w, Kept o u w ∧ Balanced w := by
  constructor
  · rintro ⟨hstays, hc⟩
    obtain ⟨w, hk, hp⟩ := exists_kept ho hstays
    generalize u.foldl push [o] = s at hp hc
    cases hp with
    | base hw => exact ⟨(push_eq_nil hc).1, w, hk, hw⟩
    | deeper hp _ _ => exact absurd (push_eq_nil hc).2 hp.ne_nil
  · rintro ⟨hc, w, hk, hw⟩
    obtain ⟨hstays, hp⟩ := hk.pending ho
    refine ⟨hstays, ?_⟩
    generalize u.foldl push [o] = s at hp
    cases hp with
    | base => exact push_closer hc []
    | deeper _ hq hy => exact absurd hw (not_balanced_opened hq hy)

/-! ## Lines -/

/-- The number of octets of some characters. -/
def octets (cs : List Char) : Nat := (Utf8.encode (String.ofList cs)).length

theorem octets_cons (c : Char) (cs : List Char) : octets (c :: cs) = c.utf8Size + octets cs := by
  simp [octets, Utf8.encode]

theorem scanLine_eq_closed_iff {k : Nat} (cs : List Char) :
    ∀ {s : List Char} {column : Nat}, s ≠ [] → (scanLine s column cs = .closed k ↔
      ∃ before c after, cs = before ++ c :: after ∧ k = column + octets before + 1 ∧
        Stays s before ∧ push (before.foldl push s) c = []) := by
  induction cs with
  | nil => simp [scanLine]
  | cons d cs ih =>
    intro s column hs
    rw [scanLine]
    by_cases hd : push s d = []
    · rw [if_pos hd]
      constructor
      · intro h
        cases h
        exact ⟨[], d, cs, rfl, rfl, hs, hd⟩
      · rintro ⟨before, c, after, hcs, rfl, hstays, hc⟩
        cases before with
        | nil => rfl
        | cons b before =>
          obtain ⟨rfl, -⟩ := List.cons.inj hcs
          exact absurd hd hstays.2.ne_nil
    · rw [if_neg hd, ih hd]
      constructor
      · rintro ⟨before, c, after, rfl, rfl, hstays, hc⟩
        refine ⟨d :: before, c, after, rfl, ?_, ⟨hs, hstays⟩, hc⟩
        rw [octets_cons]
        omega
      · rintro ⟨before, c, after, hcs, rfl, hstays, hc⟩
        cases before with
        | nil =>
          obtain ⟨rfl, -⟩ := List.cons.inj hcs
          exact absurd hc hd
        | cons b before =>
          obtain ⟨rfl, rfl⟩ := List.cons.inj hcs
          refine ⟨before, c, after, rfl, ?_, hstays.2, hc⟩
          rw [octets_cons]
          omega

theorem scanLine_eq_pending_iff {s' : List Char} (cs : List Char) :
    ∀ {s : List Char} {column : Nat}, s ≠ [] → (scanLine s column cs = .pending s' ↔
      Stays s cs ∧ cs.foldl push s = s') := by
  induction cs with
  | nil =>
    intro s column hs
    simp [scanLine, Stays, hs]
  | cons d cs ih =>
    intro s column hs
    rw [scanLine, Stays, List.foldl_cons]
    by_cases hd : push s d = []
    · rw [if_pos hd]
      constructor
      · intro h
        cases h
      · rintro ⟨⟨-, hstays⟩, -⟩
        exact absurd hd hstays.ne_nil
    · rw [if_neg hd, ih hd]
      simp [hs]

/-- The characters of some lines, one line after another. -/
def characters (lines : List String) : List Char := lines.flatMap String.toList

/-- **The search stops at the first character that empties the stack.** -/
theorem scanLines_eq_some_iff {p : Position} (lines : List String) :
    ∀ {s : List Char} {line : Nat}, s ≠ [] → (scanLines s line lines = some p ↔
      ∃ j text before c after, lines[j]? = some text ∧ p = ⟨line + j, octets before + 1⟩ ∧
        text.toList = before ++ c :: after ∧
        Stays s (characters (lines.take j) ++ before) ∧
        push ((characters (lines.take j) ++ before).foldl push s) c = []) := by
  induction lines with
  | nil => simp [scanLines]
  | cons text lines ih =>
    intro s line hs
    have hnext : ∀ (j : Nat) (before : List Char),
        characters ((text :: lines).take (j + 1)) ++ before =
          text.toList ++ (characters (lines.take j) ++ before) := by
      simp [characters]
    constructor
    · intro h
      unfold scanLines at h
      split at h
      · rename_i k hk
        obtain ⟨before, c, after, htext, rfl, hstays, hc⟩ := (scanLine_eq_closed_iff _ hs).1 hk
        cases h
        exact ⟨0, text, before, c, after, rfl, by simp, htext, hstays, hc⟩
      · rename_i s' hk
        obtain ⟨hstays, rfl⟩ := (scanLine_eq_pending_iff _ hs).1 hk
        obtain ⟨j, text', before, c, after, hj, rfl, htext, hstays', hc⟩ :=
          (ih hstays.foldl_ne_nil).1 h
        refine ⟨j + 1, text', before, c, after, hj, ?_, htext, ?_, ?_⟩
        · rw [Nat.add_right_comm, Nat.add_assoc]
        · rw [hnext, stays_append]
          exact ⟨hstays, hstays'⟩
        · rw [hnext, List.foldl_append]
          exact hc
    · rintro ⟨j, text', before, c, after, hj, rfl, htext, hstays, hc⟩
      unfold scanLines
      cases j with
      | zero =>
        cases hj
        have hk : scanLine s 0 text.toList = .closed (octets before + 1) :=
          (scanLine_eq_closed_iff _ hs).2 ⟨before, c, after, htext, by omega, hstays, hc⟩
        rw [hk]
        rfl
      | succ j =>
        rw [hnext, stays_append] at hstays
        rw [hnext, List.foldl_append] at hc
        have hk : scanLine s 0 text.toList = .pending (text.toList.foldl push s) :=
          (scanLine_eq_pending_iff _ hs).2 ⟨hstays.1, rfl⟩
        rw [hk]
        apply (ih hstays.1.foldl_ne_nil).2
        refine ⟨j, text', before, c, after, hj, ?_, htext, hstays.2, hc⟩
        rw [Nat.add_right_comm, Nat.add_assoc]

/-! ## The end of a group -/

/-- The characters of the lines between two lines. -/
def between (lines : List String) (i j : Nat) : List Char :=
  characters ((lines.drop (i + 1)).take (j - (i + 1)))

/-- **The bracket `o` at the end of line `i` is closed just before `p`**: all that stands between
is balanced but for stray closing brackets. -/
def ClosedAt (lines : List String) (i : Nat) (o : Char) (p : Position) : Prop :=
  ∃ c text before after kept, closer? o = some c ∧ i < p.line ∧ lines[p.line]? = some text ∧
    text.toList = before ++ c :: after ∧ p.column = octets before + 1 ∧
    Kept o (between lines i p.line ++ before) kept ∧ Balanced kept

theorem scanLines_drop {lines : List String} {i : Nat} {o : Char} {p : Position}
    (ho : isOpener o = true) :
    scanLines [o] (i + 1) (lines.drop (i + 1)) = some p ↔ ClosedAt lines i o p := by
  rw [scanLines_eq_some_iff _ (List.cons_ne_nil o [])]
  constructor
  · rintro ⟨j, text, before, c, after, hj, rfl, htext, hstack⟩
    obtain ⟨hc, kept, hkept, hbalanced⟩ := (closes_iff ho _).1 hstack
    have hsub : i + 1 + j - (i + 1) = j := by omega
    rw [List.getElem?_drop] at hj
    refine ⟨c, text, before, after, kept, hc, ?_, hj, htext, rfl, ?_, hbalanced⟩
    · show i < i + 1 + j
      omega
    · rw [between, hsub]
      exact hkept
  · rintro ⟨c, text, before, after, kept, hc, hlt, hline, htext, hcolumn, hkept, hbalanced⟩
    have hadd : i + 1 + (p.line - (i + 1)) = p.line := by omega
    refine ⟨p.line - (i + 1), text, before, c, after, ?_, ?_, htext, ?_⟩
    · rw [List.getElem?_drop, hadd, hline]
    · rw [hadd, ← hcolumn]
    · exact (closes_iff ho _).2 ⟨hc, kept, hkept, hbalanced⟩

theorem ClosedAt.isOpener {lines : List String} {i : Nat} {o : Char} {p : Position}
    (h : ClosedAt lines i o p) : isOpener o = true := by
  obtain ⟨c, -, -, -, -, hc, -⟩ := h
  exact isOpener_iff.2 ⟨c, hc⟩

/-- **The end of a group is where the bracket at the end of the line is closed.** -/
theorem extend?_eq_some_iff {lines : List String} {i : Nat} {p : Position} :
    extend? lines i = some p ↔
      ∃ line o, lines[i]? = some line ∧ EndsWith line o ∧ ClosedAt lines i o p := by
  simp only [extend?, Option.bind_eq_bind, Option.bind_eq_some_iff, Text.getLast?_trimEnd]
  constructor
  · rintro ⟨line, hline, o, hends, h⟩
    split at h
    · rename_i ho
      exact ⟨line, o, hline, hends, (scanLines_drop ho).1 h⟩
    · cases h
  · rintro ⟨line, o, hline, hends, h⟩
    refine ⟨line, hline, o, hends, ?_⟩
    rw [if_pos h.isOpener]
    exact (scanLines_drop h.isOpener).2 h

theorem kept_of_balanced {o : Char} {u : List Char} (ho : isOpener o = true)
    (h : Balanced (brackets u)) : ∃ w, Kept o u w ∧ Balanced w := by
  obtain ⟨c, hc⟩ := isOpener_iff.1 ho
  have hstays : Stays [o] u := stays_of_brackets (stays_of_balanced h (List.cons_ne_nil o []))
  have hstack : u.foldl push [o] = [o] := by
    rw [← foldl_push_brackets, foldl_push_balanced h]
  have hempty : push (u.foldl push [o]) c = [] := by
    rw [hstack, push_closer hc]
  exact ((closes_iff ho u).1 ⟨hstays, hempty⟩).2

theorem endsWith_unique {line : String} {o o' : Char} (h : EndsWith line o)
    (h' : EndsWith line o') : o = o' := by
  have hlast := Text.getLast?_trimEnd.2 h
  rw [Text.getLast?_trimEnd.2 h'] at hlast
  exact (Option.some.inj hlast).symm

/-- **The search finds the closing bracket of a group.** If the brackets between an opening bracket
at the end of a line and a closing one of its kind are balanced, the place behind the latter is
found. What is found is such a place, but for stray closing brackets in between; and nothing is
found for a line that does not end with an opening bracket. -/
theorem closing_bracket_found (lines : List String) (i : Nat) :
    (∀ line o c j text before after, lines[i]? = some line → EndsWith line o →
      closer? o = some c → i < j → lines[j]? = some text → text.toList = before ++ c :: after →
      Balanced (brackets (between lines i j ++ before)) →
      extend? lines i = some ⟨j, octets before + 1⟩) ∧
    (∀ p, extend? lines i = some p ↔
      ∃ line o c text before after kept, lines[i]? = some line ∧ EndsWith line o ∧
        closer? o = some c ∧ i < p.line ∧ lines[p.line]? = some text ∧
        text.toList = before ++ c :: after ∧ p.column = octets before + 1 ∧
        Kept o (between lines i p.line ++ before) kept ∧ Balanced kept) ∧
    (∀ line, lines[i]? = some line →
      ((∀ c ∈ line.toList, Text.isBlank c = true) ∨ ∀ o, EndsWith line o → closer? o = none) →
      extend? lines i = none) := by
  refine ⟨?_, fun p => ?_, ?_⟩
  · intro line o c j text before after hline hends hc hlt hj htext hbalanced
    obtain ⟨kept, hkept, hw⟩ := kept_of_balanced (isOpener_iff.2 ⟨c, hc⟩) hbalanced
    exact extend?_eq_some_iff.2 ⟨line, o, hline, hends,
      c, text, before, after, kept, hc, hlt, hj, htext, rfl, hkept, hw⟩
  · rw [extend?_eq_some_iff]
    constructor
    · rintro ⟨line, o, hline, hends, c, text, before, after, kept, h⟩
      exact ⟨line, o, c, text, before, after, kept, hline, hends, h⟩
    · rintro ⟨line, o, c, text, before, after, kept, hline, hends, h⟩
      exact ⟨line, o, hline, hends, c, text, before, after, kept, h⟩
  · intro line hline hnone
    rw [Option.eq_none_iff_forall_ne_some]
    intro p hp
    obtain ⟨line', o, hline', hends, c, -, -, -, -, hc, -⟩ := extend?_eq_some_iff.1 hp
    obtain rfl : line = line' := Option.some.inj (hline.symm.trans hline')
    rcases hnone with hblank | hnone
    · obtain ⟨front, blanks, htext, -, ho⟩ := hends
      have ho' : Text.isBlank o = true := hblank o (by simp [htext])
      rw [ho] at ho'
      cases ho'
    · rw [hnone o hends] at hc
      cases hc

/-- A table over three lines: its end is found behind a character of two octets, and its second
line opens nothing. -/
theorem closing_bracket_found_table :
    let lines := ["T = [ ", "  (3, [4]),", "é] ;"]
    EndsWith "T = [ " '[' ∧ Balanced (brackets (between lines 0 2 ++ ['é'])) ∧
      extend? lines 0 = some ⟨2, 3⟩ ∧ EndsWith "  (3, [4])," ',' ∧ extend? lines 1 = none := by
  intro lines
  have hopens : EndsWith "T = [ " '[' :=
    ⟨"T = ".toList, [' '], rfl, List.forall_mem_singleton.2 rfl, rfl⟩
  have hword : brackets (between lines 0 2 ++ ['é']) = ['(', '[', ']', ')'] := by decide
  have hbalanced : Balanced (brackets (between lines 0 2 ++ ['é'])) := by
    rw [hword]
    exact .pair (u := ['[', ']']) rfl (.pair rfl .nil .nil) .nil
  have hcomma : EndsWith "  (3, [4])," ',' :=
    ⟨"  (3, [4])".toList, [], rfl, List.forall_mem_nil _, rfl⟩
  refine ⟨hopens, hbalanced, ?_, hcomma, ?_⟩
  · exact (closing_bracket_found lines 0).1 _ '[' ']' 2 _ ['é'] [' ', ';'] rfl hopens rfl
      (by decide) rfl rfl hbalanced
  · refine (closing_bracket_found lines 1).2.2 _ rfl (.inr fun o ho => ?_)
    rw [endsWith_unique ho hcomma]
    rfl

end Bracket

end SymbolContext
