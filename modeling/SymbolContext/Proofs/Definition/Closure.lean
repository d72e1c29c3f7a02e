import SymbolContext.Proofs.Definition.InPlace
import SymbolContext.Proofs.Definition.Matching

/-!
# When a definition is complete

A definition is continued to the end of a group that its last line opens, and the line it then ends
with may open another group: a wrapped parameter list is followed by a body. Expanding the span of a
definition again shows whether it was complete.

* `expand_span`: the span of a definition is expanded from its own last line.
* `expansion_closed_iff`: **it stays as it is exactly if the last line opens no group that is closed
  further down**; otherwise it grows, and it is complete after a few rounds.
* `not_closed_two_groups`: one round is not enough for two groups in a row.
-/

namespace SymbolContext

namespace Text

theorem join_append_prefix (sep : String) (xs ys : List String) :
    (join sep xs).toList <+: (join sep (xs ++ ys)).toList := by
  induction xs with
  | nil => exact List.nil_prefix
  | cons x xs ih =>
    cases xs with
    | nil =>
      cases ys with
      | nil => exact List.prefix_rfl
      | cons y ys => simp [join]
    | cons x' xs => simpa [join, List.prefix_append_right_inj] using ih

end Text

namespace Definition

section
variable {text : String} {lines : List String}

/-- The line ends with an opening bracket that is closed further down. -/
def OpensFurther (lines : List String) (i : Nat) : Prop :=
  ∃ line o p, lines[i]? = some line ∧ Bracket.EndsWith line o ∧ Bracket.ClosedAt lines i o p

theorem opensFurther_iff {i : Nat} :
    OpensFurther lines i ↔ ∃ p, Bracket.extend? lines i = some p := by
  simp only [Bracket.extend?_eq_some_iff]
  constructor
  · rintro ⟨line, o, p, h⟩
    exact ⟨p, line, o, h⟩
  · rintro ⟨p, line, o, h⟩
    exact ⟨line, o, p, h⟩

/-- Where a span that would end at `p` ends. -/
def continued (lines : List String) (p : Position) : Position :=
  (Bracket.extend? lines p.line).getD p

theorem continued_cases (lines : List String) (p : Position) :
    (¬ OpensFurther lines p.line ∧ continued lines p = p) ∨
    (OpensFurther lines p.line ∧ p.line < (continued lines p).line ∧
      (continued lines p).line < lines.length) := by
  rw [opensFurther_iff, continued]
  cases h : Bracket.extend? lines p.line with
  | none => exact .inl ⟨by simp, rfl⟩
  | some q => exact .inr ⟨⟨q, rfl⟩, Bracket.extend?_line h⟩

theorem continued_lt {p : Position} (h : p.line < lines.length) :
    p.line ≤ (continued lines p).line ∧ (continued lines p).line < lines.length := by
  rcases continued_cases lines p with ⟨-, hsame⟩ | ⟨-, hmore⟩
  · rw [hsame]
    exact ⟨Nat.le_refl _, h⟩
  · exact ⟨Nat.le_of_lt hmore.1, hmore.2⟩

/-- The definition from a line up to a position. -/
def upTo (path text : String) (start : Nat) (stop : Position) : Result :=
  (Text.join "\n" (slice (Text.lines text) (min start stop.line) stop.line),
    ⟨path, ⟨⟨start, 0⟩, stop⟩⟩)

theorem expand_eq_upTo {path : String} {outline : Option Outline} {location : Location}
    (h : (around outline location.range).stop.line < (Text.lines text).length) :
    expand path text outline location =
      .ok (upTo path text (around outline location.range).start.line
        (continued (Text.lines text) (around outline location.range).stop)) := by
  unfold expand
  rw [chosen_eq]
  simp only [Nat.not_le.2 h, if_false]
  rfl

/-- The span of a definition is expanded from its own last line. -/
theorem expand_span (path : String) (start : Nat) {stop : Position}
    (h : stop.line < (Text.lines text).length) :
    expand path text none (upTo path text start stop).2 =
      .ok (upTo path text start (continued (Text.lines text) stop)) := by
  have hspan : (around none (upTo path text start stop).2.range).stop.line <
      (Text.lines text).length := h
  exact expand_eq_upTo hspan

theorem exists_upTo {path : String} {outline : Option Outline} {location : Location}
    {result : Result} (h : expand path text outline location = .ok result) :
    (around outline location.range).stop.line < (Text.lines text).length ∧
      result = upTo path text (around outline location.range).start.line
        (continued (Text.lines text) (around outline location.range).stop) := by
  rcases expand_cases path text outline location with ⟨-, herror⟩ | ⟨hlt, -⟩
  · rw [herror] at h
    cases h
  · rw [expand_eq_upTo hlt] at h
    exact ⟨hlt, (Except.ok.inj h).symm⟩

theorem upTo_inj {path : String} {start : Nat} {p q : Position}
    (h : upTo path text start p = upTo path text start q) : p = q :=
  congrArg (fun r : Result => r.2.range.stop) h

theorem upTo_prefix (path : String) {start : Nat} {p q : Position} (hp : start ≤ p.line)
    (hq : p.line ≤ q.line) :
    (upTo path text start p).1.toList <+: (upTo path text start q).1.toList := by
  simp only [upTo, slice, Nat.min_eq_left hp, Nat.min_eq_left (Nat.le_trans hp hq)]
  obtain ⟨k, hk⟩ : ∃ k, q.line + 1 - start = (p.line + 1 - start) + k :=
    Nat.exists_eq_add_of_le (by omega)
  rw [hk, List.take_add]
  exact Text.join_append_prefix "\n" _ _

theorem expand_span_iff (path : String) (start : Nat) {stop : Position}
    (h : stop.line < (Text.lines text).length) :
    expand path text none (upTo path text start stop).2 = .ok (upTo path text start stop) ↔
      ¬ OpensFurther (Text.lines text) stop.line := by
  rw [expand_span path start h, Except.ok.injEq]
  rcases continued_cases (Text.lines text) stop with ⟨hnone, hsame⟩ | ⟨hopens, hmore, -⟩
  · rw [hsame]
    exact iff_of_true rfl hnone
  · refine iff_of_false (fun heq => ?_) (not_not_intro hopens)
    rw [upTo_inj heq] at hmore
    exact Nat.lt_irrefl _ hmore

/-- Expand the span of a definition so many times more. -/
def again (path text : String) : Nat → Result → Except BackendFailure Result
  | 0, result => .ok result
  | n + 1, result => do again path text n (← expand path text none result.2)

/-- **Each round that changes a definition moves its end down**, so the lines below the end bound
their number. -/
theorem exists_complete (path : String) (start below : Nat) : ∀ {stop : Position},
    stop.line < (Text.lines text).length → (Text.lines text).length ≤ stop.line + 1 + below →
    ∃ n ≤ below, ∃ last : Position, stop.line ≤ last.line ∧
      last.line < (Text.lines text).length ∧ ¬ OpensFurther (Text.lines text) last.line ∧
      again path text n (upTo path text start stop) = .ok (upTo path text start last) := by
  induction below with
  | zero =>
    intro stop hlt hbelow
    rcases continued_cases (Text.lines text) stop with ⟨hnone, -⟩ | ⟨-, hmore⟩
    · exact ⟨0, Nat.le_refl _, stop, Nat.le_refl _, hlt, hnone, rfl⟩
    · omega
  | succ below ih =>
    intro stop hlt hbelow
    rcases continued_cases (Text.lines text) stop with ⟨hnone, -⟩ | ⟨-, hmore⟩
    · exact ⟨0, Nat.zero_le _, stop, Nat.le_refl _, hlt, hnone, rfl⟩
    · obtain ⟨n, hn, last, hle, hlast, hnone, hagain⟩ := ih hmore.2 (by omega)
      refine ⟨n + 1, by omega, last, by omega, hlast, hnone, ?_⟩
      rw [again, expand_span path start hlt]
      exact hagain

end

/-- **When a definition is complete.** Expanding its span again gives the same definition exactly if
its last line does not end with an opening bracket that is closed further down. If it does, then the
definition had already been continued through one group, expanding it again adds lines behind its
text, and repeating this gives a complete definition after at most as many rounds as there are lines
below. -/
theorem expansion_closed_iff (path text : String) (outline : Option Outline) (location : Location)
    (body : String) (span : Location) (horder : location.range.start ≤ location.range.stop)
    (h : expand path text outline location = .ok (body, span)) :
    (expand path text none span = .ok (body, span) ↔
      ¬ OpensFurther (Text.lines text) span.range.stop.line) ∧
    (OpensFurther (Text.lines text) span.range.stop.line →
      OpensFurther (Text.lines text) (around outline location.range).stop.line ∧
      (around outline location.range).stop.line < span.range.stop.line ∧
      ∃ longer span', expand path text none span = .ok (longer, span') ∧
        span'.range.start = span.range.start ∧ span.range.stop.line < span'.range.stop.line ∧
        body.toList <+: longer.toList) ∧
    ∃ n ≤ (Text.lines text).length - (span.range.stop.line + 1), ∃ result,
      again path text n (body, span) = .ok result ∧
      expand path text none result.2 = .ok result ∧
      result.2.range.start = span.range.start ∧ body.toList <+: result.1.toList := by
  obtain ⟨hlt, hresult⟩ := exists_upTo h
  have hlines : location.range.start.line ≤ location.range.stop.line := by
    rw [Position.le_iff] at horder
    omega
  obtain ⟨hstart, hstop⟩ := around_lines outline hlines
  generalize around outline location.range = r at *
  obtain ⟨hafter, hin⟩ := continued_lt hlt
  have hfirst : r.start.line ≤ (continued (Text.lines text) r.stop).line := by omega
  obtain ⟨rfl, rfl⟩ := Prod.mk.inj hresult
  refine ⟨expand_span_iff path _ hin, fun hopens => ?_, ?_⟩
  · have hcontinued : OpensFurther (Text.lines text) r.stop.line ∧
        r.stop.line < (continued (Text.lines text) r.stop).line := by
      rcases continued_cases (Text.lines text) r.stop with ⟨hnone, hsame⟩ | ⟨hr, hmore, -⟩
      · exact absurd (hsame ▸ hopens) hnone
      · exact ⟨hr, hmore⟩
    refine ⟨hcontinued.1, hcontinued.2, _, _, expand_span path _ hin, rfl, ?_⟩
    rcases continued_cases (Text.lines text) (continued (Text.lines text) r.stop) with
      ⟨hnone, -⟩ | ⟨-, hmore, -⟩
    · exact absurd hopens hnone
    · exact ⟨hmore, upTo_prefix path hfirst (Nat.le_of_lt hmore)⟩
  · obtain ⟨n, hn, last, hle, hlast, hnone, hagain⟩ :=
      exists_complete path r.start.line _ hin (Nat.le_of_eq (Nat.add_sub_of_le hin).symm)
    exact ⟨n, hn, _, hagain, (expand_span_iff path _ hlast).2 hnone, rfl,
      upTo_prefix path hfirst hle⟩

/-- Two groups in a row: the end of the first opens the second, which is reached in another
round. -/
theorem expansion_closed_iff_two_groups :
    let text := "f(\na) \x7b\n\x7d\n"
    let found : Location := ⟨"/f.c", ⟨⟨0, 0⟩, ⟨0, 1⟩⟩⟩
    let span : Location := ⟨"/f.c", ⟨⟨0, 0⟩, ⟨1, 2⟩⟩⟩
    expand "/f.c" text none found = .ok ("f(\na) \x7b", span) ∧
      OpensFurther (Text.lines text) 1 ∧
      expand "/f.c" text none span ≠ .ok ("f(\na) \x7b", span) ∧
      ∃ n ≤ 1, ∃ result, again "/f.c" text n ("f(\na) \x7b", span) = .ok result ∧
        expand "/f.c" text none result.2 = .ok result := by
  intro text found span
  have hexpand : expand "/f.c" text none found = .ok ("f(\na) \x7b", span) := by
    unfold text
    rfl
  have hopens : OpensFurther (Text.lines text) 1 := by
    refine opensFurther_iff.2 ⟨⟨2, 1⟩, ?_⟩
    unfold text
    rfl
  have hbelow : (Text.lines text).length - (span.range.stop.line + 1) = 1 := by decide
  obtain ⟨hiff, -, n, hn, result, hagain, hclosed, -⟩ :=
    expansion_closed_iff "/f.c" text none found _ span (by decide) hexpand
  rw [hbelow] at hn
  exact ⟨hexpand, hopens, fun hsame => hiff.1 hsame hopens, n, hn, result, hagain, hclosed⟩

/-- A wrapped list of parameters and a body: the definition ends where the list does, and expanding
its span again goes on to the end of the body. -/
theorem not_closed_two_groups :
    let text := "int f(\n  int a) \x7b\n  return a;\n\x7d\n"
    let found : Location := ⟨"/f.c", ⟨⟨0, 4⟩, ⟨0, 5⟩⟩⟩
    let body := "int f(\n  int a) \x7b"
    let span : Location := ⟨"/f.c", ⟨⟨0, 0⟩, ⟨1, 8⟩⟩⟩
    let whole : Location := ⟨"/f.c", ⟨⟨0, 0⟩, ⟨3, 1⟩⟩⟩
    found.range.start ≤ found.range.stop ∧
      expand "/f.c" text none found = .ok (body, span) ∧
      expand "/f.c" text none span = .ok (body ++ "\n  return a;\n\x7d", whole) ∧
      expand "/f.c" text none span ≠ .ok (body, span) := by
  intro text found body span whole
  have hagain : expand "/f.c" text none span = .ok (body ++ "\n  return a;\n\x7d", whole) := by
    unfold text
    rfl
  have hexpand : expand "/f.c" text none found = .ok (body, span) := by
    unfold text
    rfl
  refine ⟨by decide, hexpand, hagain, fun hsame => ?_⟩
  have hspan := congrArg Prod.snd (Except.ok.inj (hsame.symm.trans hagain))
  revert hspan
  decide

end Definition

end SymbolContext
