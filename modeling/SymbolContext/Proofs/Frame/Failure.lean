import SymbolContext.Proofs.Frame.Stream
import SymbolContext.Proofs.Text.Utf8

/-!
# What a call leaves behind

A call of the decoder gives a message, an error, or neither. What it has taken off the stream is
said in terms of the stream alone: the header ends at the first empty line (`IsCut`), and what
stands in front of a body is a header that gives its length, unless that has been taken off before
(`InFront`).

* `cutHeader?_eq_some_iff`: the decoder looks for the first empty line.
* `next_outcome`: **what can come of a call**, and what it takes off in each case.
* `answers_of_error`, `answers_of_none`: a header that is refused is refused for ever, and a call
  that gives nothing leaves no trace in the answers to later ones.
* `next_leaves_stream`: what is left behind a call that gives no message.
-/

namespace SymbolContext.Frame

/-- The end of the last header line, and an empty line. -/
def emptyLine : List UInt8 := [13, 10, 13, 10]

/-- The octets are a header, an empty line and a rest, and no empty line begins earlier. -/
structure IsCut (bytes header rest : List UInt8) : Prop where
  eq : bytes = header ++ emptyLine ++ rest
  first : ∀ front back, bytes = front ++ emptyLine ++ back → header.length ≤ front.length

theorem IsCut.unique {bytes header header' rest rest' : List UInt8} (h : IsCut bytes header rest)
    (h' : IsCut bytes header' rest') : header = header' ∧ rest = rest' := by
  have hlen : header.length = header'.length :=
    Nat.le_antisymm (h.first _ _ h'.eq) (h'.first _ _ h.eq)
  have heq := h.eq.symm.trans h'.eq
  rw [List.append_assoc, List.append_assoc] at heq
  obtain ⟨hheader, htail⟩ := List.append_inj heq hlen
  exact ⟨hheader, List.append_cancel_left htail⟩

/-- Where there is an empty line, the octets are cut there or before. -/
theorem exists_cutHeader? (front back : List UInt8) :
    ∃ header rest, cutHeader? (front ++ emptyLine ++ back) = some (header, rest) ∧
      header.length ≤ front.length := by
  induction front with
  | nil => exact ⟨[], back, rfl, Nat.le_refl _⟩
  | cons b front ih =>
    obtain ⟨header, rest, hcut, hlen⟩ := ih
    by_cases hhere : ∃ tail, b :: (front ++ emptyLine ++ back) = 13 :: 10 :: 13 :: 10 :: tail
    · obtain ⟨tail, htail⟩ := hhere
      refine ⟨[], tail, ?_, Nat.zero_le _⟩
      rw [List.cons_append, List.cons_append, htail, cutHeader?]
    · refine ⟨b :: header, rest, ?_, Nat.succ_le_succ hlen⟩
      rw [List.cons_append, List.cons_append, cutHeader?, hcut]
      · rfl
      · intro tail hb htail
        exact hhere ⟨tail, by rw [hb, htail]⟩

theorem isCut_of_cutHeader? {bytes header rest : List UInt8}
    (h : cutHeader? bytes = some (header, rest)) : IsCut bytes header rest := by
  refine ⟨?_, ?_⟩
  · rw [List.append_assoc]
    exact eq_of_cutHeader? h
  · rintro front back rfl
    obtain ⟨header', rest', hcut, hlen⟩ := exists_cutHeader? front back
    obtain ⟨rfl, rfl⟩ := Prod.mk.inj (Option.some.inj (h.symm.trans hcut))
    exact hlen

/-- **The decoder looks for the first empty line.** -/
theorem cutHeader?_eq_some_iff {bytes header rest : List UInt8} :
    cutHeader? bytes = some (header, rest) ↔ IsCut bytes header rest := by
  refine ⟨isCut_of_cutHeader?, fun h => ?_⟩
  obtain ⟨header', rest', hcut, -⟩ := exists_cutHeader? header rest
  rw [← h.eq] at hcut
  obtain ⟨rfl, rfl⟩ := h.unique (isCut_of_cutHeader? hcut)
  exact hcut

namespace Decoder

/-- What stands in front of the next body, and the length of this body: nothing if the header has
been taken off before, and else a header that gives the length, with its empty line. -/
inductive InFront (d : Decoder) : List UInt8 → Nat → Prop where
  | read {n : Nat} (hdue : d.due = some n) : InFront d [] n
  | header {header rest : List UInt8} {n : Nat} (hdue : d.due = none)
      (hcut : IsCut d.buffer header rest) (hlen : bodyLength header = .ok n) :
      InFront d (header ++ emptyLine) n

/-- The answers to calls in a row, each made after some more octets have arrived. -/
def answers (d : Decoder) : List (List UInt8) → List (Except Error (Option String))
  | [] => []
  | piece :: pieces => (d.feed piece).next.1 :: (d.feed piece).next.2.answers pieces

/-! ## One call -/

/-- A body of `n` octets is not there yet, or it is taken off. -/
theorem takeBody_cases (d : Decoder) (n : Nat) :
    (d.buffer.length < n ∧ d.takeBody n = (.ok none, ⟨d.buffer, some n⟩)) ∨
    ∃ body rest, d.buffer = body ++ rest ∧ body.length = n ∧
      d.takeBody n = (match Utf8.decode? body with
        | some text => .ok (some text)
        | none => .error .notUtf8, feed {} rest) := by
  unfold takeBody
  by_cases hlen : d.buffer.length < n
  · exact .inl ⟨hlen, by rw [if_pos hlen]⟩
  · refine .inr ⟨d.buffer.take n, d.buffer.drop n, (List.take_append_drop n _).symm, ?_, ?_⟩
    · rw [List.length_take]
      omega
    · rw [if_neg hlen, feed_fresh]
      cases Utf8.decode? (d.buffer.take n) <;> rfl

theorem next_of_inFront {d : Decoder} {front rest : List UInt8} {n : Nat} (h : d.InFront front n)
    (hbuffer : d.buffer = front ++ rest) : d.next = takeBody ⟨rest, d.due⟩ n := by
  cases h with
  | read hdue =>
    obtain ⟨buffer, due⟩ := d
    obtain rfl : buffer = rest := hbuffer
    exact next_of_due hdue
  | header hdue hcut hlen =>
    rename_i header rest'
    obtain rfl : rest' = rest := List.append_cancel_left (hcut.eq.symm.trans hbuffer)
    rw [next_of_header hdue (cutHeader?_eq_some_iff.2 hcut) hlen, hdue]

/-- **What can come of a call**: there is no whole header, or one that is refused, or there is a
header and its body is not whole, or it is and is taken off. -/
theorem next_outcome (d : Decoder) :
    (d.due = none ∧ d.next = (.ok none, d)) ∨
    (∃ header rest e, d.due = none ∧ IsCut d.buffer header rest ∧ bodyLength header = .error e ∧
      d.next = (.error e, d)) ∨
    (∃ front rest n, d.InFront front n ∧ d.buffer = front ++ rest ∧ rest.length < n ∧
      d.next = (.ok none, ⟨rest, some n⟩)) ∨
    ∃ front body rest, d.InFront front body.length ∧ d.buffer = front ++ (body ++ rest) ∧
      d.next = (match Utf8.decode? body with
        | some text => .ok (some text)
        | none => .error .notUtf8, feed {} rest) := by
  -- the last two cases differ in whether the body is whole
  have hinFront : ∀ front rest n, d.InFront front n → d.buffer = front ++ rest →
      (∃ front rest n, d.InFront front n ∧ d.buffer = front ++ rest ∧ rest.length < n ∧
        d.next = (.ok none, ⟨rest, some n⟩)) ∨
      ∃ front body rest, d.InFront front body.length ∧ d.buffer = front ++ (body ++ rest) ∧
        d.next = (match Utf8.decode? body with
          | some text => .ok (some text)
          | none => .error .notUtf8, feed {} rest) := by
    intro front rest n hfront hbuffer
    have hnext := next_of_inFront hfront hbuffer
    rcases takeBody_cases ⟨rest, d.due⟩ n with ⟨hlen, hbody⟩ | ⟨body, behind, heq, rfl, hbody⟩
    · exact .inl ⟨front, rest, n, hfront, hbuffer, hlen, hnext.trans hbody⟩
    · obtain rfl : rest = body ++ behind := heq
      exact .inr ⟨front, body, behind, hfront, hbuffer, hnext.trans hbody⟩
  rcases d.next_cases with ⟨n, hdue, -⟩ | hwait | ⟨header, rest, e, hdue, hcut, hlen, hn⟩ |
    ⟨header, rest, n, hdue, hcut, hlen, -⟩
  · exact .inr (.inr (hinFront [] d.buffer n (.read hdue) rfl))
  · exact .inl hwait
  · exact .inr (.inl ⟨header, rest, e, hdue, cutHeader?_eq_some_iff.1 hcut, hlen, hn⟩)
  · have hcut := cutHeader?_eq_some_iff.1 hcut
    exact .inr (.inr (hinFront (header ++ emptyLine) rest n (.header hdue hcut hlen) hcut.eq))

/-! ## Calls in a row -/

theorem bodyLength_ne_notUtf8 (header : List UInt8) : bodyLength header ≠ .error .notUtf8 := by
  unfold bodyLength
  split
  · simp
  · split
    · simp
    · split <;> simp

/-- **A header that is refused stays, and is refused for ever.** -/
theorem answers_of_error {d : Decoder} {e : Error} (h : d.next = (.error e, d))
    (pieces : List (List UInt8)) :
    d.answers pieces = List.replicate pieces.length (.error e) := by
  induction pieces generalizing d with
  | nil => rfl
  | cons piece pieces ih =>
    have hfed : (d.feed piece).next = (.error e, d.feed piece) := next_feed h (by simp) piece
    rw [answers, hfed, ih hfed]
    rfl

/-- After a call that gives neither a message nor an error, calls are answered as if it had not
been made. -/
theorem answers_of_none {d left : Decoder} (h : d.next = (.ok none, left))
    (pieces : List (List UInt8)) : left.answers pieces = d.answers pieces := by
  cases pieces with
  | nil => rfl
  | cons piece pieces => rw [answers, answers, next_feed_of_none h]

/-- **What a call leaves behind when it gives no message.** A header that is refused stays where it
is, and all later calls give the same error. A body that is no text is taken off with what stands in
front of it, and the decoder is then a fresh one with the rest of the stream. A call that gives
neither has taken nothing off, or one valid header, whose length is then due, and later calls are
answered as if it had not been made. -/
theorem next_leaves_stream (d : Decoder) :
    (∀ e, d.next.1 = .error e → e ≠ .notUtf8 →
      (∃ header rest, IsCut d.buffer header rest ∧ bodyLength header = .error e) ∧
      d.due = none ∧ d.next.2 = d ∧
      ∀ pieces, d.next.2.answers pieces = List.replicate pieces.length (.error e)) ∧
    (d.next.1 = .error .notUtf8 →
      ∃ front body rest, d.InFront front body.length ∧ d.buffer = front ++ (body ++ rest) ∧
        (∀ text, Utf8.encode text ≠ body) ∧ d.next.2 = feed {} rest) ∧
    (d.next.1 = .ok none →
      (d.next.2 = d ∨
        ∃ header n, d.due = none ∧ IsCut d.buffer header d.next.2.buffer ∧
          bodyLength header = .ok n ∧ d.next.2.due = some n) ∧
      ∀ pieces, d.next.2.answers pieces = d.answers pieces) := by
  rcases d.next_outcome with ⟨-, hn⟩ | ⟨header, rest, e, hdue, hcut, hlen, hn⟩ |
    ⟨front, rest, n, hfront, hbuffer, -, hn⟩ | ⟨front, body, rest, hfront, hbuffer, hn⟩
  · have hanswers := answers_of_none hn
    rw [hn]
    exact ⟨fun e h => (by cases h), fun h => (by cases h), fun _ => ⟨.inl rfl, hanswers⟩⟩
  · have hanswers := answers_of_error hn
    rw [hn]
    refine ⟨fun e' h _ => ?_, fun h => ?_, fun h => (by cases h)⟩
    · cases h
      exact ⟨⟨header, rest, hcut, hlen⟩, hdue, rfl, hanswers⟩
    · cases h
      exact absurd hlen (bodyLength_ne_notUtf8 header)
  · have hanswers := answers_of_none hn
    rw [hn]
    refine ⟨fun e h => (by cases h), fun h => (by cases h), fun _ => ⟨?_, hanswers⟩⟩
    cases hfront with
    | read hdue =>
      left
      obtain rfl : d.buffer = rest := hbuffer
      rw [← hdue]
    | header hdue hcut hlen =>
      rename_i header behind
      obtain rfl : behind = rest := List.append_cancel_left (hcut.eq.symm.trans hbuffer)
      exact .inr ⟨header, n, hdue, hcut, hlen, rfl⟩
  · rw [hn]
    cases hbody : Utf8.decode? body with
    | some text => exact ⟨fun e h => (by cases h), fun h => (by cases h), fun h => (by cases h)⟩
    | none =>
      refine ⟨fun e h he => ?_, fun _ => ⟨front, body, rest, hfront, hbuffer, ?_, rfl⟩,
        fun h => (by cases h)⟩
      · cases h
        exact absurd rfl he
      · rintro text rfl
        rw [Utf8.decode?_encode] at hbody
        cases hbody

/-- A length that is too large, a body that is half a character before the next frame, and a header
whose body is still to come. -/
theorem next_leaves_stream_each :
    (∀ pieces, (feed {} (Utf8.encode "Content-Length: 999999999\r\n\r\n")).answers pieces =
      List.replicate pieces.length (.error (.tooLarge 999999999))) ∧
    (next (feed {} (Utf8.encode "Content-Length: 1\r\n\r\n" ++ 0xC3 :: Frame.encode "a"))).2 =
      feed {} (Frame.encode "a") ∧
    (next (feed {} (Utf8.encode "Content-Length: 3\r\n\r\nab"))).2 = ⟨[97, 98], some 3⟩ := by
  refine ⟨?_, ?_, rfl⟩
  · have hnext : (next (feed {} (Utf8.encode "Content-Length: 999999999\r\n\r\n"))).1 =
        .error (.tooLarge 999999999) := rfl
    obtain ⟨-, -, hsame, hanswers⟩ := (next_leaves_stream _).1 _ hnext (by simp)
    rwa [hsame] at hanswers
  · have hnext : (next (feed {} (Utf8.encode "Content-Length: 1\r\n\r\n" ++
        0xC3 :: Frame.encode "a"))).1 = .error .notUtf8 := rfl
    obtain ⟨front, body, rest, -, -, -, hleft⟩ := (next_leaves_stream _).2.1 hnext
    have hrest : (feed {} rest).buffer = Frame.encode "a" := hleft ▸ rfl
    rw [hleft, feed_fresh, ← hrest]
    rfl

end Decoder

end SymbolContext.Frame
