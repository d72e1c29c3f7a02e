import SymbolContext.Frame

/-!
# A stream of frames, however it arrives

The octets of a stream arrive in pieces. After each piece the decoder takes off what has arrived
whole, up to an error (`Decoder.receive`).

* `next_feed`, `next_feed_of_none`: what arrives later does not change what has been read. **A
  message or an error that is there stays with more octets behind it**, and a decoder that waits
  can be asked again from where it stands.
* `drain_feed`: draining before more octets arrive, and again after, is draining once.
* `pieces_read_as_whole`: so **the cuts between the pieces cannot be seen** in the messages, in the
  error, or in the decoder that is left.
-/

namespace SymbolContext.Frame

/-! ## The empty line -/

theorem eq_of_cutHeader? {bytes header rest : List UInt8}
    (h : cutHeader? bytes = some (header, rest)) :
    bytes = header ++ 13 :: 10 :: 13 :: 10 :: rest := by
  fun_induction cutHeader? bytes generalizing header rest with
  | case1 tail =>
    obtain ⟨rfl, rfl⟩ := Prod.mk.inj (Option.some.inj h)
    rfl
  | case2 b tail _ ih =>
    obtain ⟨⟨front, behind⟩, hcut, heq⟩ := Option.map_eq_some_iff.1 h
    obtain ⟨rfl, rfl⟩ := Prod.mk.inj heq
    rw [ih hcut, List.cons_append]
  | case3 => cases h

theorem cutHeader?_append {bytes header rest : List UInt8}
    (h : cutHeader? bytes = some (header, rest)) (more : List UInt8) :
    cutHeader? (bytes ++ more) = some (header, rest ++ more) := by
  fun_induction cutHeader? bytes generalizing header rest with
  | case1 tail =>
    obtain ⟨rfl, rfl⟩ := Prod.mk.inj (Option.some.inj h)
    rfl
  | case2 b tail hsep ih =>
    obtain ⟨⟨front, behind⟩, hcut, heq⟩ := Option.map_eq_some_iff.1 h
    obtain ⟨rfl, rfl⟩ := Prod.mk.inj heq
    rw [List.cons_append, cutHeader?]
    · rw [ih hcut]
      rfl
    · -- an empty line that begins here lies in the octets that were there, which are long enough
      rintro rest' rfl hmore
      have hlen : 4 ≤ tail.length := by
        rw [eq_of_cutHeader? hcut, List.length_append]
        simp only [List.length_cons]
        omega
      obtain ⟨x, y, z, tail', rfl⟩ : ∃ x y z tail', tail = x :: y :: z :: tail' := by
        match tail, hlen with
        | x :: y :: z :: tail', _ => exact ⟨x, y, z, tail', rfl⟩
      simp only [List.cons_append, List.cons.injEq] at hmore
      obtain ⟨rfl, rfl, rfl, -⟩ := hmore
      exact hsep tail' rfl rfl
  | case3 => cases h

namespace Decoder

/-! ## One message, with more octets behind it -/

@[simp] theorem feed_nil (d : Decoder) : d.feed [] = d := by simp [feed]

theorem feed_fresh (bytes : List UInt8) : feed {} bytes = ⟨bytes, none⟩ := rfl

@[simp] theorem feed_feed (d : Decoder) (a b : List UInt8) :
    (d.feed a).feed b = d.feed (a ++ b) := by
  simp [feed]

/-- A body that is there is read as it is, whatever follows it. -/
theorem takeBody_feed {d rest : Decoder} {n : Nat} {r : Except Error (Option String)}
    (h : d.takeBody n = (r, rest)) (hr : r ≠ .ok none) (more : List UInt8) :
    (d.feed more).takeBody n = (r, rest.feed more) := by
  unfold takeBody at h ⊢
  by_cases hlen : d.buffer.length < n
  · rw [if_pos hlen] at h
    exact absurd (Prod.mk.inj h).1.symm hr
  · rw [if_neg hlen] at h
    have hn : n ≤ d.buffer.length := Nat.le_of_not_lt hlen
    have hmore : ¬ (d.feed more).buffer.length < n := by
      simp only [feed, List.length_append]
      omega
    have htake : (d.feed more).buffer.take n = d.buffer.take n := List.take_append_of_le_length hn
    have hdrop : (d.feed more).buffer.drop n = d.buffer.drop n ++ more :=
      List.drop_append_of_le_length hn
    rw [if_neg hmore, htake, hdrop]
    dsimp only at h ⊢
    cases hbody : Utf8.decode? (d.buffer.take n) with
    | some body =>
      rw [hbody] at h
      obtain ⟨rfl, rfl⟩ := Prod.mk.inj h
      rfl
    | none =>
      rw [hbody] at h
      obtain ⟨rfl, rfl⟩ := Prod.mk.inj h
      rfl

/-- A body that is not there yet leaves all octets and is due. -/
theorem takeBody_of_none {d rest : Decoder} {n : Nat} (h : d.takeBody n = (.ok none, rest)) :
    rest = ⟨d.buffer, some n⟩ := by
  unfold takeBody at h
  split at h
  · exact (Prod.mk.inj h).2.symm
  · dsimp only at h
    split at h
    · exact absurd (Prod.mk.inj h).1 (by simp)
    · exact absurd (Prod.mk.inj h).1 (by simp)

theorem next_of_due {d : Decoder} {n : Nat} (h : d.due = some n) : d.next = d.takeBody n := by
  unfold next
  rw [h]

theorem next_of_header {d : Decoder} {header rest : List UInt8} {n : Nat} (hdue : d.due = none)
    (hcut : cutHeader? d.buffer = some (header, rest)) (hlen : bodyLength header = .ok n) :
    d.next = takeBody ⟨rest, none⟩ n := by
  simp only [next, hdue, hcut, hlen]

theorem next_of_badHeader {d : Decoder} {header rest : List UInt8} {e : Error} (hdue : d.due = none)
    (hcut : cutHeader? d.buffer = some (header, rest)) (hlen : bodyLength header = .error e) :
    d.next = (.error e, d) := by
  simp only [next, hdue, hcut, hlen]

/-- **What a decoder can be at**: a body that is due, a header that is not there yet, one that is
refused, or one that gives a length. -/
theorem next_cases (d : Decoder) :
    (∃ n, d.due = some n ∧ d.next = d.takeBody n) ∨
    (d.due = none ∧ d.next = (.ok none, d)) ∨
    (∃ header rest e, d.due = none ∧ cutHeader? d.buffer = some (header, rest) ∧
      bodyLength header = .error e ∧ d.next = (.error e, d)) ∨
    (∃ header rest n, d.due = none ∧ cutHeader? d.buffer = some (header, rest) ∧
      bodyLength header = .ok n ∧ d.next = takeBody ⟨rest, none⟩ n) := by
  cases hdue : d.due with
  | some n => exact .inl ⟨n, rfl, next_of_due hdue⟩
  | none =>
    cases hcut : cutHeader? d.buffer with
    | none => exact .inr (.inl ⟨rfl, by simp only [next, hdue, hcut]⟩)
    | some p =>
      obtain ⟨header, rest⟩ := p
      cases hlen : bodyLength header with
      | error e =>
        exact .inr (.inr (.inl ⟨header, rest, e, rfl, rfl, hlen, next_of_badHeader hdue hcut hlen⟩))
      | ok n =>
        exact .inr (.inr (.inr ⟨header, rest, n, rfl, rfl, hlen, next_of_header hdue hcut hlen⟩))

/-- **A message or an error that is there stays with more octets behind it.** -/
theorem next_feed {d rest : Decoder} {r : Except Error (Option String)} (h : d.next = (r, rest))
    (hr : r ≠ .ok none) (more : List UInt8) : (d.feed more).next = (r, rest.feed more) := by
  rcases d.next_cases with ⟨n, hdue, hn⟩ | ⟨-, hn⟩ | ⟨header, tail, e, hdue, hcut, hlen, hn⟩ |
    ⟨header, tail, n, hdue, hcut, hlen, hn⟩
  · have hdue' : (d.feed more).due = some n := hdue
    rw [next_of_due hdue']
    exact takeBody_feed (hn.symm.trans h) hr more
  · rw [hn] at h
    exact absurd (Prod.mk.inj h).1.symm hr
  · rw [hn] at h
    obtain ⟨rfl, rfl⟩ := Prod.mk.inj h
    exact next_of_badHeader hdue (cutHeader?_append hcut more) hlen
  · rw [next_of_header (d := d.feed more) hdue (cutHeader?_append hcut more) hlen]
    exact takeBody_feed (hn.symm.trans h) hr more

/-- **A decoder that waits can be asked again from where it stands.** -/
theorem next_feed_of_none {d rest : Decoder} (h : d.next = (.ok none, rest)) (more : List UInt8) :
    (rest.feed more).next = (d.feed more).next := by
  rcases d.next_cases with ⟨n, hdue, hn⟩ | ⟨-, hn⟩ | ⟨header, tail, e, -, -, -, hn⟩ |
    ⟨header, tail, n, hdue, hcut, hlen, hn⟩
  · obtain rfl := takeBody_of_none (hn.symm.trans h)
    rw [next_of_due (d := feed _ more) rfl, next_of_due (d := d.feed more) hdue]
    rfl
  · rw [hn] at h
    rw [(Prod.mk.inj h).2]
  · rw [hn] at h
    cases (Prod.mk.inj h).1
  · -- the header has been taken off, and its length is due
    obtain rfl := takeBody_of_none (hn.symm.trans h)
    rw [next_of_due (d := feed _ more) rfl,
      next_of_header (d := d.feed more) hdue (cutHeader?_append hcut more) hlen]
    rfl

/-- A decoder that waits and is asked again without more octets waits as it is. -/
theorem next_of_none {d rest : Decoder} (h : d.next = (.ok none, rest)) :
    rest.next = (.ok none, rest) := by
  have hasked := next_feed_of_none h []
  rw [feed_nil, feed_nil] at hasked
  exact hasked.trans h

/-! ## All messages that have arrived -/

theorem drain_eq (d : Decoder) :
    d.drain = match d.next with
      | (.ok (some body), rest) => (body :: rest.drain.1, rest.drain.2)
      | (.ok none, rest) => ([], none, rest)
      | (.error e, rest) => ([], some e, rest) := by
  rw [drain]
  split <;> rename_i heq <;> rw [heq]

theorem drain_of_some {d rest : Decoder} {body : String} (h : d.next = (.ok (some body), rest)) :
    d.drain = (body :: rest.drain.1, rest.drain.2) := by rw [drain_eq, h]

theorem drain_of_none {d rest : Decoder} (h : d.next = (.ok none, rest)) :
    d.drain = ([], none, rest) := by rw [drain_eq, h]

theorem drain_of_error {d rest : Decoder} {e : Error} (h : d.next = (.error e, rest)) :
    d.drain = ([], some e, rest) := by rw [drain_eq, h]

/-- Draining a decoder that waits from where it stands. -/
theorem drain_feed_of_none {d rest : Decoder} (h : d.next = (.ok none, rest)) (more : List UInt8) :
    (rest.feed more).drain = (d.feed more).drain := by
  rw [drain_eq, drain_eq (d.feed more), next_feed_of_none h]

/-- **Draining before more octets arrive, and again after, is draining once**, up to an error. -/
theorem drain_feed (d : Decoder) (more : List UInt8) :
    (d.feed more).drain = match d.drain with
      | (bodies, none, left) =>
        (bodies ++ (left.feed more).drain.1, (left.feed more).drain.2)
      | (bodies, some e, left) => (bodies, some e, left.feed more) := by
  induction hw : d.weight using Nat.strongRecOn generalizing d with
  | _ w ih =>
    match hd : d.next with
    | (.ok (some body), rest) =>
      have hrest := ih rest.weight (hw ▸ weight_next hd) rest rfl
      rw [drain_of_some hd, drain_of_some (next_feed hd (by simp) more), hrest]
      match rest.drain with
      | (bodies, none, left) => rfl
      | (bodies, some e, left) => rfl
    | (.ok none, rest) =>
      rw [drain_of_none hd, ← drain_feed_of_none hd]
      rfl
    | (.error e, rest) => rw [drain_of_error hd, drain_of_error (next_feed hd (by simp) more)]

/-- A decoder that has been drained without an error waits. -/
theorem next_of_drain {d left : Decoder} {bodies : List String}
    (h : d.drain = (bodies, none, left)) : left.next = (.ok none, left) := by
  induction hw : d.weight using Nat.strongRecOn generalizing d bodies with
  | _ w ih =>
    match hd : d.next with
    | (.ok (some body), rest) =>
      rw [drain_of_some hd] at h
      obtain ⟨-, hrest⟩ := Prod.mk.inj h
      exact ih rest.weight (hw ▸ weight_next hd) (Prod.ext rfl hrest) rfl
    | (.ok none, rest) =>
      rw [drain_of_none hd] at h
      cases h
      exact next_of_none hd
    | (.error e, rest) =>
      rw [drain_of_error hd] at h
      cases h

/-! ## Pieces -/

/-- Drain the decoder after each of some pieces, and stop at the first error. -/
def receive (d : Decoder) : List (List UInt8) → List String × Option Error × Decoder
  | [] => ([], none, d)
  | piece :: rest =>
    match (d.feed piece).drain with
    | (bodies, none, left) => (bodies ++ (left.receive rest).1, (left.receive rest).2)
    | (bodies, some e, left) => (bodies, some e, left)

/-- What a decoder that waits makes of some pieces: the same messages and error as of all of them
at once, and the same decoder if there is no error. -/
theorem receive_eq {d : Decoder} (hd : d.next = (.ok none, d)) (pieces : List (List UInt8)) :
    (d.receive pieces).1 = (d.feed pieces.flatten).drain.1 ∧
      (d.receive pieces).2.1 = (d.feed pieces.flatten).drain.2.1 ∧
      ((d.receive pieces).2.1 = none →
        (d.receive pieces).2.2 = (d.feed pieces.flatten).drain.2.2) := by
  induction pieces generalizing d with
  | nil =>
    rw [List.flatten_nil, feed_nil, drain_of_none hd]
    exact ⟨rfl, rfl, fun _ => rfl⟩
  | cons piece rest ih =>
    rw [List.flatten_cons, ← feed_feed, drain_feed, receive]
    match hdrain : (d.feed piece).drain with
    | (bodies, none, left) =>
      obtain ⟨hbodies, herror, hleft⟩ := ih (next_of_drain hdrain)
      refine ⟨?_, herror, hleft⟩
      dsimp only
      rw [hbodies]
    | (bodies, some e, left) => exact ⟨rfl, rfl, fun h => by cases h⟩

/-- **Framing does not depend on how the stream is cut.** -/
theorem pieces_read_as_whole (pieces : List (List UInt8)) :
    let cut := receive {} pieces
    let whole := (feed {} pieces.flatten).drain
    cut.1 = whole.1 ∧ cut.2.1 = whole.2.1 ∧ (whole.2.1 = none → cut.2.2 = whole.2.2) := by
  have hfresh : next {} = (.ok none, {}) := rfl
  obtain ⟨hbodies, herror, hleft⟩ := receive_eq hfresh pieces
  exact ⟨hbodies, herror, fun h => hleft (herror.trans h)⟩

/-- Cuts in the name, in the empty line and in a character, with the start of a frame behind. -/
theorem pieces_read_as_whole_cut :
    let stream := Frame.encode "é" ++ Utf8.encode "Content-Length: 7\r\n\r\nab"
    let pieces := [stream.take 5, (stream.drop 5).take 13, (stream.drop 18).take 4, stream.drop 22]
    pieces.flatten = stream ∧ receive {} pieces = (["é"], none, ⟨[97, 98], some 7⟩) := by
  intro stream pieces
  have hflat : pieces.flatten = stream := by decide
  have hwhole : (feed {} pieces.flatten).drain = (["é"], none, ⟨[97, 98], some 7⟩) := by
    have hfirst : (feed {} pieces.flatten).next =
        (.ok (some "é"), ⟨Utf8.encode "Content-Length: 7\r\n\r\nab", none⟩) := rfl
    have hsecond : next ⟨Utf8.encode "Content-Length: 7\r\n\r\nab", none⟩ =
        (.ok none, ⟨[97, 98], some 7⟩) := rfl
    rw [drain_of_some hfirst, drain_of_none hsecond]
  obtain ⟨hbodies, herror, hleft⟩ := pieces_read_as_whole pieces
  rw [hwhole] at hbodies herror hleft
  exact ⟨hflat, Prod.ext hbodies (Prod.ext herror (hleft rfl))⟩

end Decoder

end SymbolContext.Frame
