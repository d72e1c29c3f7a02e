import SymbolContext.Proofs.Frame.Failure
import SymbolContext.Proofs.Frame.RoundTrip
import SymbolContext.Proofs.Text.Lossy

/-!
# The grammar of headers

A header is told by its lines, which are any octets. Only the first line that gives the length
counts (`First`), whatever stands in the others.

* `cutHeader?_wire`: the lines of a header are cut off whole, since no two ends of lines touch.
* `headerLines_lossy`: **reading and cutting into lines can be done in either order.**
* `findSome?_eq_some_iff`: the decoder takes the first line that gives the length.
* `header_grammar`: the verdict on a header.
-/

namespace SymbolContext.Frame

/-- The end of a line. -/
def lineEnd : List UInt8 := [13, 10]

/-- A line is not empty, and has no end of a line in it. -/
structure IsLine (line : List UInt8) : Prop where
  ne_nil : line ≠ []
  whole : ¬ lineEnd <:+: line

/-- The lines of a header on the wire. -/
def wire (lines : List (List UInt8)) : List UInt8 := lineEnd.intercalate lines

/-- A line gives the length: what stands before its first colon is the name of the length, in any
case and with white space around it, and the value is what stands behind. -/
def GivesLength (line : List UInt8) (value : List Char) : Prop :=
  ∃ name rest, line = name ++ 58 :: rest ∧ 58 ∉ name ∧
    (Text.trim (Utf8.decodeLossy name).toList).map Char.toLower = "content-length".toList ∧
    Text.trim (Utf8.decodeLossy rest).toList = value

/-- The first line that gives the length gives this value. -/
def First (lines : List (List UInt8)) (value : List Char) : Prop :=
  ∃ before line after, lines = before ++ line :: after ∧
    (∀ l ∈ before, ∀ v, ¬ GivesLength l v) ∧ GivesLength line value

theorem wire_cons (line line' : List UInt8) (lines : List (List UInt8)) :
    wire (line :: line' :: lines) = line ++ 13 :: 10 :: wire (line' :: lines) := rfl

theorem wire_singleton (line : List UInt8) : wire [line] = line := by
  simp [wire, List.intercalate]

/-! ## Cutting the header off -/

theorem cutHeader?_cons {b : UInt8} {bytes : List UInt8}
    (h : ∀ rest, b :: bytes ≠ 13 :: 10 :: 13 :: 10 :: rest) :
    cutHeader? (b :: bytes) = (cutHeader? bytes).map fun p => (b :: p.1, p.2) := by
  rw [cutHeader?]
  rintro rest rfl rfl
  exact h rest rfl

/-- No empty line begins inside a line. -/
theorem cutHeader?_line {line : List UInt8} (h : ¬ lineEnd <:+: line) (rest : List UInt8) :
    cutHeader? (line ++ 13 :: rest) =
      (cutHeader? (13 :: rest)).map fun p => (line ++ p.1, p.2) := by
  induction line with
  | nil => simp
  | cons b line ih =>
    have hline : ¬ lineEnd <:+: line := fun hin => h (hin.trans (List.infix_cons List.infix_rfl))
    rw [List.cons_append, cutHeader?_cons, ih hline, Option.map_map]
    · rfl
    · intro tail heq
      cases line with
      | nil => simp at heq
      | cons c line =>
        simp only [List.cons_append, List.cons.injEq] at heq
        obtain ⟨rfl, rfl, -⟩ := heq
        exact h ⟨[], line, rfl⟩

/-- No empty line begins at the end of a line that another line follows. -/
theorem cutHeader?_lineEnd {line : List UInt8} (h : IsLine line) (rest : List UInt8) :
    cutHeader? (13 :: 10 :: (line ++ 13 :: rest)) =
      (cutHeader? (line ++ 13 :: rest)).map fun p => (13 :: 10 :: p.1, p.2) := by
  have hnot : ∀ tail, line ++ 13 :: rest ≠ 13 :: 10 :: tail := by
    intro tail heq
    match line, h.ne_nil with
    | [b], _ => simp at heq
    | b :: c :: line, _ =>
      simp only [List.cons_append, List.cons.injEq] at heq
      obtain ⟨rfl, rfl, -⟩ := heq
      exact h.whole ⟨[], line, rfl⟩
  rw [cutHeader?_cons, cutHeader?_cons, Option.map_map]
  · rfl
  · intro tail heq
    simp at heq
  · intro tail heq
    simp only [List.cons.injEq, true_and] at heq
    exact hnot tail heq

/-- **The lines of a header are cut off whole**, whatever follows the empty line. -/
theorem cutHeader?_wire {lines : List (List UInt8)} (hne : lines ≠ [])
    (h : ∀ l ∈ lines, IsLine l) (rest : List UInt8) :
    cutHeader? (wire lines ++ 13 :: 10 :: 13 :: 10 :: rest) = some (wire lines, rest) := by
  induction lines with
  | nil => exact absurd rfl hne
  | cons line lines ih =>
    have hline := h line List.mem_cons_self
    cases lines with
    | nil =>
      rw [wire_singleton, cutHeader?_line hline.whole, cutHeader?]
      simp
    | cons line' lines =>
      have hlines : ∀ l ∈ line' :: lines, IsLine l := fun l hl => h l (List.mem_cons_of_mem line hl)
      have hcut := ih (List.cons_ne_nil line' lines) hlines
      -- the rest of the header begins with a line, which the end of that line follows
      obtain ⟨tail, htail⟩ : ∃ tail, wire (line' :: lines) ++ 13 :: 10 :: 13 :: 10 :: rest =
          line' ++ 13 :: tail := by
        cases lines with
        | nil => exact ⟨_, by rw [wire_singleton]⟩
        | cons line'' lines => exact ⟨_, by rw [wire_cons, List.append_assoc]; rfl⟩
      rw [wire_cons, List.append_assoc, List.cons_append, List.cons_append,
        cutHeader?_line hline.whole, htail, cutHeader?_lineEnd (hlines line' List.mem_cons_self),
        ← htail, hcut]
      rfl

/-! ## Cutting into lines -/

/-- Characters that begin at the end of a line do so where the octets do. -/
theorem lineEnd_of_lossy {line : List UInt8}
    (h : ['\r', '\n'] <:+: (Utf8.decodeLossy line).toList) : lineEnd <:+: line := by
  obtain ⟨front, back, heq⟩ := h
  rw [List.append_assoc] at heq
  obtain ⟨before, behind, rfl, -, hbehind⟩ := Utf8.exists_of_decodeLossy_eq (c := '\r') (by decide)
    (by decide) heq.symm
  have hbehind' : (Utf8.decodeLossy behind).toList = [] ++ '\n' :: back := hbehind
  obtain ⟨between, after, rfl, hbetween, -⟩ := Utf8.exists_of_decodeLossy_eq (c := '\n')
    (by decide) (by decide) hbehind'
  obtain rfl := Utf8.eq_nil_of_decodeLossy hbetween
  exact ⟨before, after, by simp [lineEnd]⟩

theorem headerLines_append {cs : List Char} (h : ¬ ['\r', '\n'] <:+: cs) (rest : List Char) :
    headerLines (cs ++ '\r' :: '\n' :: rest) = cs :: headerLines rest := by
  induction cs with
  | nil => rw [List.nil_append, headerLines]
  | cons c cs ih =>
    have hcs : ¬ ['\r', '\n'] <:+: cs := fun hin => h (hin.trans (List.infix_cons List.infix_rfl))
    rw [List.cons_append, headerLines, ih hcs]
    · rfl
    · rintro tail rfl heq
      cases cs with
      | nil => simp at heq
      | cons d cs =>
        obtain ⟨rfl, -⟩ := List.cons.inj heq
        exact h ⟨[], cs, rfl⟩

theorem headerLines_whole {cs : List Char} (h : ¬ ['\r', '\n'] <:+: cs) :
    headerLines cs = [cs] := by
  induction cs with
  | nil => rfl
  | cons c cs ih =>
    have hcs : ¬ ['\r', '\n'] <:+: cs := fun hin => h (hin.trans (List.infix_cons List.infix_rfl))
    rw [headerLines, ih hcs]
    · rfl
    · rintro tail rfl rfl
      exact h ⟨[], tail, rfl⟩

/-- **Reading and cutting into lines can be done in either order.** -/
theorem headerLines_lossy {lines : List (List UInt8)} (hne : lines ≠ [])
    (h : ∀ l ∈ lines, IsLine l) :
    headerLines (Utf8.decodeLossy (wire lines)).toList =
      lines.map fun l => (Utf8.decodeLossy l).toList := by
  induction lines with
  | nil => exact absurd rfl hne
  | cons line lines ih =>
    have hline : ¬ ['\r', '\n'] <:+: (Utf8.decodeLossy line).toList :=
      fun hin => (h line List.mem_cons_self).whole (lineEnd_of_lossy hin)
    cases lines with
    | nil => rw [wire_singleton, headerLines_whole hline]; rfl
    | cons line' lines =>
      have hread : (Utf8.decodeLossy (line ++ 13 :: 10 :: wire (line' :: lines))).toList =
          (Utf8.decodeLossy line).toList ++
            '\r' :: '\n' :: (Utf8.decodeLossy (wire (line' :: lines))).toList := by
        have hnext := Utf8.decodeLossy_append (b := 10) (by decide) [] (wire (line' :: lines))
        rw [List.nil_append] at hnext
        rw [Utf8.decodeLossy_append (by decide), hnext]
        rfl
      rw [wire_cons, hread, headerLines_append hline,
        ih (List.cons_ne_nil line' lines) fun l hl => h l (List.mem_cons_of_mem line hl)]
      rfl

/-! ## The first length -/

/-- The value of a line that gives the length, as the decoder reads it. -/
def lengthValue? (line : List Char) : Option (List Char) := do
  let (name, value) ← field? line
  if isLengthName name then some value else none

theorem colon_mem_lossy {bytes : List UInt8} :
    ':' ∈ (Utf8.decodeLossy bytes).toList ↔ 58 ∈ bytes := by
  constructor
  · intro h
    obtain ⟨front, back, heq⟩ := List.append_of_mem h
    obtain ⟨before, behind, rfl, -⟩ := Utf8.exists_of_decodeLossy_eq (c := ':') (by decide)
      (by decide) heq
    simp
  · intro h
    obtain ⟨before, behind, rfl⟩ := List.append_of_mem h
    rw [Utf8.decodeLossy_append (by decide)]
    exact List.mem_append_right _ List.mem_cons_self

theorem lengthValue?_lossy {name : List UInt8} (h : 58 ∉ name) (rest : List UInt8) :
    lengthValue? (Utf8.decodeLossy (name ++ 58 :: rest)).toList =
      if isLengthName (Text.trim (Utf8.decodeLossy name).toList) then
        some (Text.trim (Utf8.decodeLossy rest).toList) else none := by
  have hcolon : ':' ∉ (Utf8.decodeLossy name).toList := fun hm => h (colon_mem_lossy.1 hm)
  have hfield := field?_append hcolon (Utf8.decodeLossy rest).toList
  rw [Utf8.decodeLossy_append (by decide), lengthValue?]
  change (do let (name, value) ← field? (_ ++ ':' :: _); if _ then some value else none) = _
  rw [hfield]
  rfl

theorem lengthValue?_eq_some_iff {line : List UInt8} {value : List Char} :
    lengthValue? (Utf8.decodeLossy line).toList = some value ↔ GivesLength line value := by
  constructor
  · intro h
    have hcolon : 58 ∈ line := by
      rw [← colon_mem_lossy]
      refine Decidable.byContradiction fun hnone => ?_
      rw [lengthValue?, field?, if_neg hnone] at h
      cases h
    obtain ⟨name, rest, rfl, hname⟩ := List.eq_append_cons_of_mem hcolon
    rw [lengthValue?_lossy hname] at h
    split at h
    · exact ⟨name, rest, rfl, hname, of_decide_eq_true ‹_›, Option.some.inj h⟩
    · cases h
  · rintro ⟨name, rest, rfl, hname, his, rfl⟩
    have his : isLengthName (Text.trim (Utf8.decodeLossy name).toList) = true := decide_eq_true his
    rw [lengthValue?_lossy hname, if_pos his]

/-- **The decoder takes the first line that gives the length.** -/
theorem findSome?_eq_some_iff {lines : List (List UInt8)} {value : List Char} :
    (lines.findSome? fun l => lengthValue? (Utf8.decodeLossy l).toList) = some value ↔
      First lines value := by
  rw [List.findSome?_eq_some_iff]
  simp only [lengthValue?_eq_some_iff, Option.eq_none_iff_forall_not_mem, Option.mem_def]
  constructor
  · rintro ⟨before, line, after, rfl, hline, hbefore⟩
    exact ⟨before, line, after, rfl, hbefore, hline⟩
  · rintro ⟨before, line, after, rfl, hbefore, hline⟩
    exact ⟨before, line, after, rfl, hline, hbefore⟩

theorem lengthField?_wire {lines : List (List UInt8)} (hne : lines ≠ [])
    (h : ∀ l ∈ lines, IsLine l) :
    lengthField? (Utf8.decodeLossy (wire lines)).toList =
      lines.findSome? fun l => lengthValue? (Utf8.decodeLossy l).toList := by
  rw [lengthField?, headerLines_lossy hne h, List.findSome?_map]
  rfl

/-! ## The verdict -/

section
variable {lines : List (List UInt8)} (hne : lines ≠ []) (h : ∀ l ∈ lines, IsLine l)
include hne h

theorem bodyLength_of_first {v : List Char} (hfirst : First lines v) :
    bodyLength (wire lines) = match Decimal.natUpTo? Decimal.wordMax v with
      | none => .error (.badLength (String.ofList v))
      | some n => if n ≤ maxLength then .ok n else .error (.tooLarge n) := by
  rewrite [bodyLength, lengthField?_wire hne h, findSome?_eq_some_iff.2 hfirst]
  rfl

variable (rest : List UInt8)

theorem next_wire :
    Decoder.next (Decoder.feed {} (wire lines ++ emptyLine ++ rest)) =
      match bodyLength (wire lines) with
      | .error e => (.error e, Decoder.feed {} (wire lines ++ emptyLine ++ rest))
      | .ok n => Decoder.takeBody ⟨rest, none⟩ n := by
  have hcut : cutHeader? (wire lines ++ emptyLine ++ rest) = some (wire lines, rest) := by
    rw [List.append_assoc]
    exact cutHeader?_wire hne h rest
  rw [Decoder.feed_fresh]
  cases hlen : bodyLength (wire lines) with
  | error e => exact Decoder.next_of_badHeader (d := ⟨_, none⟩) rfl hcut hlen
  | ok n => exact Decoder.next_of_header (d := ⟨_, none⟩) rfl hcut hlen

theorem next_of_noLength (hnone : ∀ v, ¬ First lines v) :
    Decoder.next (Decoder.feed {} (wire lines ++ emptyLine ++ rest)) =
      (.error .noLength, Decoder.feed {} (wire lines ++ emptyLine ++ rest)) := by
  have hfind : (lines.findSome? fun l => lengthValue? (Utf8.decodeLossy l).toList) = none :=
    Option.eq_none_iff_forall_ne_some.2 fun v hv => hnone v (findSome?_eq_some_iff.1 hv)
  have hlen : bodyLength (wire lines) = .error .noLength := by
    rw [bodyLength, lengthField?_wire hne h, hfind]
  rw [next_wire hne h, hlen]

variable {v : List Char} (hfirst : First lines v)
include hfirst

theorem next_of_unwritten (hv : ¬ ∃ n, Decimal.Written v n ∧ n ≤ Decimal.wordMax) :
    Decoder.next (Decoder.feed {} (wire lines ++ emptyLine ++ rest)) =
      (.error (.badLength (String.ofList v)),
        Decoder.feed {} (wire lines ++ emptyLine ++ rest)) := by
  have hnone : Decimal.natUpTo? Decimal.wordMax v = none :=
    Option.eq_none_iff_forall_ne_some.2 fun n hn => hv ⟨n, Decimal.natUpTo?_eq_some_iff.1 hn⟩
  rw [next_wire hne h, bodyLength_of_first hne h hfirst, hnone]

variable {n : Nat} (hv : Decimal.Written v n)
include hv

theorem next_of_long (hlong : maxLength < n) (hn : n ≤ Decimal.wordMax) :
    Decoder.next (Decoder.feed {} (wire lines ++ emptyLine ++ rest)) =
      (.error (.tooLarge n), Decoder.feed {} (wire lines ++ emptyLine ++ rest)) := by
  rw [next_wire hne h, bodyLength_of_first hne h hfirst, Decimal.natUpTo?_eq_some_iff.2 ⟨hv, hn⟩]
  simp only [if_neg (Nat.not_le.2 hlong)]

theorem next_of_written (hn : n ≤ maxLength) :
    Decoder.next (Decoder.feed {} (wire lines ++ emptyLine ++ rest)) =
      Decoder.takeBody ⟨rest, none⟩ n := by
  have hword : n ≤ Decimal.wordMax := Nat.le_trans hn maxLength_le_wordMax
  rw [next_wire hne h, bodyLength_of_first hne h hfirst, Decimal.natUpTo?_eq_some_iff.2 ⟨hv, hword⟩]
  simp only [if_pos hn]

end

/-! ## Bodies -/

theorem takeBody_ne_error {d d' : Decoder} {n : Nat} {e : Error} (he : e ≠ .notUtf8) :
    d.takeBody n ≠ (.error e, d') := by
  intro heq
  rcases d.takeBody_cases n with ⟨-, hbody⟩ | ⟨body, rest, -, -, hbody⟩
  · rw [hbody] at heq
    cases heq
  · rw [hbody] at heq
    have hanswer := (Prod.mk.inj heq).1
    split at hanswer
    · cases hanswer
    · exact he (Except.error.inj hanswer).symm

theorem takeBody_of_short {bytes : List UInt8} {n : Nat} (h : bytes.length < n) :
    Decoder.takeBody ⟨bytes, none⟩ n = (.ok none, ⟨bytes, some n⟩) := by
  rcases Decoder.takeBody_cases ⟨bytes, none⟩ n with ⟨-, hbody⟩ | ⟨body, rest, heq, rfl, -⟩
  · exact hbody
  · obtain rfl : bytes = body ++ rest := heq
    simp only [List.length_append] at h
    omega

theorem takeBody_append (body tail : List UInt8) :
    Decoder.takeBody ⟨body ++ tail, none⟩ body.length = (match Utf8.decode? body with
      | some text => .ok (some text)
      | none => .error .notUtf8, Decoder.feed {} tail) := by
  rcases Decoder.takeBody_cases ⟨body ++ tail, none⟩ body.length with
    ⟨hlen, -⟩ | ⟨body', rest, heq, hlen, hbody⟩
  · simp only [List.length_append] at hlen
    omega
  · obtain ⟨rfl, rfl⟩ := List.append_inj heq hlen.symm
    exact hbody

/-- Lines with the same first value are answered alike, and what has moved on is the same. -/
theorem next_of_same_first {lines lines' : List (List UInt8)} {v : List Char} (hne' : lines' ≠ [])
    (h' : ∀ l ∈ lines', IsLine l) (hfirst' : First lines' v) (hne : lines ≠ [])
    (h : ∀ l ∈ lines, IsLine l) (hfirst : First lines v) (rest : List UInt8) :
    let d := Decoder.feed {} (wire lines ++ emptyLine ++ rest)
    let d' := Decoder.feed {} (wire lines' ++ emptyLine ++ rest)
    d'.next.1 = d.next.1 ∧ (d.next.2 ≠ d → d'.next = d.next) := by
  intro d d'
  have hnext : d.next = _ := next_wire hne h rest
  have hnext' : d'.next = _ := next_wire hne' h' rest
  rw [bodyLength_of_first hne' h' hfirst', ← bodyLength_of_first hne h hfirst] at hnext'
  cases hlen : bodyLength (wire lines) with
  | error e =>
    rw [hlen] at hnext hnext'
    rw [hnext, hnext']
    exact ⟨rfl, fun hmoved => absurd rfl hmoved⟩
  | ok n =>
    rw [hlen] at hnext hnext'
    rw [hnext, hnext']
    exact ⟨rfl, fun _ => rfl⟩

/-- **The grammar of headers.** The first line that gives the length decides: without one there is
no length, and its value must be a number that is a machine word and not above the greatest length.
Then the body is that many octets behind the empty line. The lines in front of it, as long as none
of them gives the length, and the lines behind it can be any. -/
theorem header_grammar (lines : List (List UInt8)) (hne : lines ≠ []) (h : ∀ l ∈ lines, IsLine l)
    (rest : List UInt8) :
    let d := Decoder.feed {} (wire lines ++ emptyLine ++ rest)
    ((∀ v, ¬ First lines v) → d.next = (.error .noLength, d)) ∧
    (∀ v, First lines v →
      (d.next = (.error (.badLength (String.ofList v)), d) ↔
        ¬ ∃ n, Decimal.Written v n ∧ n ≤ Decimal.wordMax) ∧
      ∀ n, Decimal.Written v n → n ≤ Decimal.wordMax →
        (d.next = (.error (.tooLarge n), d) ↔ maxLength < n) ∧
        (n ≤ maxLength →
          (rest.length < n → d.next = (.ok none, ⟨rest, some n⟩)) ∧
          ∀ body tail, rest = body ++ tail → body.length = n →
            d.next = (match Utf8.decode? body with
              | some text => .ok (some text)
              | none => .error .notUtf8, Decoder.feed {} tail))) ∧
    (∀ before line after before' after' v, lines = before ++ line :: after →
      (∀ l ∈ before, ∀ w, ¬ GivesLength l w) → GivesLength line v →
      (∀ l ∈ before', ∀ w, ¬ GivesLength l w) → (∀ l ∈ before' ++ line :: after', IsLine l) →
      let d' := Decoder.feed {} (wire (before' ++ line :: after') ++ emptyLine ++ rest)
      d'.next.1 = d.next.1 ∧ (d.next.2 ≠ d → d'.next = d.next)) := by
  intro d
  refine ⟨next_of_noLength hne h rest, fun v hfirst => ⟨⟨?_, ?_⟩, fun n hv hn => ⟨⟨?_, ?_⟩, ?_⟩⟩,
    ?_⟩
  · rintro hbad ⟨n, hv, hn⟩
    by_cases hlong : maxLength < n
    · rw [next_of_long hne h rest hfirst hv hlong hn] at hbad
      cases hbad
    · rw [next_of_written hne h rest hfirst hv (Nat.le_of_not_lt hlong)] at hbad
      exact takeBody_ne_error (by simp) hbad
  · exact next_of_unwritten hne h rest hfirst
  · intro hlarge
    refine Nat.lt_of_not_le fun hle => ?_
    rw [next_of_written hne h rest hfirst hv hle] at hlarge
    exact takeBody_ne_error (by simp) hlarge
  · exact fun hlong => next_of_long hne h rest hfirst hv hlong hn
  · intro hle
    have hnext : d.next = _ := next_of_written hne h rest hfirst hv hle
    refine ⟨fun hshort => ?_, ?_⟩
    · rw [hnext, takeBody_of_short hshort]
    · rintro body tail rfl rfl
      rw [hnext, takeBody_append]
  · rintro before line after before' after' v rfl hbefore hline hbefore' h' d'
    exact next_of_same_first (by simp) h' ⟨before', line, after', rfl, hbefore', hline⟩ hne h
      ⟨before, line, after, rfl, hbefore, hline⟩ rest

/-- A line that ends in half a character and a carriage return, a name in mixed case with a
no-break space behind it, a value with a sign, and a second length, which does not count. -/
theorem header_grammar_mixed :
    let length := Utf8.encode "cOnTent-LENGTH\u00A0: +5 "
    let lines := [[0xC3, 13], length, Utf8.encode "Content-Length: x:1"]
    Decoder.next (Decoder.feed {} (wire lines ++ emptyLine ++ Utf8.encode "hello!")) =
        (.ok (some "hello"), Decoder.feed {} [33]) ∧
      (Decoder.next (Decoder.feed {} (wire [length] ++ emptyLine ++ Utf8.encode "hello!"))).1 =
        .ok (some "hello") := by
  intro length lines
  have hlength : IsLine length :=
    ⟨by decide, fun hin => absurd (hin.mem (a := 13) (by decide)) (by decide)⟩
  have hlines : ∀ l ∈ lines, IsLine l := by
    intro l hl
    simp only [lines, List.mem_cons, List.not_mem_nil, or_false] at hl
    rcases hl with rfl | rfl | rfl
    · exact ⟨by decide, by decide⟩
    · exact hlength
    · exact ⟨by decide, fun hin => absurd (hin.mem (a := 13) (by decide)) (by decide)⟩
  have hbefore : ∀ l ∈ [[0xC3, 13]], ∀ w, ¬ GivesLength l w := by
    intro l hl w hw
    obtain ⟨name, rest, heq, -⟩ := hw
    have hcolon : (58 : UInt8) ∈ l := heq ▸ List.mem_append_right name List.mem_cons_self
    rw [List.mem_singleton.1 hl] at hcolon
    exact absurd hcolon (by decide)
  have hline : GivesLength length "+5".toList := by
    refine ⟨Utf8.encode "cOnTent-LENGTH\u00A0", Utf8.encode " +5 ", by decide, by decide, ?_, ?_⟩
    · rw [Utf8.decodeLossy_encode]
      decide
    · rw [Utf8.decodeLossy_encode]
      decide
  have hfirst : First lines "+5".toList := ⟨[[0xC3, 13]], length, _, rfl, hbefore, hline⟩
  have hwritten : Decimal.Written "+5".toList 5 :=
    ⟨['5'], .inr rfl, by decide, List.forall_mem_singleton.2 rfl, by decide⟩
  obtain ⟨-, hverdict, hothers⟩ := header_grammar lines (by simp [lines]) hlines
    (Utf8.encode "hello!")
  have hnext := ((hverdict _ hfirst).2 5 hwritten (by decide)).2 (by decide)
  have hwhole := hnext.2 (Utf8.encode "hello") [33] (by decide) (by decide)
  rw [Utf8.decode?_encode] at hwhole
  have halone := hothers _ length _ [] [] _ rfl hbefore hline (by simp)
    (fun l hl => List.mem_singleton.1 hl ▸ hlength)
  refine ⟨hwhole, ?_⟩
  rw [hwhole] at halone
  exact halone.1

end SymbolContext.Frame
