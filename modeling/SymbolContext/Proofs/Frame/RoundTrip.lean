import SymbolContext.Proofs.Frame.Stream
import SymbolContext.Proofs.Text.Decimal
import SymbolContext.Proofs.Text.Utf8

/-!
# Reading frames back

The header of a frame has no carriage return before its end, so it is cut off whole whatever the
body holds (`cutHeader?_encode`), and it gives the length of the body in octets
(`bodyLength_lengthHeader`).

* `next_encode`: **a frame is read as its message**, and what follows the frame is left.
* `next_encode_of_long`: a message above the greatest length is refused, with its length.
* `frames_round_trip`: any number of frames are read back one by one, call after call.
-/

namespace SymbolContext.Frame

/-! ## White space -/

theorem trim_of_solid {cs : List Char} (h : ∀ c ∈ cs, Text.isBlank c = false) :
    Text.trim cs = cs := by
  have hkeep : ∀ ds : List Char, (∀ c ∈ ds, Text.isBlank c = false) →
      ds.dropWhile Text.isBlank = ds := fun ds hds => by
    cases ds with
    | nil => rfl
    | cons c ds => rw [List.dropWhile_cons_of_neg (by simp [hds c List.mem_cons_self])]
  rw [Text.trim, hkeep cs h, Text.trimEnd, hkeep _ fun c hc => h c (List.mem_reverse.1 hc),
    List.reverse_reverse]

theorem trim_cons_of_blank {c : Char} (h : Text.isBlank c = true) (cs : List Char) :
    Text.trim (c :: cs) = Text.trim cs := by
  rw [Text.trim, Text.trim, List.dropWhile_cons_of_pos h]

theorem isBlank_of_isDigit {c : Char} (h : c.isDigit = true) : Text.isBlank c = false := by
  have hrange : 48 ≤ c.toNat ∧ c.toNat ≤ 57 := by
    simpa [Char.isDigit, UInt32.le_iff_toNat_le] using h
  simp only [Text.isBlank, Bool.or_eq_false_iff, Bool.and_eq_false_iff, decide_eq_false_iff_not,
    beq_eq_false_iff_ne]
  omega

/-! ## The header -/

/-- The octets up to the first carriage return are a header, if an empty line is there. -/
theorem cutHeader?_of_noReturn {header : List UInt8} (h : 13 ∉ header) (rest : List UInt8) :
    cutHeader? (header ++ 13 :: 10 :: 13 :: 10 :: rest) = some (header, rest) := by
  induction header with
  | nil => rfl
  | cons b header ih =>
    have hb : b ≠ 13 := fun hb => h (hb ▸ List.mem_cons_self)
    have hrest := ih fun hm => h (List.mem_cons_of_mem b hm)
    rw [List.cons_append, cutHeader?, hrest]
    · rfl
    · exact fun _ heq _ => hb heq

theorem headerLines_of_noReturn {cs : List Char} (h : '\r' ∉ cs) : headerLines cs = [cs] := by
  induction cs with
  | nil => rfl
  | cons c cs ih =>
    have hc : c ≠ '\r' := fun hc => h (hc ▸ List.mem_cons_self)
    rw [headerLines, ih fun hm => h (List.mem_cons_of_mem c hm)]
    · rfl
    · exact fun _ heq _ => hc heq

/-- A line is cut at its first colon. -/
theorem field?_append {name : List Char} (h : ':' ∉ name) (value : List Char) :
    field? (name ++ ':' :: value) = some (Text.trim name, Text.trim value) := by
  have hname : ∀ c ∈ name, decide (c ≠ ':') = true := fun c hc =>
    decide_eq_true fun heq => h (heq ▸ hc)
  have htake : (name ++ ':' :: value).takeWhile (· ≠ ':') = name := by
    rw [List.takeWhile_append_of_pos hname]
    simp
  have hdrop : (name ++ ':' :: value).dropWhile (· ≠ ':') = ':' :: value := by
    rw [List.dropWhile_append_of_pos hname]
    simp
  rw [field?, if_pos (by simp), htake, hdrop]
  rfl

/-- The header of a body of `n` octets. -/
def lengthHeader (n : Nat) : String := "Content-Length: " ++ Decimal.text n

theorem toList_lengthHeader (n : Nat) :
    (lengthHeader n).toList = "Content-Length".toList ++ ':' :: ' ' :: Decimal.digits n := by
  have hname : "Content-Length: ".toList = "Content-Length".toList ++ [':', ' '] := by decide
  calc (lengthHeader n).toList
      = "Content-Length: ".toList ++ (Decimal.text n).toList := String.toList_append
    _ = "Content-Length: ".toList ++ Decimal.digits n := congrArg _ (Decimal.toList_text n)
    _ = ("Content-Length".toList ++ [':', ' ']) ++ Decimal.digits n := congrArg (· ++ _) hname
    _ = "Content-Length".toList ++ ':' :: ' ' :: Decimal.digits n :=
      List.append_assoc _ [':', ' '] _

theorem encode_eq (message : String) :
    encode message = Utf8.encode (lengthHeader (Utf8.encode message).length) ++
      13 :: 10 :: 13 :: 10 :: Utf8.encode message := by
  have hsep : Utf8.encode "\r\n\r\n" = [13, 10, 13, 10] := by decide
  generalize hheader : lengthHeader (Utf8.encode message).length = header
  calc encode message
      = Utf8.encode (header ++ "\r\n\r\n") ++ Utf8.encode message := by rw [← hheader]; rfl
    _ = (Utf8.encode header ++ [13, 10, 13, 10]) ++ Utf8.encode message := by
      rw [Utf8.encode_append, hsep]
    _ = Utf8.encode header ++ 13 :: 10 :: 13 :: 10 :: Utf8.encode message :=
      List.append_assoc _ [13, 10, 13, 10] _

theorem return_notMem_lengthHeader (n : Nat) : '\r' ∉ (lengthHeader n).toList := by
  rw [toList_lengthHeader]
  intro h
  rcases List.mem_append.1 h with hname | hvalue
  · exact absurd hname (by decide)
  · have hdigit : '\r' ∈ Decimal.digits n := by simpa using hvalue
    exact absurd (Decimal.isDigit_of_mem_digits hdigit) (by decide)

/-- The header of a frame is cut off whole, whatever its body holds. -/
theorem cutHeader?_encode (message : String) (rest : List UInt8) :
    cutHeader? (encode message ++ rest) =
      some (Utf8.encode (lengthHeader (Utf8.encode message).length),
        Utf8.encode message ++ rest) := by
  have hreturn : 13 ∉ Utf8.encode (lengthHeader (Utf8.encode message).length) := by
    intro h
    obtain ⟨c, hc, hm⟩ := List.mem_flatMap.1 h
    have hcr : c.toNat = '\r'.toNat := Utf8.mem_encodeChar hm (by decide)
    rw [Char.toNat_inj.1 hcr] at hc
    exact return_notMem_lengthHeader _ hc
  rw [encode_eq, List.append_assoc]
  exact cutHeader?_of_noReturn hreturn _

theorem lengthField?_lengthHeader (n : Nat) :
    lengthField? (lengthHeader n).toList = some (Decimal.digits n) := by
  have hname : Text.trim "Content-Length".toList = "Content-Length".toList := by decide
  have hvalue : Text.trim (' ' :: Decimal.digits n) = Decimal.digits n := by
    rw [trim_cons_of_blank (by decide)]
    exact trim_of_solid fun c hc => isBlank_of_isDigit (Decimal.isDigit_of_mem_digits hc)
  have hfield : field? (lengthHeader n).toList =
      some ("Content-Length".toList, Decimal.digits n) := by
    rw [toList_lengthHeader, field?_append (by decide), hname, hvalue]
  have his : isLengthName "Content-Length".toList = true := by decide
  rw [lengthField?, headerLines_of_noReturn (return_notMem_lengthHeader n),
    List.findSome?_singleton, hfield]
  show (if isLengthName "Content-Length".toList then some (Decimal.digits n) else none) = _
  rw [if_pos his]

theorem maxLength_le_wordMax : maxLength ≤ Decimal.wordMax := by decide

/-- **The header of a frame gives the length of its body.** -/
theorem bodyLength_lengthHeader {n : Nat} (h : n ≤ Decimal.wordMax) :
    bodyLength (Utf8.encode (lengthHeader n)) =
      if n ≤ maxLength then .ok n else .error (.tooLarge n) := by
  unfold bodyLength
  rw [Utf8.decodeLossy_encode, lengthField?_lengthHeader]
  dsimp only
  rw [Decimal.natUpTo?_digits, if_pos h]

/-! ## Frames -/

namespace Decoder

theorem takeBody_encode (message : String) (rest : List UInt8) :
    takeBody ⟨Utf8.encode message ++ rest, none⟩ (Utf8.encode message).length =
      (.ok (some message), ⟨rest, none⟩) := by
  have hthere : ¬ (Utf8.encode message ++ rest).length < (Utf8.encode message).length := by
    rw [List.length_append]
    omega
  rw [takeBody, if_neg hthere]
  simp only [List.take_left, List.drop_left, Utf8.decode?_encode]

/-- **A frame is read as its message**, and what follows it is left. -/
theorem next_encode {message : String} (h : (Utf8.encode message).length ≤ maxLength)
    (rest : List UInt8) :
    next ⟨encode message ++ rest, none⟩ = (.ok (some message), ⟨rest, none⟩) := by
  have hlen := bodyLength_lengthHeader (Nat.le_trans h maxLength_le_wordMax)
  rw [if_pos h] at hlen
  rw [next_of_header (d := ⟨encode message ++ rest, none⟩) rfl (cutHeader?_encode message rest)
    hlen]
  exact takeBody_encode message rest

/-- A message above the greatest length is refused, and its frame stays. -/
theorem next_encode_of_long {message : String} (h : maxLength < (Utf8.encode message).length)
    (hword : (Utf8.encode message).length ≤ Decimal.wordMax) (rest : List UInt8) :
    next ⟨encode message ++ rest, none⟩ =
      (.error (.tooLarge (Utf8.encode message).length), ⟨encode message ++ rest, none⟩) := by
  have hlen := bodyLength_lengthHeader hword
  rw [if_neg (Nat.not_le.2 h)] at hlen
  exact next_of_badHeader (d := ⟨encode message ++ rest, none⟩) rfl (cutHeader?_encode message rest)
    hlen

/-- The answers of `n` calls in a row, each with the decoder it leaves. -/
def calls : Nat → Decoder → List (Except Error (Option String) × Decoder)
  | 0, _ => []
  | n + 1, d => d.next :: calls n d.next.2

theorem calls_encode {messages : List String}
    (h : ∀ m ∈ messages, (Utf8.encode m).length ≤ maxLength) (tail : List UInt8) :
    calls messages.length ⟨messages.flatMap encode ++ tail, none⟩ =
      messages.mapIdx fun k m =>
        (.ok (some m), ⟨(messages.drop (k + 1)).flatMap encode ++ tail, none⟩) := by
  induction messages with
  | nil => rfl
  | cons m messages ih =>
    have hm := h m List.mem_cons_self
    have hrest := ih fun x hx => h x (List.mem_cons_of_mem m hx)
    have hnext := next_encode hm (messages.flatMap encode ++ tail)
    rw [List.length_cons, calls, List.flatMap_cons, List.append_assoc, hnext, hrest,
      List.mapIdx_cons]
    rfl

/-- **Frames round trip.** Frames that stand one behind the other are read back call after call,
each call leaving the frames behind; a message above the greatest length is refused, with its
length (which is a machine word, as all lengths are). -/
theorem frames_round_trip :
    (∀ (messages : List String) (tail : List UInt8),
      (∀ m ∈ messages, (Utf8.encode m).length ≤ maxLength) →
      calls messages.length (feed {} (messages.flatMap encode ++ tail)) =
        messages.mapIdx fun k m =>
          (.ok (some m), ⟨(messages.drop (k + 1)).flatMap encode ++ tail, none⟩)) ∧
    (∀ (message : String) (tail : List UInt8), maxLength < (Utf8.encode message).length →
      (Utf8.encode message).length ≤ Decimal.wordMax →
      next (feed {} (encode message ++ tail)) =
        (.error (.tooLarge (Utf8.encode message).length), feed {} (encode message ++ tail))) := by
  refine ⟨fun messages tail h => ?_, fun message tail h hword => ?_⟩
  · rw [feed_fresh]
    exact calls_encode h tail
  · rw [feed_fresh]
    exact next_encode_of_long h hword tail

/-- Bodies that hold an empty line, a frame of their own, nothing, and a character of two octets;
and a body one octet too long. -/
theorem frames_round_trip_nested :
    (calls 4 (feed {} (["\r\n\r\n", "Content-Length: 3\r\n\r\nabc", "", "é"].flatMap encode ++
        [67, 13]))).map Prod.fst =
      [.ok (some "\r\n\r\n"), .ok (some "Content-Length: 3\r\n\r\nabc"), .ok (some ""),
        .ok (some "é")] ∧
    (next (feed {} (encode (String.ofList (List.replicate (maxLength + 1) 'a')) ++ []))).1 =
      .error (.tooLarge (maxLength + 1)) := by
  have hlen : ∀ n, (Utf8.encode (String.ofList (List.replicate n 'a'))).length = n := fun n => by
    rw [Utf8.encode, String.toList_ofList, List.length_flatMap, List.map_replicate,
      List.sum_replicate_nat]
    exact Nat.mul_one n
  have hlong := frames_round_trip.2 (String.ofList (List.replicate (maxLength + 1) 'a')) []
  rw [hlen] at hlong
  refine ⟨?_, ?_⟩
  · rw [show 4 = ["\r\n\r\n", "Content-Length: 3\r\n\r\nabc", "", "é"].length from rfl,
      frames_round_trip.1 _ _ (by decide)]
    rfl
  · rw [hlong (Nat.lt_succ_self _) (by decide)]

end Decoder

end SymbolContext.Frame
