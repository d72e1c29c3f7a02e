import SymbolContext.Text.Blank
import SymbolContext.Text.Decimal
import SymbolContext.Text.Lines
import SymbolContext.Text.Utf8

/-!
# Frames

A message on the wire is a header, an empty line, and a body whose length in octets the header
gives.

* `Frame.encode` writes a message.
* `Frame.Decoder` holds the octets that have arrived and the length of the body it waits for, if
  it has read its header; `Frame.Decoder.next` takes one message off.
-/

namespace SymbolContext.Frame

/-- The greatest length of a body. -/
def maxLength : Nat := 16 * 1024 * 1024

/-- What can be wrong with a stream of frames. -/
inductive Error where
  /-- Reading the stream failed. -/
  | io (reason : String)
  /-- A header that gives no length. -/
  | noLength
  /-- A length that is no number. -/
  | badLength (text : String)
  /-- A body above the greatest length. -/
  | tooLarge (size : Nat)
  /-- A body that is no text. -/
  | notUtf8
deriving DecidableEq, Repr

/-- The wording of an error. -/
def Error.message : Error → String
  | io reason => "I/O error: " ++ reason
  | noLength => "Invalid LSP message format: Missing Content-Length header"
  | badLength text => "Invalid content length: " ++ text
  | tooLarge size =>
    "Message too large: " ++ Decimal.text size ++ " bytes (max: " ++ Decimal.text maxLength ++ ")"
  | notUtf8 => "Message body is not valid UTF-8"

/-- A message as octets. -/
def encode (message : String) : List UInt8 :=
  let body := Utf8.encode message
  Utf8.encode ("Content-Length: " ++ Decimal.text body.length ++ "\r\n\r\n") ++ body

/-- Cut octets at the empty line: what is before it, and what is behind. -/
def cutHeader? : List UInt8 → Option (List UInt8 × List UInt8)
  | 13 :: 10 :: 13 :: 10 :: rest => some ([], rest)
  | b :: rest => (cutHeader? rest).map fun (header, body) => (b :: header, body)
  | [] => none

/-- Cut a text at every carriage return that a newline follows. -/
def headerLines : List Char → List (List Char)
  | [] => [[]]
  | '\r' :: '\n' :: rest => [] :: headerLines rest
  | c :: rest => Text.consFirst c (headerLines rest)

/-- The name and the value of a header line, without the white space around them. -/
def field? (line : List Char) : Option (List Char × List Char) :=
  if ':' ∈ line then
    some (Text.trim (line.takeWhile (· ≠ ':')), Text.trim ((line.dropWhile (· ≠ ':')).drop 1))
  else none

/-- Whether a header name is that of the length, in any case. -/
def isLengthName (name : List Char) : Bool :=
  name.map Char.toLower = "content-length".toList

/-- The value of the first header line that gives the length. -/
def lengthField? (header : List Char) : Option (List Char) :=
  (headerLines header).findSome? fun line => do
    let (name, value) ← field? line
    if isLengthName name then some value else none

/-- The length that a header gives. -/
def bodyLength (header : List UInt8) : Except Error Nat :=
  match lengthField? (Utf8.decodeLossy header).toList with
  | none => .error .noLength
  | some value =>
    match Decimal.natUpTo? Decimal.wordMax value with
    | none => .error (.badLength (String.ofList value))
    | some n => if n ≤ maxLength then .ok n else .error (.tooLarge n)

/-- The octets that have arrived, and the length of the body that is due. -/
structure Decoder where
  buffer : List UInt8 := []
  due : Option Nat := none
deriving DecidableEq, Repr

namespace Decoder

/-- More octets arrive. -/
def feed (d : Decoder) (bytes : List UInt8) : Decoder := { d with buffer := d.buffer ++ bytes }

/-- Take a body of `n` octets off, if it has arrived. -/
def takeBody (d : Decoder) (n : Nat) : Except Error (Option String) × Decoder :=
  if d.buffer.length < n then (.ok none, { d with due := some n })
  else
    let rest : Decoder := ⟨d.buffer.drop n, none⟩
    match Utf8.decode? (d.buffer.take n) with
    | some body => (.ok (some body), rest)
    | none => (.error .notUtf8, rest)

/-- **Take one message off**, if it has arrived whole. A bad header stays where it is; a bad body
is taken off. -/
def next (d : Decoder) : Except Error (Option String) × Decoder :=
  match d.due with
  | some n => d.takeBody n
  | none =>
    match cutHeader? d.buffer with
    | none => (.ok none, d)
    | some (header, rest) =>
      match bodyLength header with
      | .error e => (.error e, d)
      | .ok n => Decoder.takeBody ⟨rest, none⟩ n

/-- Take one message off when no more octets will arrive: none may be left over. -/
def last (d : Decoder) : Except Error (Option String) × Decoder :=
  match d.next with
  | (.ok none, d) =>
    if d.buffer.isEmpty then (.ok none, d) else (.error (.io "bytes remaining on stream"), d)
  | r => r

/-- A weight that falls with every message taken off. -/
def weight (d : Decoder) : Nat := 2 * d.buffer.length + if d.due.isSome then 1 else 0

/-- What is left behind a message is not longer than what it was taken off. -/
theorem takeBody_some {d rest : Decoder} {n : Nat} {body : String}
    (h : d.takeBody n = (.ok (some body), rest)) :
    rest.buffer.length ≤ d.buffer.length ∧ rest.due = none := by
  unfold takeBody at h
  split at h
  · simp at h
  · dsimp only at h
    split at h
    · obtain ⟨-, rfl⟩ := Prod.mk.inj h
      simp
    · simp at h

/-- Behind a header there is less than in front of it. -/
theorem cutHeader?_some : ∀ {bytes header rest : List UInt8},
    cutHeader? bytes = some (header, rest) → rest.length < bytes.length := by
  intro bytes
  fun_induction cutHeader? bytes with
  | case1 rest =>
    intro header tail h
    obtain ⟨-, rfl⟩ := Prod.mk.inj (Option.some.inj h)
    simp
    omega
  | case2 b bytes _ ih =>
    intro header rest h
    obtain ⟨⟨front, tail⟩, hf, he⟩ := Option.map_eq_some_iff.1 h
    obtain ⟨-, rfl⟩ := Prod.mk.inj he
    have := ih hf
    simp only [List.length_cons]
    omega
  | case3 => simp

/-- Every message taken off makes the decoder lighter. -/
theorem weight_next {d rest : Decoder} {body : String} (h : d.next = (.ok (some body), rest)) :
    rest.weight < d.weight := by
  unfold next at h
  split at h
  · rename_i n hdue
    obtain ⟨hlen, hnone⟩ := takeBody_some h
    simp only [weight, hnone, hdue, Option.isSome_none, Option.isSome_some]
    simp
    omega
  · rename_i hdue
    split at h
    · simp at h
    · rename_i header tail hcut
      split at h
      · simp at h
      · obtain ⟨hlen, hnone⟩ := takeBody_some h
        have := cutHeader?_some hcut
        simp only [weight, hnone, hdue, Option.isSome_none]
        simp only at hlen
        simp
        omega

/-- **Take off all messages that have arrived**, up to an error. -/
def drain (d : Decoder) : List String × Option Error × Decoder :=
  match _h : d.next with
  | (.ok (some body), rest) =>
    let (bodies, failure, left) := drain rest
    (body :: bodies, failure, left)
  | (.ok none, rest) => ([], none, rest)
  | (.error e, rest) => ([], some e, rest)
termination_by d.weight
decreasing_by exact weight_next _h

end Decoder

end SymbolContext.Frame
