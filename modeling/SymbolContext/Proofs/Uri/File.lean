import SymbolContext.Uri.File

/-!
# Files as URIs: every path has one, and absolute paths have different ones

* `unescape_escapePath`: undoing the escapes of a path gives its octets, so **no two paths are
  escaped alike** (`escapePath_injective`, `fileText_injective`).
* `ofPath_eq`: the text of the URI of a path parses, so **every path has a URI**.
-/

namespace SymbolContext.Uri

/-! ## Escapes -/

/-- An upper-case digit has the value it was made from. -/
theorem hexDigit?_upperHex {n : Nat} (h : n < 16) : Json.hexDigit? (upperHex n) = some n := by
  have hall : ∀ m : Fin 16, Json.hexDigit? (upperHex m) = some m.val := by decide
  exact hall ⟨n, h⟩

theorem isHex_upperHex {n : Nat} (h : n < 16) : isHex (upperHex n) = true := by
  unfold isHex
  rw [hexDigit?_upperHex h]
  rfl

theorem octet_digits (b : UInt8) : b.toNat / 16 < 16 ∧ b.toNat % 16 < 16 := by
  have hb : b.toNat < 256 := b.toNat_lt
  omega

theorem ne_percent_of_isPlain {c : Char} (h : isPlain c = true) : c ≠ '%' := by
  rintro rfl
  revert h
  decide

theorem unescape_octet (b : UInt8) (rest : List Char) :
    unescape (escapeOctet b ++ rest) = b :: unescape rest := by
  obtain ⟨hhi, hlo⟩ := octet_digits b
  show unescape ('%' :: upperHex (b.toNat / 16) :: upperHex (b.toNat % 16) :: rest) = _
  have hb : b.toNat / 16 * 16 + b.toNat % 16 = b.toNat := by omega
  simp only [unescape, hexDigit?_upperHex hhi, hexDigit?_upperHex hlo, hb, UInt8.ofNat_toNat]

theorem unescape_octets (bytes : List UInt8) (rest : List Char) :
    unescape (bytes.flatMap escapeOctet ++ rest) = bytes ++ unescape rest := by
  induction bytes with
  | nil => rfl
  | cons b bytes ih =>
    rw [List.flatMap_cons, List.append_assoc, unescape_octet, ih, List.cons_append]

theorem unescape_cons {c : Char} (h : c ≠ '%') (rest : List Char) :
    unescape (c :: rest) = String.utf8EncodeChar c ++ unescape rest := by
  rw [unescape.eq_def]
  split
  · rename_i heq
    cases heq
    exact absurd rfl h
  · rename_i heq
    cases heq
    rfl
  · rename_i heq
    cases heq

theorem unescape_char (c : Char) (rest : List Char) :
    unescape (escapeChar c ++ rest) = String.utf8EncodeChar c ++ unescape rest := by
  unfold escapeChar
  split
  · rename_i h
    exact unescape_cons (ne_percent_of_isPlain h) rest
  · exact unescape_octets _ rest

/-- **Undoing the escapes of a path gives its octets.** -/
theorem unescape_escapePath (path : String) : unescape (escapePath path) = Utf8.encode path := by
  unfold escapePath Utf8.encode
  induction path.toList with
  | nil => rfl
  | cons c cs ih => rw [List.flatMap_cons, List.flatMap_cons, unescape_char, ih]

/-- Texts with the same octets are the same. -/
theorem encode_injective {s t : String} (h : Utf8.encode s = Utf8.encode t) : s = t := by
  rw [← String.toByteArray_inj, ← String.utf8Encode_toList, ← String.utf8Encode_toList]
  exact congrArg List.toByteArray h

theorem escapePath_injective {p q : String} (h : escapePath p = escapePath q) : p = q := by
  apply encode_injective
  rw [← unescape_escapePath, ← unescape_escapePath, h]

/-- **Absolute paths with the same URI are the same text.** -/
theorem fileText_injective {p q : String} (hp : Path.isAbsolute p = true)
    (hq : Path.isAbsolute q = true) (h : fileText p = fileText q) : p = q := by
  unfold fileText at h
  rw [if_pos hp, if_pos hq, String.ofList_inj] at h
  exact escapePath_injective (List.append_cancel_left h)

/-! ## The URI of a path parses -/

/-- A text that is made of characters of a path and escapes. -/
def IsPathText (cs : List Char) : Prop := ∀ index, span isPathChar index cs = .ok (cs, [])

theorem isPathText_nil : IsPathText [] := fun _ => rfl

/-- A character that is no escape is taken or ends the text. -/
theorem span_cons (ok : Char → Bool) (index : Nat) {c : Char} (h : c ≠ '%') (cs : List Char) :
    span ok index (c :: cs) =
      if ok c then do
        let (taken, left) ← span ok (index + 1) cs
        return (c :: taken, left)
      else .ok ([], c :: cs) := by
  rw [span.eq_def]
  split
  · rename_i heq
    cases heq
  · rename_i heq
    cases heq
    exact absurd rfl h
  · rename_i heq
    cases heq
    rw [if_neg h]

theorem IsPathText.cons {c : Char} {cs : List Char} (h : IsPathText cs) (hc : isPathChar c = true)
    (hp : c ≠ '%') : IsPathText (c :: cs) := by
  intro index
  rw [span_cons _ _ hp, if_pos hc, h]
  rfl

theorem IsPathText.octet {cs : List Char} (h : IsPathText cs) (b : UInt8) :
    IsPathText (escapeOctet b ++ cs) := by
  intro index
  obtain ⟨hhi, hlo⟩ := octet_digits b
  show span isPathChar index
    ('%' :: upperHex (b.toNat / 16) :: upperHex (b.toNat % 16) :: cs) = _
  have hspan := h (index + 3)
  simp only [span, isHex_upperHex hhi, isHex_upperHex hlo, Bool.and_self, if_pos, hspan]
  rfl

theorem IsPathText.octets {cs : List Char} (h : IsPathText cs) (bytes : List UInt8) :
    IsPathText (bytes.flatMap escapeOctet ++ cs) := by
  induction bytes with
  | nil => exact h
  | cons b bytes ih =>
    rw [List.flatMap_cons, List.append_assoc]
    exact ih.octet b

theorem isPathChar_of_isPlain {c : Char} (h : isPlain c = true) : isPathChar c = true := by
  unfold isPlain at h
  unfold isPathChar isNameChar
  rcases Bool.or_eq_true_iff.1 h with h | h <;> simp [h]

theorem isPathText_escapePath (path : String) : IsPathText (escapePath path) := by
  unfold escapePath
  induction path.toList with
  | nil => exact isPathText_nil
  | cons c cs ih =>
    rw [List.flatMap_cons, escapeChar]
    split
    · rename_i h
      exact ih.cons (isPathChar_of_isPlain h) (ne_percent_of_isPlain h)
    · exact ih.octets _

/-- The path of the URI of a path, still escaped. -/
def filePathText (path : String) : List Char :=
  if Path.isAbsolute path then escapePath path else '/' :: escapePath path

theorem isPathText_filePathText (path : String) : IsPathText (filePathText path) := by
  unfold filePathText
  split
  · exact isPathText_escapePath path
  · exact (isPathText_escapePath path).cons (by decide) (by decide)

/-- The path of the URI of a path begins with a slash. -/
theorem filePathText_eq_cons (path : String) : ∃ cs, filePathText path = '/' :: cs := by
  unfold filePathText
  split
  · rename_i h
    obtain ⟨cs, hcs⟩ : ∃ cs, path.toList = '/' :: cs := by
      unfold Path.isAbsolute at h
      cases hl : path.toList with
      | nil => rw [hl] at h; cases h
      | cons c cs =>
        rw [hl] at h
        simp only [List.head?_cons, Option.some.injEq, decide_eq_true_eq] at h
        exact ⟨cs, by rw [h]⟩
    exact ⟨cs.flatMap escapeChar, by unfold escapePath; rw [hcs]; rfl⟩
  · exact ⟨_, rfl⟩

theorem pathAndTail_of_isPathText (total : Nat) {cs : List Char} (h : IsPathText cs) :
    pathAndTail total cs = .ok cs := by
  unfold pathAndTail
  rw [h]
  rfl

/-- An authority that is empty. -/
theorem authority_slash (total : Nat) (cs : List Char) :
    authority total ('/' :: cs) = .ok ('/' :: cs) := by
  have hspan : ∀ index, span isAuthorityChar index ('/' :: cs) = .ok ([], '/' :: cs) :=
    fun index => (span_cons _ index (by decide) cs).trans (if_neg (by decide))
  unfold authority
  simp only [hspan]
  rfl

/-- What follows the scheme of a URI without an authority. -/
theorem hierarchy_of_isPathText (total : Nat) {cs : List Char} (h : IsPathText ('/' :: cs)) :
    hierarchy total ('/' :: '/' :: '/' :: cs) = .ok ('/' :: cs) := by
  have hafter : pathAfterAuthority total ('/' :: cs) = pathAndTail total ('/' :: cs) := by
    simp [pathAfterAuthority]
  show (authority total ('/' :: cs) >>= pathAfterAuthority total) = _
  rw [authority_slash]
  exact hafter.trans (pathAndTail_of_isPathText total h)

theorem pathOf_file {cs : List Char} (h : IsPathText ('/' :: cs)) :
    pathOf ("file://".toList ++ '/' :: cs) = .ok ('/' :: cs) := by
  have hdrop : ("file://".toList ++ '/' :: cs).dropWhile isSchemeChar =
      ':' :: '/' :: '/' :: '/' :: cs := rfl
  have htake : ("file://".toList ++ '/' :: cs).takeWhile isSchemeChar = "file".toList := rfl
  unfold pathOf
  rw [hdrop, htake]
  exact hierarchy_of_isPathText _ h

/-- The URI of a path. -/
def fileUri (path : String) : Uri := ⟨fileText path, String.ofList (filePathText path)⟩

theorem fileUri_text (path : String) : (fileUri path).text = fileText path := rfl

/-- **Every path has a URI.** -/
theorem ofPath_eq (path : String) : ofPath path = .ok (fileUri path) := by
  have hpath : pathOf (fileText path).toList = .ok (filePathText path) := by
    have htext : (fileText path).toList = "file://".toList ++ filePathText path :=
      String.toList_ofList
    have h := isPathText_filePathText path
    obtain ⟨cs, hcs⟩ := filePathText_eq_cons path
    rw [hcs] at h
    rw [htext, hcs]
    exact pathOf_file h
  unfold ofPath parse
  rw [hpath]
  rfl

end SymbolContext.Uri
