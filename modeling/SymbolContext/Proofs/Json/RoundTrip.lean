import SymbolContext.Json.Writer
import SymbolContext.Proofs.Json.Fits

/-!
# Reading what was written

**A value that has been read can be written and read again** (`parse?_render`), and gives the same
value if no double is in it (`reread_eq`); a double may come back as another one. **An object may be
written with its fields in any order** (`parse?_renderFields`): they are put in order when read.
-/

namespace SymbolContext.Json

mutual

/-- What the text of a value is read as. -/
def reread : Json → Json
  | .float d => (number? d.text.toList).getD .null
  | .arr items => .arr (rereadItems items)
  | .obj fields => .obj (rereadFields fields)
  | v => v

/-- What the elements of a list are read as. -/
def rereadItems : List Json → List Json
  | [] => []
  | v :: rest => reread v :: rereadItems rest

/-- What the fields of an object are read as. -/
def rereadFields : List (String × Json) → List (String × Json)
  | [] => []
  | (k, v) :: rest => (k, reread v) :: rereadFields rest

end

mutual

/-- The tokens of the text of a value. -/
def tokensOf : Json → List Token
  | .str s => [.text s]
  | .arr items => .openList :: (tokensOfItems items ++ [.closeList])
  | .obj fields => .openObject :: (tokensOfFields fields ++ [.closeObject])
  | v => [.scalar (reread v)]

/-- The tokens of the elements of a list. -/
def tokensOfItems : List Json → List Token
  | [] => []
  | [v] => tokensOf v
  | v :: rest => tokensOf v ++ .comma :: tokensOfItems rest

/-- The tokens of the fields of an object. -/
def tokensOfFields : List (String × Json) → List Token
  | [] => []
  | [(k, v)] => .text k :: .colon :: tokensOf v
  | (k, v) :: rest => .text k :: .colon :: (tokensOf v ++ .comma :: tokensOfFields rest)

end

/-! ## Cutting a written text into tokens -/

/-- A text that does not go on with a character of a number or a word. -/
def Follows (cs : List Char) : Prop := ∀ c ∈ cs.head?, isNumeric c = false ∧ isLetter c = false

theorem tokensFrom_of_step {m n : Mode} {c : Char} {out : List Token}
    (h : m.step c = some (out, n)) (cs : List Char) :
    tokensFrom m (c :: cs) = (tokensFrom n cs).map (out ++ ·) := by
  rw [tokensFrom, h, Option.map_eq_bind]
  rfl

theorem tokensFrom_of_silent {m n : Mode} {c : Char} (h : m.step c = some ([], n))
    (cs : List Char) : tokensFrom m (c :: cs) = tokensFrom n cs := by
  rw [tokensFrom_of_step h]
  exact Option.map_id'

theorem hexDigit?_hexPair : ∀ n : Fin 32,
    hexDigit? (Nat.digitChar (n.val / 16 % 16)) = some (n.val / 16) ∧
      hexDigit? (Nat.digitChar (n.val % 16)) = some (n.val % 16) := by
  decide

/-- A control character is read back from its code. -/
theorem tokensFrom_code {c : Char} (hc : c.toNat < 0x20) (read cs : List Char) :
    tokensFrom (.inText read) (['\\', 'u', '0', '0'] ++ hexPair c.toNat ++ cs) =
      tokensFrom (.inText (c :: read)) cs := by
  obtain ⟨hhigh, hlow⟩ := hexDigit?_hexPair ⟨c.toNat, hc⟩
  have hunit : c.toNat / 16 * 16 + c.toNat % 16 = c.toNat := by omega
  simp only [hexPair, List.cons_append, List.nil_append]
  rw [tokensFrom_of_silent (n := .escape read) rfl,
    tokensFrom_of_silent (n := .code read none 4 0) rfl,
    tokensFrom_of_silent (n := .code read none 3 0) rfl,
    tokensFrom_of_silent (n := .code read none 2 0) rfl,
    tokensFrom_of_silent (n := .code read none 1 (c.toNat / 16)),
    tokensFrom_of_silent (n := .inText (c :: read))]
  · simp only [Mode.step, hlow, Option.bind_eq_bind, Option.bind_some, hunit]
    rw [if_pos (by decide), finishUnit, if_neg (by omega), if_neg (by omega), Char.ofNat_toNat]
    rfl
  · simp only [Mode.step, hhigh, Option.bind_eq_bind, Option.bind_some, Nat.zero_mul, Nat.zero_add]
    rfl

theorem tokensFrom_escape {x c : Char} {read : List Char}
    (h : afterBackslash read x = some (.inText (c :: read))) (cs : List Char) :
    tokensFrom (.inText read) (['\\', x] ++ cs) = tokensFrom (.inText (c :: read)) cs := by
  have hstep : Mode.step (.escape read) x = some ([], .inText (c :: read)) := by
    rw [Mode.step, h]
    rfl
  exact (tokensFrom_of_silent rfl (x :: cs)).trans (tokensFrom_of_silent hstep cs)

/-- A character is read back from how it is written in a string. -/
theorem tokensFrom_writeChar (c : Char) (read cs : List Char) :
    tokensFrom (.inText read) (writeChar c ++ cs) = tokensFrom (.inText (c :: read)) cs := by
  unfold writeChar
  split_ifs with hquote hslash hback hfeed hline hreturn htab hcontrol
  · subst hquote
    exact tokensFrom_escape rfl cs
  · subst hslash
    exact tokensFrom_escape rfl cs
  · subst hback
    exact tokensFrom_escape rfl cs
  · subst hfeed
    exact tokensFrom_escape rfl cs
  · subst hline
    exact tokensFrom_escape rfl cs
  · subst hreturn
    exact tokensFrom_escape rfl cs
  · subst htab
    exact tokensFrom_escape rfl cs
  · exact tokensFrom_code hcontrol read cs
  · refine tokensFrom_of_silent ?_ cs
    simp only [Mode.step, hquote, hslash, hcontrol, if_false]

theorem tokensFrom_writeText (s : String) (cs : List Char) :
    tokensFrom .between (writeText s ++ cs) = (tokensFrom .between cs).map (.text s :: ·) := by
  have hchars : ∀ (body read : List Char),
      tokensFrom (.inText read) (body.flatMap writeChar ++ '"' :: cs) =
        tokensFrom (.inText (body.reverse ++ read)) ('"' :: cs) := by
    intro body
    induction body with
    | nil => intro read; rfl
    | cons c body ih =>
      intro read
      rw [List.flatMap_cons, List.append_assoc, tokensFrom_writeChar, ih, List.reverse_cons,
        List.append_assoc]
      rfl
  have hopen : writeText s ++ cs = '"' :: (s.toList.flatMap writeChar ++ '"' :: cs) := by
    simp [writeText]
  have hclose : Mode.step (.inText s.toList.reverse) '"' = some ([.text s], .between) := by
    simp [Mode.step]
  rw [hopen, tokensFrom_of_silent (n := .inText []) rfl, hchars, List.append_nil,
    tokensFrom_of_step hclose]
  rfl

/-- A number or a word that what follows does not extend is emitted in front of it. -/
theorem tokensFrom_of_ended {m : Mode} {t : Token} {cs : List Char} (hfinish : m.finish = some [t])
    (hstep : ∀ c ∈ cs.head?, m.step c = (startToken c).map fun x => (t :: x.1, x.2)) :
    tokensFrom m cs = (tokensFrom .between cs).map (t :: ·) := by
  cases cs with
  | nil => exact hfinish
  | cons c cs =>
    have hc := hstep c rfl
    cases hstart : startToken c with
    | none =>
      rw [hstart] at hc
      rw [tokensFrom, hc, tokensFrom, Mode.step, hstart]
      rfl
    | some x =>
      have hbetween : Mode.step .between c = some (x.1, x.2) := hstart
      rw [hstart] at hc
      rw [tokensFrom_of_step hc, tokensFrom_of_step hbetween, Option.map_map]
      rfl

theorem startToken_of_isDigit {c : Char} (h : isDigit c = true) :
    startToken c = some ([], .number [c]) := by
  have hne : ∀ x, isDigit x = false → c ≠ x := by
    rintro x hx rfl
    exact absurd h (by simp [hx])
  simp [startToken, isSpace, h, hne ' ' rfl, hne '\t' rfl, hne '\n' rfl, hne '\r' rfl, hne '[' rfl,
    hne ']' rfl, hne '\x7b' rfl, hne '\x7d' rfl, hne ',' rfl, hne ':' rfl, hne '"' rfl]

theorem tokensFrom_numerics {cs : List Char} (h : ∀ c ∈ cs, isNumeric c = true)
    (read rest : List Char) :
    tokensFrom (.number read) (cs ++ rest) = tokensFrom (.number (cs.reverse ++ read)) rest := by
  induction cs generalizing read with
  | nil => rfl
  | cons c cs ih =>
    obtain ⟨hc, hcs⟩ := List.forall_mem_cons.1 h
    have hstep : Mode.step (.number read) c = some ([], .number (c :: read)) := by
      simp only [Mode.step, hc, if_true]
    rw [List.cons_append, tokensFrom_of_silent hstep, ih hcs]
    simp

theorem isNumeric_of_isDigit {c : Char} (h : c.isDigit = true) : isNumeric c = true := by
  simp [isNumeric, (isDigit_iff c).2 h]

theorem isNumeric_of_mem_chars {l : Literal} (h : l.Proper) :
    ∀ c ∈ l.chars, isNumeric c = true := by
  have hdigits : ∀ ds : List Char, AreDigits ds → ∀ c ∈ ds, isNumeric c = true :=
    fun ds hds c hc => isNumeric_of_isDigit (hds.2 c hc)
  have hfraction : ∀ c ∈ l.fractionChars, isNumeric c = true := by
    unfold Literal.fractionChars
    split
    · exact List.forall_mem_nil _
    · exact List.forall_mem_cons.2 ⟨rfl, hdigits _ (h.fraction _ ‹_›)⟩
  have hexponent : ∀ c ∈ l.exponentChars, isNumeric c = true := by
    unfold Literal.exponentChars
    split
    · exact List.forall_mem_nil _
    · exact List.forall_mem_cons.2 ⟨rfl, List.forall_mem_cons.2 ⟨rfl, hdigits _ (h.exponent _ ‹_›)⟩⟩
    · exact List.forall_mem_cons.2 ⟨rfl, hdigits _ (h.exponent _ ‹_›)⟩
  intro c hc
  rcases List.mem_append.1 hc with hc | hc
  · split at hc
    · rw [List.mem_singleton.1 hc]
      rfl
    · cases hc
  · rcases List.mem_append.1 hc with hc | hc
    · exact hdigits _ h.whole c hc
    · rcases List.mem_append.1 hc with hc | hc
      · exact hfraction c hc
      · exact hexponent c hc

/-- A literal begins a number. -/
theorem startToken_chars {l : Literal} (h : l.Proper) :
    ∃ c cs, l.chars = c :: cs ∧ startToken c = some ([], .number [c]) := by
  unfold Literal.chars
  split
  · exact ⟨'-', _, rfl, rfl⟩
  · obtain ⟨c, cs, hwhole⟩ := List.exists_cons_of_ne_nil h.whole.1
    have hc : c.isDigit = true := h.whole.2 c (hwhole ▸ List.mem_cons_self)
    rw [hwhole]
    exact ⟨c, _, rfl, startToken_of_isDigit ((isDigit_iff c).2 hc)⟩

/-- **A literal is cut off as a number**, in front of what does not extend it. -/
theorem tokensFrom_chars {l : Literal} {w : Json} (h : l.Proper) (hw : l.value? = some w)
    {rest : List Char} (hrest : Follows rest) :
    tokensFrom .between (l.chars ++ rest) = (tokensFrom .between rest).map (.scalar w :: ·) := by
  have hnumeric := isNumeric_of_mem_chars h
  have hnumber : numberToken? l.chars.reverse = some (.scalar w) := by
    rw [numberToken?, List.reverse_reverse, number?_chars h, hw]
    rfl
  obtain ⟨c, cs, hchars, hstart⟩ := startToken_chars h
  have hbetween : Mode.step .between c = some ([], .number [c]) := hstart
  rw [hchars] at hnumeric hnumber ⊢
  rw [List.reverse_cons] at hnumber
  rw [List.cons_append, tokensFrom_of_silent hbetween,
    tokensFrom_numerics (List.forall_mem_cons.1 hnumeric).2]
  refine tokensFrom_of_ended ?_ fun x hx => ?_
  · rw [Mode.finish, hnumber]
    rfl
  · simp only [Mode.step, (hrest x hx).1, hnumber]
    cases startToken x <;> rfl

theorem tokensFrom_letters {cs : List Char} (h : cs.all isLetter = true) (read rest : List Char) :
    tokensFrom (.word read) (cs ++ rest) = tokensFrom (.word (cs.reverse ++ read)) rest := by
  induction cs generalizing read with
  | nil => rfl
  | cons c cs ih =>
    rw [List.all_cons, Bool.and_eq_true] at h
    have hstep : Mode.step (.word read) c = some ([], .word (c :: read)) := by
      simp only [Mode.step, h.1, if_true]
    rw [List.cons_append, tokensFrom_of_silent hstep, ih h.2]
    simp

/-- A word is cut off whole, in front of what does not extend it. -/
theorem tokensFrom_word {c : Char} {cs : List Char} {v : Json}
    (hstart : startToken c = some ([], .word [c])) (hletters : cs.all isLetter = true)
    (hword : wordToken? (c :: cs).reverse = some (.scalar v)) {rest : List Char}
    (hrest : Follows rest) :
    tokensFrom .between (c :: cs ++ rest) = (tokensFrom .between rest).map (.scalar v :: ·) := by
  have hbetween : Mode.step .between c = some ([], .word [c]) := hstart
  rw [List.cons_append, tokensFrom_of_silent hbetween, tokensFrom_letters hletters]
  rw [List.reverse_cons] at hword
  refine tokensFrom_of_ended ?_ fun x hx => ?_
  · rw [Mode.finish, hword]
    rfl
  · simp only [Mode.step, (hrest x hx).2, hword]
    cases startToken x <;> rfl

theorem follows_cons {c : Char} (hnumeric : isNumeric c = false) (hletter : isLetter c = false)
    (cs : List Char) : Follows (c :: cs) := by
  intro x hx
  cases hx
  exact ⟨hnumeric, hletter⟩

/-- A value whose text is cut into its tokens, in front of what does not extend it. -/
def Cut (v : Json) : Prop := ∀ rest, Follows rest →
  tokensFrom .between (write v ++ rest) = (tokensFrom .between rest).map (tokensOf v ++ ·)

theorem tokensFrom_writeItems {items : List Json} (h : ∀ v ∈ items, Cut v) {rest : List Char}
    (hrest : Follows rest) :
    tokensFrom .between (writeItems items ++ rest) =
      (tokensFrom .between rest).map (tokensOfItems items ++ ·) := by
  induction items with
  | nil => exact Option.map_id'.symm
  | cons v items ih =>
    obtain ⟨hv, hitems⟩ := List.forall_mem_cons.1 h
    cases items with
    | nil => exact hv rest hrest
    | cons w items =>
      have hcomma : Mode.step .between ',' = some ([.comma], .between) := rfl
      rw [writeItems, List.append_assoc, List.cons_append, hv _ (follows_cons rfl rfl _),
        tokensFrom_of_step hcomma, ih hitems, Option.map_map, Option.map_map]
      · simp [tokensOfItems, Function.comp_def]
      · exact List.cons_ne_nil w items

theorem tokensFrom_writeFields {fields : List (String × Json)} (h : ∀ f ∈ fields, Cut f.2)
    {rest : List Char} (hrest : Follows rest) :
    tokensFrom .between (writeFields fields ++ rest) =
      (tokensFrom .between rest).map (tokensOfFields fields ++ ·) := by
  have hcolon : Mode.step .between ':' = some ([.colon], .between) := rfl
  have hcomma : Mode.step .between ',' = some ([.comma], .between) := rfl
  induction fields with
  | nil => exact Option.map_id'.symm
  | cons f fields ih =>
    obtain ⟨k, v⟩ := f
    obtain ⟨hv, hfields⟩ := List.forall_mem_cons.1 h
    cases fields with
    | nil =>
      rw [writeFields, List.append_assoc, List.cons_append, tokensFrom_writeText,
        tokensFrom_of_step hcolon, hv rest hrest, Option.map_map, Option.map_map]
      simp [tokensOfFields, Function.comp_def]
    | cons g fields =>
      rw [writeFields, List.append_assoc, List.append_assoc, List.cons_append,
        List.cons_append, tokensFrom_writeText, tokensFrom_of_step hcolon,
        hv _ (follows_cons rfl rfl _), tokensFrom_of_step hcomma, ih hfields, Option.map_map,
        Option.map_map, Option.map_map, Option.map_map]
      · simp [tokensOfFields, Function.comp_def]
      · exact List.cons_ne_nil g fields

theorem cut_number {v : Json} (h : IsNumber v) : Cut v := by
  intro rest hrest
  cases v with
  | int i =>
    obtain ⟨l, hl, hchars, hvalue⟩ := exists_literal_intText h.1 h.2
    rw [write, hchars, tokensFrom_chars hl hvalue hrest]
    rfl
  | float d =>
    obtain ⟨l, hl, hchars, d', hvalue⟩ := exists_literal_text h
    have htokens : tokensOf (.float d) = [.scalar (.float d')] := by
      rw [tokensOf, reread, hchars, number?_chars hl, hvalue]
      · rfl
      all_goals exact fun _ => Json.noConfusion
    rw [write, hchars, tokensFrom_chars hl hvalue hrest, htokens]
    rfl
  | _ => exact absurd h id

theorem cut_obj {fields : List (String × Json)} (h : ∀ f ∈ fields, Cut f.2) :
    Cut (.obj fields) := by
  intro rest _
  have hopen : Mode.step .between '\x7b' = some ([.openObject], .between) := rfl
  have hclose : Mode.step .between '\x7d' = some ([.closeObject], .between) := rfl
  have hfollows : Follows ('\x7d' :: rest) := follows_cons rfl rfl rest
  rw [write, List.append_assoc, List.cons_append, tokensFrom_of_step hopen,
    List.singleton_append, tokensFrom_writeFields h hfollows, tokensFrom_of_step hclose,
    Option.map_map, Option.map_map]
  simp [tokensOf, Function.comp_def]

/-- **The text of a value is cut into its tokens.** -/
theorem cut_of_fits {n : Nat} {v : Json} (h : Fits n v) : Cut v := by
  induction h with
  | null => exact fun rest hrest => tokensFrom_word rfl rfl rfl hrest
  | bool b =>
    cases b with
    | true => exact fun rest hrest => tokensFrom_word rfl rfl rfl hrest
    | false => exact fun rest hrest => tokensFrom_word rfl rfl rfl hrest
  | number h => exact cut_number h
  | str s => exact fun rest _ => tokensFrom_writeText s rest
  | arr h ih =>
    intro rest _
    have hopen : Mode.step .between '[' = some ([.openList], .between) := rfl
    have hclose : Mode.step .between ']' = some ([.closeList], .between) := rfl
    have hfollows : Follows (']' :: rest) := follows_cons rfl rfl rest
    rw [write, List.append_assoc, List.cons_append, tokensFrom_of_step hopen,
      List.singleton_append, tokensFrom_writeItems ih hfollows, tokensFrom_of_step hclose,
      Option.map_map, Option.map_map]
    simp [tokensOf, Function.comp_def]
  | obj h ordered ih => exact cut_obj ih

/-! ## Reading the tokens -/

theorem Reading.run_of_step {r r' : Reading} {t : Token} (h : r.step t = some r')
    (ts : List Token) : r.run (t :: ts) = r'.run ts := by
  rw [Reading.run, h]
  rfl

/-- A value whose tokens put it in its place where there is room for `n` levels, whatever
follows. -/
def Lands (n : Nat) (v : Json) : Prop := ∀ stack ts, stack.length + n ≤ depthLimit →
  (Reading.mk stack .value).run (tokensOf v ++ ts) = (Reading.finish (reread v) stack).run ts

/-- The first element of a list is read as any other value. -/
theorem run_firstItem {items : List Json} (hne : items ≠ []) (stack : List Open)
    (ts : List Token) :
    (Reading.mk stack .firstItem).run (tokensOfItems items ++ ts) =
      (Reading.mk stack .value).run (tokensOfItems items ++ ts) := by
  have hvalue : ∀ (v : Json) (ts : List Token),
      (Reading.mk stack .firstItem).run (tokensOf v ++ ts) =
        (Reading.mk stack .value).run (tokensOf v ++ ts) := by
    intro v ts
    cases v <;> rfl
  cases items with
  | nil => exact absurd rfl hne
  | cons v items =>
    cases items with
    | nil => exact hvalue v ts
    | cons w items =>
      rw [tokensOfItems, List.append_assoc]
      · exact hvalue v _
      · exact List.cons_ne_nil w items

/-- The first name of an object is read as any other name. -/
theorem run_firstName {fields : List (String × Json)} (hne : fields ≠ []) (stack : List Open)
    (ts : List Token) :
    (Reading.mk stack .firstName).run (tokensOfFields fields ++ ts) =
      (Reading.mk stack .name).run (tokensOfFields fields ++ ts) := by
  cases fields with
  | nil => exact absurd rfl hne
  | cons f fields => cases fields <;> rfl

theorem run_tokensOfItems {n : Nat} {items : List Json} (h : ∀ v ∈ items, Lands n v)
    {stack : List Open} (hroom : stack.length + 1 + n ≤ depthLimit) (hne : items ≠ [])
    (acc : List Json) (ts : List Token) :
    (Reading.mk (.list acc :: stack) .value).run (tokensOfItems items ++ .closeList :: ts) =
      (Reading.finish (.arr (acc.reverse ++ rereadItems items)) stack).run ts := by
  induction items generalizing acc with
  | nil => exact absurd rfl hne
  | cons v items ih =>
    obtain ⟨hv, hitems⟩ := List.forall_mem_cons.1 h
    have hland := fun ts => hv (.list acc :: stack) ts hroom
    cases items with
    | nil =>
      rw [tokensOfItems, hland]
      refine (Reading.run_of_step rfl ts).trans ?_
      simp [rereadItems]
    | cons w items =>
      rw [tokensOfItems, List.append_assoc, List.cons_append, hland]
      · refine (Reading.run_of_step rfl _).trans ?_
        rw [ih hitems (List.cons_ne_nil w items)]
        simp [rereadItems]
      · exact List.cons_ne_nil w items

/-- A name greater than all others comes last. -/
theorem insert_of_lt {name : String} {v : Json} {fields : List (String × Json)}
    (h : ∀ f ∈ fields, f.1 < name) : insert name v fields = fields ++ [(name, v)] := by
  induction fields with
  | nil => rfl
  | cons f fields ih =>
    obtain ⟨k, w⟩ := f
    obtain ⟨hk, hfields⟩ := List.forall_mem_cons.1 h
    have hne : name ≠ k := by
      rintro rfl
      exact String.lt_irrefl _ hk
    rw [insert, if_neg (String.lt_asymm hk), if_neg hne, ih hfields]
    rfl

/-- Fields in ascending order are the fields of an object. -/
theorem mkObj_of_ordered {fields : List (String × Json)} (h : Ordered fields) :
    mkObj fields = .obj fields := by
  suffices hfold : ∀ acc : List (String × Json), (∀ f ∈ acc, ∀ g ∈ fields, f.1 < g.1) →
      fields.foldl (fun acc f => insert f.1 f.2 acc) acc = acc ++ fields from
    congrArg Json.obj (hfold [] (List.forall_mem_nil _))
  induction fields with
  | nil => exact fun acc _ => (List.append_nil acc).symm
  | cons f fields ih =>
    intro acc hacc
    obtain ⟨hf, hfields⟩ := List.pairwise_cons.1 h
    rw [List.foldl_cons, insert_of_lt fun g hg => hacc g hg f List.mem_cons_self, ih hfields]
    · exact List.append_assoc acc [f] fields
    · intro g hg x hx
      rcases List.mem_append.1 hg with hg | hg
      · exact hacc g hg x (List.mem_cons_of_mem _ hx)
      · rw [List.mem_singleton.1 hg]
        exact hf x hx

theorem rereadFields_eq_map (fields : List (String × Json)) :
    rereadFields fields = fields.map fun f => (f.1, reread f.2) := by
  induction fields with
  | nil => rfl
  | cons f fields ih => rw [rereadFields, ih, List.map_cons]

/-- The fields of an object are read one by one, each to its place among those before it. -/
theorem run_tokensOfFields {n : Nat} {fields : List (String × Json)}
    (h : ∀ f ∈ fields, Lands n f.2) {stack : List Open}
    (hroom : stack.length + 1 + n ≤ depthLimit) (hne : fields ≠ [])
    (acc : List (String × Json)) (name : String) (ts : List Token) :
    (Reading.mk (.object acc name :: stack) .name).run (tokensOfFields fields ++ .closeObject :: ts)
      = (Reading.finish (.obj ((rereadFields fields).foldl (fun acc f => insert f.1 f.2 acc) acc))
        stack).run ts := by
  induction fields generalizing acc name with
  | nil => exact absurd rfl hne
  | cons f fields ih =>
    obtain ⟨k, v⟩ := f
    obtain ⟨hv, hfields⟩ := List.forall_mem_cons.1 h
    have hland := fun ts => hv (.object acc k :: stack) ts hroom
    cases fields with
    | nil =>
      rw [tokensOfFields, List.cons_append, List.cons_append]
      refine (Reading.run_of_step rfl _).trans ((Reading.run_of_step rfl _).trans ?_)
      rw [hland]
      exact Reading.run_of_step rfl ts
    | cons g fields =>
      rw [tokensOfFields, List.cons_append, List.cons_append, List.append_assoc, List.cons_append]
      · refine (Reading.run_of_step rfl _).trans ((Reading.run_of_step rfl _).trans ?_)
        rw [hland]
        refine (Reading.run_of_step rfl _).trans ?_
        rw [ih hfields (List.cons_ne_nil g fields)]
        rfl
      · exact List.cons_ne_nil g fields

/-- **The tokens of an object are read as its fields**, whatever their order. -/
theorem run_tokensOf_obj {n : Nat} {fields : List (String × Json)} (h : ∀ f ∈ fields, Lands n f.2)
    (stack : List Open) (ts : List Token) (hroom : stack.length + (n + 1) ≤ depthLimit) :
    (Reading.mk stack .value).run (tokensOf (.obj fields) ++ ts) =
      (Reading.finish (mkObj (rereadFields fields)) stack).run ts := by
  have hlt : stack.length < depthLimit := by omega
  have hopen : (Reading.mk stack .value).step .openObject =
      some (Reading.mk (.object [] "" :: stack) .firstName) := if_pos hlt
  rw [tokensOf, List.cons_append, List.append_assoc, Reading.run_of_step hopen,
    List.singleton_append]
  by_cases hne : fields = []
  · subst hne
    exact Reading.run_of_step rfl ts
  · rw [run_firstName hne, run_tokensOfFields h (by omega) hne]
    rfl

theorem lands_number {n : Nat} {v : Json} (h : IsNumber v) : Lands n v := by
  intro stack ts _
  cases v with
  | int i => exact Reading.run_of_step rfl ts
  | float d => exact Reading.run_of_step rfl ts
  | _ => exact absurd h id

/-- **The tokens of a value that fits are read as it.** -/
theorem lands_of_fits {n : Nat} {v : Json} (h : Fits n v) : Lands n v := by
  induction h with
  | null => exact fun stack ts _ => Reading.run_of_step rfl ts
  | bool b => exact fun stack ts _ => Reading.run_of_step rfl ts
  | number h => exact lands_number h
  | str s => exact fun stack ts _ => Reading.run_of_step rfl ts
  | @arr n items h ih =>
    intro stack ts hroom
    have hlt : stack.length < depthLimit := by omega
    have hopen : (Reading.mk stack .value).step .openList =
        some (Reading.mk (.list [] :: stack) .firstItem) := if_pos hlt
    rw [tokensOf, List.cons_append, List.append_assoc, Reading.run_of_step hopen, reread,
      List.singleton_append]
    by_cases hne : items = []
    · subst hne
      exact Reading.run_of_step rfl ts
    · rw [run_firstItem hne, run_tokensOfItems ih (by omega) hne]
      rfl
  | @obj n fields h ordered ih =>
    intro stack ts hroom
    have hordered : Ordered (rereadFields fields) := by
      rw [rereadFields_eq_map, Ordered, List.pairwise_map]
      exact ordered
    rw [run_tokensOf_obj ih stack ts hroom, mkObj_of_ordered hordered, reread]

/-- A text that is cut into the tokens of a value is read as what these are read as. -/
theorem parse?_of_cut {v w : Json} (hcut : Cut v)
    (hrun : (Reading.mk [] .value).run (tokensOf v) = some (Reading.finish w [])) :
    parse? (render v) = some w := by
  have htokens : tokens? (render v).toList = some (tokensOf v) := by
    have hnil := hcut [] (by simp [Follows])
    rw [List.append_nil] at hnil
    rw [render, String.toList_ofList, tokens?, hnil]
    simp [tokensFrom, Mode.finish]
  rw [parse?, htokens]
  change ((Reading.mk [] .value).run (tokensOf v)).bind _ = _
  rw [hrun]
  rfl

/-- **What was read can be written and read again.** -/
theorem parse?_render {v : Json} (h : Fits depthLimit v) : parse? (render v) = some (reread v) := by
  have hrun := lands_of_fits h [] [] (Nat.le_of_eq (Nat.zero_add _))
  rw [List.append_nil] at hrun
  exact parse?_of_cut (cut_of_fits h) hrun

/-- **Fields can be written in any order**, and are read as the fields of an object. -/
theorem parse?_renderFields {fields : List (String × Json)}
    (h : ∀ f ∈ fields, Fits (depthLimit - 1) f.2) :
    parse? (renderFields fields) = some (mkObj (rereadFields fields)) := by
  have htext : renderFields fields = render (.obj fields) := by rw [render, write, renderFields]
  have hrun := run_tokensOf_obj (fun f hf => lands_of_fits (h f hf)) [] [] (by decide)
  rw [List.append_nil] at hrun
  rw [htext]
  exact parse?_of_cut (cut_obj fun f hf => cut_of_fits (h f hf)) hrun

theorem isNull_reread {n : Nat} {v : Json} (h : Fits n v) (hv : v.isNull = false) :
    (reread v).isNull = false := by
  cases v with
  | null => cases hv
  | float d =>
    cases h with
    | number hnumber =>
      obtain ⟨l, hl, hchars, d', hvalue⟩ := exists_literal_text hnumber
      rw [reread, hchars, number?_chars hl, hvalue]
      rfl
  | _ => rfl

/-! ## Values without doubles -/

mutual

/-- Whether no double is in a value. -/
def isFloatFree : Json → Bool
  | .float _ => false
  | .arr items => areFloatFree items
  | .obj fields => haveNoFloat fields
  | _ => true

/-- Whether no double is in the elements of a list. -/
def areFloatFree : List Json → Bool
  | [] => true
  | v :: rest => isFloatFree v && areFloatFree rest

/-- Whether no double is in the fields of an object. -/
def haveNoFloat : List (String × Json) → Bool
  | [] => true
  | (_, v) :: rest => isFloatFree v && haveNoFloat rest

end

mutual

/-- **A value without doubles is read as itself.** -/
theorem reread_eq : ∀ {v : Json}, v.isFloatFree = true → reread v = v
  | .null, _ => rfl
  | .bool _, _ => rfl
  | .int _, _ => rfl
  | .float _, h => by cases h
  | .str _, _ => rfl
  | .arr items, h => by rw [reread, rereadItems_eq h]
  | .obj fields, h => by rw [reread, rereadFields_eq h]

theorem rereadItems_eq : ∀ {items : List Json}, areFloatFree items = true →
    rereadItems items = items
  | [], _ => rfl
  | v :: rest, h => by
    rw [areFloatFree, Bool.and_eq_true] at h
    rw [rereadItems, reread_eq h.1, rereadItems_eq h.2]

theorem rereadFields_eq : ∀ {fields : List (String × Json)}, haveNoFloat fields = true →
    rereadFields fields = fields
  | [], _ => rfl
  | (k, v) :: rest, h => by
    rw [haveNoFloat, Bool.and_eq_true] at h
    rw [rereadFields, reread_eq h.1, rereadFields_eq h.2]

end

end SymbolContext.Json
