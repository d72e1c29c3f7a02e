import Mathlib.Data.Sum.Basic
import SymbolContext.Proofs.Json.Record
import SymbolContext.Proofs.Query.Oracle

/-!
# The shapes of a search result

A search result is read in one of three shapes, and one element that does not fit changes the shape
of all. Nothing is lost on the way: each element becomes one match, with its name and its place.

* `Place.told_of_decode`: a place is what its payload tells, down to the numbers in it.
* `Shape.keeps_of_read`: **a match has the name and the location of the object it was read from**,
  in every shape.
* `Hit.listOfJson_cases`: **the first shape that fits the whole list is taken.**
* `Query.results_keep_elements` adds what a search makes of the matches.
-/

namespace SymbolContext

/-! ## Single values -/

namespace Decoder

theorem text_eq_ok {v : Json} {s : String} (h : text v = .ok s) : v = .str s := by
  cases v with
  | str t => rw [Except.ok.inj h]
  | _ => cases h

theorem nat32_eq_ok {v : Json} {n : Nat} (h : nat32 v = .ok n) : v = .int n := by
  obtain ⟨i, hi, hn⟩ := bind_eq_ok.1 h
  obtain rfl : i.toNat = n := Except.ok.inj hn
  cases v with
  | int j =>
    simp only [intBetween] at hi
    split at hi
    · rename_i hbounds
      obtain rfl : j = i := Except.ok.inj hi
      rw [Int.toNat_of_nonneg hbounds.1]
    · cases hi
  | _ => cases hi

theorem uri_eq_ok {v : Json} {u : Uri} (h : Decoder.uri v = .ok u) :
    ∃ text, v = .str text ∧ Uri.parse text = .ok u := by
  obtain ⟨text, htext, h⟩ := bind_eq_ok.1 h
  refine ⟨text, text_eq_ok htext, ?_⟩
  split at h
  · rename_i hparse
    rw [hparse, Except.ok.inj h]
  · cases h

end Decoder

/-! ## Places -/

namespace Position

theorem reads_line : record.Reads "line" Draft.line Decoder.nat32 := by
  constructor <;> simp [record, map_eq_ok]

theorem reads_character : record.Reads "character" Draft.character Decoder.nat32 := by
  constructor <;> simp [record, map_eq_ok]

/-- A payload tells the two numbers of a position. -/
def Told (v : Json) (p : Position) : Prop :=
  record.value? "line" v = some (.int p.line) ∧
    record.value? "character" v = some (.int p.column)

theorem told_of_decode {v : Json} {p : Position} (h : record.decode v = .ok p) : Told v p := by
  obtain ⟨a, b, line, character, ha, hline, hb, hcharacter, rfl⟩ :=
    Record.decode_pair reads_line reads_character (fun _ => rfl) h
  rw [Decoder.nat32_eq_ok hline] at ha
  rw [Decoder.nat32_eq_ok hcharacter] at hb
  exact ⟨ha, hb⟩

end Position

namespace Range

theorem reads_start : record.Reads "start" Draft.start Position.record.decode := by
  constructor <;> simp [record, map_eq_ok]

theorem reads_stop : record.Reads "end" Draft.stop Position.record.decode := by
  constructor <;> simp [record, map_eq_ok]

/-- A payload tells the two positions of a range. -/
def Told (v : Json) (r : Range) : Prop :=
  ∃ start stop, record.value? "start" v = some start ∧ record.value? "end" v = some stop ∧
    Position.Told start r.start ∧ Position.Told stop r.stop

theorem told_of_decode {v : Json} {r : Range} (h : record.decode v = .ok r) : Told v r := by
  obtain ⟨a, b, start, stop, ha, hstart, hb, hstop, rfl⟩ :=
    Record.decode_pair reads_start reads_stop (fun _ => rfl) h
  exact ⟨a, b, ha, hb, Position.told_of_decode hstart, Position.told_of_decode hstop⟩

end Range

namespace Place

theorem reads_uri : record.Reads "uri" Draft.uri Decoder.uri := by
  constructor <;> simp [record, map_eq_ok]

theorem reads_range : record.Reads "range" Draft.range Range.record.decode := by
  constructor <;> simp [record, map_eq_ok]

theorem reads_file : wholeFile.Reads "uri" id Decoder.uri := by
  constructor <;> simp [wholeFile, map_eq_ok]

/-- A payload tells the URI and the range of a place. -/
def Told (v : Json) (p : Place) : Prop :=
  ∃ text range, record.value? "uri" v = some (.str text) ∧ Uri.parse text = .ok p.uri ∧
    record.value? "range" v = some range ∧ Range.Told range p.range

theorem told_of_decode {v : Json} {p : Place} (h : record.decode v = .ok p) : Told v p := by
  obtain ⟨a, b, uri, range, ha, huri, hb, hrange, rfl⟩ :=
    Record.decode_pair reads_uri reads_range (fun _ => rfl) h
  obtain ⟨text, rfl, hparse⟩ := Decoder.uri_eq_ok huri
  exact ⟨text, b, ha, hparse, hb, Range.told_of_decode hrange⟩

theorem told_of_wholeFile {v : Json} {u : Uri} (h : wholeFile.decode v = .ok u) :
    ∃ text, wholeFile.value? "uri" v = some (.str text) ∧ Uri.parse text = .ok u := by
  obtain ⟨draft, hdraft, h⟩ := Record.exists_draft h
  obtain ⟨a, ha, huri⟩ := reads_file.value hdraft h
  obtain ⟨text, rfl, hparse⟩ := Decoder.uri_eq_ok huri
  exact ⟨text, ha, hparse⟩

end Place

/-! ## Matches -/

/-- The shapes in which a match can come. -/
inductive Shape where
  | indexed
  | lightweight
  | minimal
deriving DecidableEq, Repr

namespace Hit

def shape : Hit → Shape
  | indexed _ _ _ _ => .indexed
  | lightweight _ _ _ _ => .lightweight
  | minimal _ _ => .minimal

/-- A location is that of a place in a payload. -/
def PlacedAt (l : Location) (v : Json) : Prop :=
  ∃ p, Place.record.decode v = .ok p ∧ Place.Told v p ∧ l = ⟨p.uri.filePath, p.range⟩

/-- A location is the top of a file in a payload that is no place. -/
def AtTopOf (l : Location) (v : Json) : Prop :=
  (∀ p, Place.record.decode v ≠ .ok p) ∧
    ∃ text u, Place.wholeFile.value? "uri" v = some (.str text) ∧ Uri.parse text = .ok u ∧
      l = ⟨u.filePath, ⟨⟨0, 0⟩, ⟨0, 0⟩⟩⟩

/-- **A match has the name and the location that an object gives.** In the lightweight shape, a file
without a range stands for its top. -/
def Carries (hit : Hit) (fields : List (String × Json)) : Prop :=
  fields.reverse.lookup "name" = some (.str hit.name) ∧
    ∃ v, fields.reverse.lookup "location" = some v ∧
      (PlacedAt hit.location v ∨ (hit.shape = .lightweight ∧ AtTopOf hit.location v))

end Hit

namespace SymbolInfo

theorem reads_name : record.Reads "name" Draft.name Decoder.text := by
  constructor <;> simp [record, map_eq_ok]

theorem reads_place : record.Reads "location" Draft.place Place.record.decode := by
  constructor <;> simp [record, map_eq_ok]

theorem carries_toMatch {fields : List (String × Json)} {s : SymbolInfo}
    (h : record.decode (.obj fields) = .ok s) : s.toMatch.Carries fields := by
  obtain ⟨a, v, draft, name, kind, place, ha, hname, hv, hplace, rfl⟩ :=
    Record.decode_around reads_name reads_place (fun _ => rfl) h
  rw [Decoder.text_eq_ok hname] at ha
  exact ⟨ha, v, hv, .inl ⟨place, hplace, Place.told_of_decode hplace, rfl⟩⟩

end SymbolInfo

namespace LooseSymbol

-- What `placeOrFile` gives stays one value: split into its two cases, it no longer matches `Reads`.
theorem reads_name : record.Reads "name" Draft.name Decoder.text := by
  constructor <;> simp [record, map_eq_ok, -Sum.exists, -Sum.forall]

theorem reads_place : record.Reads "location" Draft.place placeOrFile := by
  constructor <;> simp [record, map_eq_ok, -Sum.exists, -Sum.forall]

theorem placeOrFile_eq_ok {v : Json} {place : Place ⊕ Uri} (h : placeOrFile v = .ok place) :
    (∃ p, place = .inl p ∧ Place.record.decode v = .ok p) ∨
    (∃ u, place = .inr u ∧ (∀ p, Place.record.decode v ≠ .ok p) ∧
      Place.wholeFile.decode v = .ok u) := by
  unfold placeOrFile at h
  split at h
  · rename_i p hp
    exact .inl ⟨p, (Except.ok.inj h).symm, hp⟩
  · rename_i e he
    split at h
    · rename_i u hu
      refine .inr ⟨u, (Except.ok.inj h).symm, fun p hp => ?_, hu⟩
      rw [hp] at he
      cases he
    · cases h

theorem carries_toMatch {fields : List (String × Json)} {s : LooseSymbol}
    (h : record.decode (.obj fields) = .ok s) : s.toMatch.Carries fields := by
  obtain ⟨a, v, draft, name, kind, place, ha, hname, hv, hplace, rfl⟩ :=
    Record.decode_around reads_name reads_place (fun _ => rfl) h
  rw [Decoder.text_eq_ok hname] at ha
  refine ⟨ha, v, hv, ?_⟩
  rcases placeOrFile_eq_ok hplace with ⟨p, rfl, hp⟩ | ⟨u, rfl, hnone, hu⟩
  · exact .inl ⟨p, hp, Place.told_of_decode hp, rfl⟩
  · obtain ⟨text, htext, hparse⟩ := Place.told_of_wholeFile hu
    exact .inr ⟨rfl, hnone, text, u, htext, hparse, rfl⟩

end LooseSymbol

namespace NamedPlace

theorem reads_name : record.Reads "name" Draft.name Decoder.text := by
  constructor <;> simp [record, map_eq_ok]

theorem reads_place : record.Reads "location" Draft.place Place.record.decode := by
  constructor <;> simp [record, map_eq_ok]

theorem carries_toMatch {fields : List (String × Json)} {s : NamedPlace}
    (h : record.decode (.obj fields) = .ok s) : s.toMatch.Carries fields := by
  obtain ⟨a, v, name, place, ha, hname, hv, hplace, rfl⟩ :=
    Record.decode_pair reads_name reads_place (fun _ => rfl) h
  rw [Decoder.text_eq_ok hname] at ha
  exact ⟨ha, v, hv, .inl ⟨place, hplace, Place.told_of_decode hplace, rfl⟩⟩

end NamedPlace

/-! ## Whole lists -/

namespace Shape

/-- Read an element as a match of the shape. -/
def read : Shape → Decoder Hit
  | indexed => fun v => SymbolInfo.toMatch <$> SymbolInfo.record.decode v
  | lightweight => fun v => LooseSymbol.toMatch <$> LooseSymbol.record.decode v
  | minimal => fun v => NamedPlace.toMatch <$> NamedPlace.record.decode v

/-- An element decodes in the shape. -/
def Fits : Shape → Json → Prop
  | indexed, v => ∃ s, SymbolInfo.record.decode v = .ok s
  | lightweight, v => ∃ s, LooseSymbol.record.decode v = .ok s
  | minimal, v => ∃ s, NamedPlace.record.decode v = .ok s

def FitsAll (s : Shape) (vs : List Json) : Prop := ∀ v ∈ vs, s.Fits v

/-- The first shape that fits a whole list. -/
def First (vs : List Json) : Shape → Prop
  | indexed => FitsAll indexed vs
  | lightweight => FitsAll lightweight vs ∧ ¬ FitsAll indexed vs
  | minimal => FitsAll minimal vs ∧ ¬ FitsAll indexed vs ∧ ¬ FitsAll lightweight vs

theorem First.fitsAll {vs : List Json} {s : Shape} (h : First vs s) : s.FitsAll vs := by
  cases s with
  | indexed => exact h
  | lightweight => exact h.1
  | minimal => exact h.1

theorem fits_iff {s : Shape} {v : Json} : s.Fits v ↔ ∃ hit, s.read v = .ok hit := by
  cases s <;> exact exists_map_eq_ok.symm

theorem keeps_of_map {π α : Type} {r : Record π α} {toMatch : α → Hit} {s : Shape}
    (hcarries : ∀ {fields a}, r.decode (.obj fields) = .ok a → (toMatch a).Carries fields)
    (hshape : ∀ a, (toMatch a).shape = s) {v : Json} {hit : Hit}
    (h : toMatch <$> r.decode v = .ok hit) :
    hit.shape = s ∧ ∀ fields, v = .obj fields → hit.Carries fields := by
  obtain ⟨a, ha, rfl⟩ := map_eq_ok.1 h
  refine ⟨hshape a, ?_⟩
  rintro fields rfl
  exact hcarries ha

/-- **What is read keeps the shape, the name and the location.** -/
theorem keeps_of_read {s : Shape} {v : Json} {hit : Hit} (h : s.read v = .ok hit) :
    hit.shape = s ∧ ∀ fields, v = .obj fields → hit.Carries fields := by
  cases s with
  | indexed => exact keeps_of_map SymbolInfo.carries_toMatch (fun _ => rfl) h
  | lightweight => exact keeps_of_map LooseSymbol.carries_toMatch (fun _ => rfl) h
  | minimal => exact keeps_of_map NamedPlace.carries_toMatch (fun _ => rfl) h

theorem read_at {s : Shape} {vs : List Json} {hits : List Hit} {i : Nat} {v : Json} {hit : Hit}
    (hread : vs.map s.read = hits.map .ok) (hv : vs[i]? = some v) (hhit : hits[i]? = some hit) :
    s.read v = .ok hit := by
  have hi : (vs.map s.read)[i]? = (hits.map Except.ok)[i]? := by rw [hread]
  rw [List.getElem?_map, List.getElem?_map, hv, hhit] at hi
  exact Option.some.inj hi

/-- A list is read in a shape exactly if the shape fits all of it. -/
theorem list_read_cases (s : Shape) (payload : Json) :
    (∃ vs hits, payload = .arr vs ∧ s.FitsAll vs ∧ vs.map s.read = hits.map .ok ∧
      Decoder.list s.read payload = .ok hits) ∨
    ((∀ vs, payload = .arr vs → ¬ s.FitsAll vs) ∧
      ∃ e, Decoder.list s.read payload = .error e) := by
  cases hlist : Decoder.list s.read payload with
  | ok hits =>
    obtain ⟨vs, rfl, hvs⟩ := Decoder.list_eq_ok_iff.1 hlist
    refine .inl ⟨vs, hits, rfl, fun v hv => ?_, hvs, rfl⟩
    have hmem : s.read v ∈ hits.map Except.ok := hvs ▸ List.mem_map_of_mem hv
    obtain ⟨hit, -, hhit⟩ := List.mem_map.1 hmem
    exact fits_iff.2 ⟨hit, hhit.symm⟩
  | error e =>
    refine .inr ⟨?_, e, rfl⟩
    rintro vs rfl hfits
    obtain ⟨hits, hhits⟩ := Decoder.exists_list_iff.2
      ⟨vs, rfl, fun v hv => fits_iff.1 (hfits v hv)⟩
    rw [hlist] at hhits
    cases hhits

end Shape

namespace Hit

theorem listOfJson_eq {payload : Json} (h : payload.isNull = false) :
    listOfJson payload =
      match Decoder.list Shape.indexed.read payload with
      | .ok hits => .ok hits
      | .error _ =>
        match Decoder.list Shape.lightweight.read payload with
        | .ok hits => .ok hits
        | .error _ => Decoder.list Shape.minimal.read payload := by
  unfold listOfJson
  simp only [h, Shape.read, Decoder.list_map]
  cases Decoder.list SymbolInfo.record.decode payload with
  | ok symbols => rfl
  | error e =>
    cases Decoder.list LooseSymbol.record.decode payload with
    | ok symbols => rfl
    | error e' => rfl

/-- **The first shape that fits the whole list is taken**; if there is none, the error is that of
the last. -/
theorem listOfJson_cases (payload : Json) :
    (payload = .null ∧ listOfJson payload = .ok []) ∨
    (∃ vs shape hits, payload = .arr vs ∧ Shape.First vs shape ∧
      vs.map shape.read = hits.map .ok ∧ listOfJson payload = .ok hits) ∨
    (payload ≠ .null ∧ (∀ vs shape, payload = .arr vs → ¬ Shape.FitsAll shape vs) ∧
      ∃ e, Decoder.list Shape.minimal.read payload = .error e ∧
        listOfJson payload = .error e) := by
  by_cases hnull : payload = .null
  · subst hnull
    exact .inl ⟨rfl, rfl⟩
  have hisNull : payload.isNull = false := by
    cases payload with
    | null => exact absurd rfl hnull
    | _ => rfl
  refine .inr ?_
  rw [listOfJson_eq hisNull]
  rcases Shape.list_read_cases .indexed payload with
    ⟨vs, hits, rfl, hfits, hread, hlist⟩ | ⟨hindexed, e, hlist⟩
  · rw [hlist]
    exact .inl ⟨vs, .indexed, hits, rfl, hfits, hread, rfl⟩
  rw [hlist]
  rcases Shape.list_read_cases .lightweight payload with
    ⟨vs, hits, rfl, hfits, hread, hlist⟩ | ⟨hlightweight, e, hlist⟩
  · rw [hlist]
    exact .inl ⟨vs, .lightweight, hits, rfl, ⟨hfits, hindexed vs rfl⟩, hread, rfl⟩
  rw [hlist]
  rcases Shape.list_read_cases .minimal payload with
    ⟨vs, hits, rfl, hfits, hread, hlist⟩ | ⟨hminimal, e, hlist⟩
  · have hfirst : Shape.First vs .minimal := ⟨hfits, hindexed vs rfl, hlightweight vs rfl⟩
    exact .inl ⟨vs, .minimal, hits, rfl, hfirst, hread, hlist⟩
  refine .inr ⟨hnull, fun vs shape hvs => ?_, e, hlist, hlist⟩
  cases shape with
  | indexed => exact hindexed vs hvs
  | lightweight => exact hlightweight vs hvs
  | minimal => exact hminimal vs hvs

theorem exists_listOfJson_iff {payload : Json} :
    (∃ hits, listOfJson payload = .ok hits) ↔
      payload = .null ∨ ∃ vs shape, payload = .arr vs ∧ Shape.FitsAll shape vs := by
  rcases listOfJson_cases payload with
    ⟨hnull, h⟩ | ⟨vs, shape, hits, hvs, hfirst, -, h⟩ | ⟨hnull, hnone, e, -, h⟩
  · exact ⟨fun _ => .inl hnull, fun _ => ⟨[], h⟩⟩
  · exact ⟨fun _ => .inr ⟨vs, shape, hvs, hfirst.fitsAll⟩, fun _ => ⟨hits, h⟩⟩
  · constructor
    · rintro ⟨hits, hhits⟩
      rw [h] at hhits
      cases hhits
    · rintro (hpayload | ⟨vs, shape, hvs, hfits⟩)
      · exact absurd hpayload hnull
      · exact absurd hfits (hnone vs shape hvs)

theorem of_listOfJson_eq_ok {payload : Json} {hits : List Hit}
    (h : listOfJson payload = .ok hits) :
    (payload = .null ∧ hits = []) ∨
    ∃ vs shape, payload = .arr vs ∧ Shape.First vs shape ∧ vs.map shape.read = hits.map .ok := by
  rcases listOfJson_cases payload with
    ⟨hnull, h'⟩ | ⟨vs, shape, hits', hvs, hfirst, hread, h'⟩ | ⟨-, -, e, -, h'⟩
  · exact .inl ⟨hnull, Except.ok.inj (h.symm.trans h')⟩
  · obtain rfl : hits = hits' := Except.ok.inj (h.symm.trans h')
    exact .inr ⟨vs, shape, hvs, hfirst, hread⟩
  · cases h.symm.trans h'

/-- The last shape to be tried gives the error. -/
theorem of_listOfJson_eq_error {payload : Json} {e : DecodeError}
    (h : listOfJson payload = .error e) :
    Decoder.list NamedPlace.record.decode payload = .error e := by
  rcases listOfJson_cases payload with
    ⟨-, h'⟩ | ⟨-, -, hits, -, -, -, h'⟩ | ⟨-, -, e', hlist, h'⟩
  · cases h.symm.trans h'
  · cases h.symm.trans h'
  · obtain rfl : e = e' := Except.error.inj (h.symm.trans h')
    rw [Shape.read, Decoder.list_map] at hlist
    exact map_eq_error.1 hlist

theorem accepts_eq (query : String) (hit : Hit) :
    hit.accepts query = decide (hit.shape = .minimal → hit.name = query) := by
  cases hit with
  | minimal n l =>
    rw [Bool.eq_iff_iff]
    simp [accepts, shape, name]
  | _ => simp [accepts, shape]

end Hit

namespace Query

open Trace (Ran)

theorem ran_search_hits {o : Oracle} {query : String} {log : List Event} {payload : Json}
    {hits : List Hit} (hpayload : o.symbol log query = .ok payload)
    (h : Hit.listOfJson payload = .ok hits) :
    ∃ events, Ran (search o.surroundings query) log
      (.ok (hits.filter fun hit => decide (hit.shape = .minimal → hit.name = query))) events := by
  have hfilter : accepted query payload = .ok (hits.filter (Hit.accepts query)) := by
    rw [accepted, h]
    rfl
  rw [funext (Hit.accepts_eq query)] at hfilter
  rcases ran_search_of_ok hpayload with ⟨e, he, -⟩ | ⟨found, hfound, hran⟩
  · cases hfilter.symm.trans he
  · obtain rfl := Except.ok.inj (hfilter.symm.trans hfound)
    exact ⟨_, hran⟩

theorem ran_search_unread {o : Oracle} {query : String} {log : List Event} {payload : Json}
    {e : DecodeError} (hpayload : o.symbol log query = .ok payload)
    (h : Hit.listOfJson payload = .error e) :
    ∃ events, Ran (search o.surroundings query) log (.error (.results e.message)) events := by
  have herror : accepted query payload = .error e := by
    rw [accepted, h]
    rfl
  rcases ran_search_of_ok hpayload with ⟨e', he, hran⟩ | ⟨found, hfound, -⟩
  · obtain rfl := Except.error.inj (herror.symm.trans he)
    exact ⟨_, hran⟩
  · cases herror.symm.trans hfound

/-- **A search result is read in one shape, and each element is kept.** Decoding succeeds exactly if
there is no result or one shape fits all its elements. The first such shape is taken: then there is
one match for each element, in the same order and of that shape, with the name and the location of
an element that is an object. Otherwise the error is that of the barest shape. A search gives all
matches but those of the barest shape that have another name than the one searched for. -/
theorem results_keep_elements (payload : Json) :
    ((∃ hits, Hit.listOfJson payload = .ok hits) ↔
      payload = .null ∨ ∃ vs shape, payload = .arr vs ∧ Shape.FitsAll shape vs) ∧
    (∀ hits, Hit.listOfJson payload = .ok hits →
      (payload = .null ∧ hits = []) ∨
      ∃ vs shape, payload = .arr vs ∧ Shape.First vs shape ∧ hits.length = vs.length ∧
        ∀ (i : Nat) v hit, vs[i]? = some v → hits[i]? = some hit →
          hit.shape = shape ∧ ∀ fields, v = .obj fields → hit.Carries fields) ∧
    (∀ e, Hit.listOfJson payload = .error e →
      Decoder.list NamedPlace.record.decode payload = .error e) ∧
    (∀ (o : Oracle) query log, o.symbol log query = .ok payload →
      (∀ hits, Hit.listOfJson payload = .ok hits → ∃ events, Ran (search o.surroundings query) log
        (.ok (hits.filter fun hit => decide (hit.shape = .minimal → hit.name = query))) events) ∧
      (∀ e, Hit.listOfJson payload = .error e → ∃ events,
        Ran (search o.surroundings query) log (.error (.results e.message)) events)) := by
  refine ⟨Hit.exists_listOfJson_iff, fun hits h => ?_, fun e h => Hit.of_listOfJson_eq_error h,
    fun o query log hpayload =>
      ⟨fun hits h => ran_search_hits hpayload h, fun e h => ran_search_unread hpayload h⟩⟩
  rcases Hit.of_listOfJson_eq_ok h with hnull | ⟨vs, shape, hvs, hfirst, hread⟩
  · exact .inl hnull
  have hlength := congrArg List.length hread
  rw [List.length_map, List.length_map] at hlength
  exact .inr ⟨vs, shape, hvs, hfirst, hlength.symm,
    fun i v hit hv hhit => Shape.keeps_of_read (Shape.read_at hread hv hhit)⟩

/-- One location without a range puts both matches into the lightweight shape, and is at the top of
its file. -/
theorem results_keep_elements_mixed :
    let point (line : Int) : Json := .obj [("line", .int line), ("character", .int 4)]
    let ranged := [("name", .str "f"), ("kind", .int 12), ("location",
      .obj [("uri", .str "file:///a.c"), ("range", .obj [("start", point 2), ("end", point 3)])])]
    let bare := [("name", .str "g"), ("kind", .int 12), ("location",
      .obj [("uri", .str "file:///b.c")])]
    let f : Hit := .lightweight "f" 12 none ⟨"/a.c", ⟨⟨2, 4⟩, ⟨3, 4⟩⟩⟩
    let g : Hit := .lightweight "g" 12 none ⟨"/b.c", ⟨⟨0, 0⟩, ⟨0, 0⟩⟩⟩
    Hit.listOfJson (.arr [.obj ranged, .obj bare]) = .ok [f, g] ∧
      Shape.First [.obj ranged, .obj bare] .lightweight ∧ f.Carries ranged ∧ g.Carries bare := by
  intro point ranged bare f g
  have hhits : Hit.listOfJson (.arr [.obj ranged, .obj bare]) = .ok [f, g] := rfl
  obtain ⟨-, hkept, -⟩ := results_keep_elements (.arr [.obj ranged, .obj bare])
  rcases hkept [f, g] hhits with ⟨hnull, -⟩ | ⟨vs, shape, hvs, hfirst, -, hkeep⟩
  · cases hnull
  obtain rfl := Json.arr.inj hvs
  obtain ⟨rfl, hf⟩ := hkeep 0 (.obj ranged) f rfl rfl
  obtain ⟨-, hg⟩ := hkeep 1 (.obj bare) g rfl rfl
  exact ⟨hhits, hfirst, hf ranged rfl, hg bare rfl⟩

end Query

end SymbolContext
