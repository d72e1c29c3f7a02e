import SymbolContext.Proofs.Query.Oracle
import SymbolContext.Proofs.Text.Lines
import SymbolContext.Query.Definitions

/-!
# How a query for definitions ends

A query goes through all its matches. A `Resolution` is what came of one: its file could not be
opened, its definition could not be found, or it was found.

* `exists_resolutions`: **every match is tried, whatever came of those before it**; the calls, the
  remarks and the blocks are those of the resolutions, in their order.
* `Resolves.answer_eq`: the calls tell the resolutions, and these tell the answer, so nothing else
  about the source of symbols does.
* `definitions_outcome`: from this, how the whole query ends, and what one more failure changes.
-/

namespace SymbolContext.Query

open Trace (Ran)

/-- What came of a match. -/
inductive Resolution where
  | unopened (hit : Hit) (e : BackendFailure)
  | unresolved (hit : Hit) (e : BackendFailure)
  | resolved (hit : Hit) (text : String) (span : Location)

namespace Resolution

def hit : Resolution → Hit
  | unopened hit _ => hit
  | unresolved hit _ => hit
  | resolved hit _ _ => hit

/-- The calls to the source of symbols, with their answers. -/
def calls : Resolution → List Event
  | unopened hit e => [.openFile hit.location.path (.error e)]
  | unresolved hit e => [.openFile hit.location.path (.ok ()), .definition hit.location (.error e)]
  | resolved hit text span =>
    [.openFile hit.location.path (.ok ()), .definition hit.location (.ok (text, span))]

/-- The block, or why there is none. -/
def outcome : Resolution → Except QueryFailure String
  | unopened hit e => .error (.openFile hit.location.path e)
  | unresolved hit e => .error (.definition hit.name e)
  | resolved hit text span => .ok (Excerpt.ofDefinition hit text span)

def block? (r : Resolution) : Option String := r.outcome.toOption

def failure? (r : Resolution) : Option QueryFailure :=
  match r.outcome with
  | .ok _ => none
  | .error e => some e

/-- The remark on a match that has no block. -/
def remark? (r : Resolution) : Option Event :=
  r.failure?.map fun e => .note ⟨.error, "definitions", e.message⟩

theorem parts_of_ok {r : Resolution} {block : String} (h : r.outcome = .ok block) :
    r.block? = some block ∧ r.failure? = none ∧ r.remark? = none := by
  simp [block?, failure?, remark?, h, Except.toOption]

theorem parts_of_error {r : Resolution} {e : QueryFailure} (h : r.outcome = .error e) :
    r.block? = none ∧ r.failure? = some e ∧
      r.remark? = some (.note ⟨.error, "definitions", e.message⟩) := by
  simp [block?, failure?, remark?, h, Except.toOption]

end Resolution

/-- The remarks among some events. -/
def remarks (events : List Event) : List Event := events.filter fun e => e matches .note _

/-- What is shown for some matches. -/
def shownFor (query : String) (rs : List Resolution) : String :=
  if rs.filterMap Resolution.block? = [] then query ++ " not found"
  else Text.join "" (rs.filterMap Resolution.block?)

theorem definitionsText_eq (query : String) (rs : List Resolution) :
    definitionsText query (rs.filterMap Resolution.block?) = shownFor query rs := by
  simp only [definitionsText, shownFor, List.isEmpty_iff]

theorem remarks_append (a b : List Event) : remarks (a ++ b) = remarks a ++ remarks b :=
  List.filter_append a b

theorem remarks_found (query : String) (payload : Json) (found : List Hit) :
    remarks (.symbol query (.ok payload) :: found.map matchNote) = found.map matchNote := by
  simp [remarks, matchNote]

theorem remarks_skippedNotes (component query : String) (skipped total : Nat) :
    remarks (skippedNotes component query skipped total) =
      skippedNotes component query skipped total := by
  unfold skippedNotes
  split <;> rfl

/-! ## The matches -/

section
variable (o : Oracle)

theorem ran_definitionOf (s : Hit) (log : List Event) :
    ∃ r : Resolution, r.hit = s ∧
      Ran (definitionOf o.surroundings s) log r.outcome r.calls := by
  cases hopen : o.openFile log s.location.path with
  | error e =>
    have hcall : Ran (o.surroundings.openFile s.location.path) log (.error e)
        [.openFile s.location.path (.error e)] := .answered hopen
    exact ⟨.unopened s e, rfl, hcall.bind .pure⟩
  | ok u =>
    have hcall : Ran (o.surroundings.openFile s.location.path) log (.ok ())
        [.openFile s.location.path (.ok ())] := .answered hopen
    cases hfind : o.definition (log ++ [.openFile s.location.path (.ok ())]) s.location with
    | error e =>
      have hask : Ran (o.surroundings.definition s.location) _ (.error e)
          [.definition s.location (.error e)] := .answered hfind
      exact ⟨.unresolved s e, rfl, hcall.bind (hask.bind .pure)⟩
    | ok found =>
      have hask : Ran (o.surroundings.definition s.location) _ (.ok found)
          [.definition s.location (.ok found)] := .answered hfind
      exact ⟨.resolved s found.1 found.2, rfl, hcall.bind (hask.bind .pure)⟩

theorem backendCalls_calls (r : Resolution) : backendCalls r.calls = r.calls := by
  cases r <;> rfl

theorem remarks_calls (r : Resolution) : remarks r.calls = [] := by
  cases r <;> rfl

theorem exists_resolutions (found : List Hit) (log : List Event) :
    ∃ (rs : List Resolution) (events : List Event), rs.map Resolution.hit = found ∧
      Ran (definitionBlocks o.surroundings found) log
        (rs.filterMap Resolution.block?, (rs.filterMap Resolution.failure?).length) events ∧
      backendCalls events = rs.flatMap Resolution.calls ∧
      remarks events = rs.filterMap Resolution.remark? := by
  induction found generalizing log with
  | nil => exact ⟨[], [], rfl, .pure, rfl, rfl⟩
  | cons s rest ih =>
    obtain ⟨r, hhit, hran⟩ := ran_definitionOf o s log
    cases houtcome : r.outcome with
    | ok block =>
      rw [houtcome] at hran
      obtain ⟨hblock, hfailure, hremark⟩ := Resolution.parts_of_ok houtcome
      obtain ⟨rs, events, hhits, hrest, hcalls, hremarks⟩ := ih (log ++ r.calls)
      refine ⟨r :: rs, r.calls ++ events, by simp [hhit, hhits], ?_, ?_, ?_⟩
      · rw [List.filterMap_cons_some hblock, List.filterMap_cons_none hfailure]
        exact hran.bind hrest.map
      · rw [backendCalls_append, backendCalls_calls, hcalls, List.flatMap_cons]
      · rw [remarks_append, remarks_calls, hremarks, List.filterMap_cons_none hremark,
          List.nil_append]
    | error e =>
      rw [houtcome] at hran
      obtain ⟨hblock, hfailure, hremark⟩ := Resolution.parts_of_error houtcome
      obtain ⟨rs, events, hhits, hrest, hcalls, hremarks⟩ := ih
        (log ++ r.calls ++ [.note ⟨.error, "definitions", e.message⟩])
      refine ⟨r :: rs, r.calls ++ ([.note ⟨.error, "definitions", e.message⟩] ++ events),
        by simp [hhit, hhits], ?_, ?_, ?_⟩
      · rw [List.filterMap_cons_none hblock, List.filterMap_cons_some hfailure]
        exact hran.bind ((ran_note o _ _).bind hrest.map)
      · rw [backendCalls_append, backendCalls_append, backendCalls_calls, hcalls,
          List.flatMap_cons]
        rfl
      · rw [remarks_append, remarks_append, remarks_calls, hremarks,
          List.filterMap_cons_some hremark]
        rfl

/-! ## The whole query -/

theorem ran_definitions (query : String) :
    (∃ e, Ran (definitions o.surroundings query) [] (.error (.search .symbol e))
      [.symbol query (.error e)]) ∨
    (∃ payload e, accepted query payload = .error e ∧
      Ran (definitions o.surroundings query) [] (.error (.results e.message))
        [.symbol query (.ok payload)]) ∨
    (∃ (payload : Json) (rs : List Resolution) (events : List Event),
      accepted query payload = .ok (rs.map Resolution.hit) ∧
      Ran (definitions o.surroundings query) []
        (.ok (definitionsText query (rs.filterMap Resolution.block?))) events ∧
      backendCalls events = .symbol query (.ok payload) :: rs.flatMap Resolution.calls ∧
      remarks events = (rs.map Resolution.hit).map matchNote ++ rs.filterMap Resolution.remark? ++
        skippedNotes "definitions" query (rs.filterMap Resolution.failure?).length rs.length) := by
  rcases ran_search o query [] with ⟨e, hsearch⟩ | ⟨payload, e, haccepted, hsearch⟩ |
    ⟨payload, found, haccepted, hsearch⟩
  · exact .inl ⟨e, hsearch.bind .pure⟩
  · exact .inr (.inl ⟨payload, e, haccepted, hsearch.bind .pure⟩)
  · obtain ⟨rs, events, rfl, hblocks, hcalls, hremarks⟩ := exists_resolutions o found
      (.symbol query (.ok payload) :: found.map matchNote)
    have hnote := ran_noteSkipped o "definitions" query (rs.filterMap Resolution.failure?).length
      (rs.map Resolution.hit).length
      ((.symbol query (.ok payload) :: (rs.map Resolution.hit).map matchNote) ++ events)
    refine .inr (.inr ⟨payload, rs, _, haccepted, hsearch.bind (hblocks.bind hnote.map), ?_, ?_⟩)
    · rw [backendCalls_append, backendCalls_append, backendCalls_found, hcalls,
        backendCalls_skippedNotes, List.append_nil, List.singleton_append]
    · rw [remarks_append, remarks_append, remarks_found, hremarks, remarks_skippedNotes,
        List.length_map, List.append_assoc]

end

/-- The answer to a query for definitions. -/
def Oracle.answer (o : Oracle) (query : String) : Except QueryFailure String :=
  ((definitions o.surroundings query).run []).1

/-- By its calls, a query for definitions has come to `rs`, match by match. -/
def Resolves (o : Oracle) (query : String) (rs : List Resolution) : Prop :=
  ∃ payload, accepted query payload = .ok (rs.map Resolution.hit) ∧
    backendCalls ((definitions o.surroundings query).run []).2 =
      .symbol query (.ok payload) :: rs.flatMap Resolution.calls

/-- The calls for some matches tell what came of them. -/
theorem eq_of_calls : ∀ {a b : List Resolution}, a.map Resolution.hit = b.map Resolution.hit →
    a.flatMap Resolution.calls = b.flatMap Resolution.calls → a = b
  | [], [], _, _ => rfl
  | [], _ :: _, h, _ => by cases h
  | _ :: _, [], h, _ => by cases h
  | r :: a, r' :: b, hhits, hcalls => by
    obtain ⟨hhit, hhits⟩ := List.cons.inj hhits
    rw [List.flatMap_cons, List.flatMap_cons] at hcalls
    have hone : r = r' ∧ a.flatMap Resolution.calls = b.flatMap Resolution.calls := by
      cases r <;> cases r' <;> simp_all [Resolution.calls, Resolution.hit]
    rw [hone.1, eq_of_calls hhits hone.2]

theorem Resolves.answer_eq {o : Oracle} {query : String} {rs : List Resolution}
    (h : Resolves o query rs) : o.answer query = .ok (shownFor query rs) := by
  obtain ⟨payload, haccepted, hcalls⟩ := h
  rcases ran_definitions o query with ⟨e, hran⟩ | ⟨payload', e, haccepted', hran⟩ |
    ⟨payload', rs', events, haccepted', hran, hcalls', -⟩
  · unfold Ran at hran
    rw [hran] at hcalls
    cases hcalls
  · unfold Ran at hran
    rw [hran] at hcalls
    obtain ⟨hpayload, -⟩ := List.cons.inj hcalls
    cases hpayload
    rw [haccepted] at haccepted'
    cases haccepted'
  · unfold Ran at hran
    rw [hran, List.nil_append, hcalls'] at hcalls
    obtain ⟨hpayload, htail⟩ := List.cons.inj hcalls
    cases hpayload
    have hhits : rs'.map Resolution.hit = rs.map Resolution.hit :=
      Except.ok.inj (haccepted'.symm.trans haccepted)
    rw [Oracle.answer, hran, eq_of_calls hhits htail, definitionsText_eq]

/-! ## No block reads as a query that found nothing -/

theorem getLast?_join {blocks : List String} (hne : blocks ≠ [])
    (h : ∀ b ∈ blocks, b.toList.getLast? = some '\n') :
    (Text.join "" blocks).toList.getLast? = some '\n' := by
  induction blocks with
  | nil => exact absurd rfl hne
  | cons b rest ih =>
    rw [Text.join_empty_cons, String.toList_append, List.getLast?_append]
    cases rest with
    | nil => simpa [Text.join] using h b List.mem_cons_self
    | cons b' rest =>
      rw [ih (List.cons_ne_nil b' rest) fun x hx => h x (List.mem_cons_of_mem b hx)]
      rfl

theorem getLast?_block {r : Resolution} {block : String} (h : r.block? = some block) :
    block.toList.getLast? = some '\n' := by
  cases r with
  | unopened hit e => cases h
  | unresolved hit e => cases h
  | resolved hit text span =>
    obtain rfl : Excerpt.ofDefinition hit text span = block := Option.some.inj h
    rw [Excerpt.ofDefinition, String.toList_append, List.getLast?_append]
    rfl

theorem shownFor_eq_notFound_iff (query : String) (rs : List Resolution) :
    shownFor query rs = query ++ " not found" ↔ ∀ r ∈ rs, r.block? = none := by
  rw [← List.filterMap_eq_nil_iff, shownFor]
  split
  · simp_all
  · rename_i hne
    refine ⟨fun htext => ?_, fun hnil => absurd hnil hne⟩
    -- blocks end with a newline
    have hlast := getLast?_join hne fun b hb => by
      obtain ⟨r, -, hr⟩ := List.mem_filterMap.1 hb
      exact getLast?_block hr
    rw [htext, String.toList_append] at hlast
    simp at hlast

/-! ## The outcome -/

/-- **How a query for definitions ends**, whatever is answered to each call: the search fails; its
answer cannot be decoded; or all matches are tried in order. Then every failure is remarked on and
costs the block of its match and nothing else: the answer is told by what came of the matches, and
if that changes for one of them, from a definition to a failure, just its block is gone. -/
theorem definitions_outcome (o : Oracle) (query : String) :
    ∃ answer events, (definitions o.surroundings query).run [] = (answer, events) ∧
      ((∃ e, backendCalls events = [.symbol query (.error e)] ∧
          answer = .error (.search .symbol e)) ∨
       (∃ payload e, accepted query payload = .error e ∧
          backendCalls events = [.symbol query (.ok payload)] ∧
          answer = .error (.results e.message)) ∨
       (∃ (payload : Json) (rs : List Resolution),
          accepted query payload = .ok (rs.map Resolution.hit) ∧
          backendCalls events = .symbol query (.ok payload) :: rs.flatMap Resolution.calls ∧
          remarks events = (rs.map Resolution.hit).map matchNote ++
            rs.filterMap Resolution.remark? ++
            skippedNotes "definitions" query (rs.filterMap Resolution.failure?).length rs.length ∧
          answer = .ok (shownFor query rs) ∧
          (answer = .ok (query ++ " not found") ↔ ∀ r ∈ rs, r.block? = none) ∧
          (∀ o', Resolves o' query rs → o'.answer query = answer) ∧
          (∀ o' before r r' after block, rs = before ++ r :: after → r.block? = some block →
            r'.block? = none → Resolves o' query (before ++ r' :: after) →
            answer = .ok (Text.join "" (before.filterMap Resolution.block? ++
              block :: after.filterMap Resolution.block?)) ∧
            o'.answer query = .ok (
              if before.filterMap Resolution.block? ++ after.filterMap Resolution.block? = []
              then query ++ " not found"
              else Text.join "" (before.filterMap Resolution.block? ++
                after.filterMap Resolution.block?))))) := by
  rcases ran_definitions o query with ⟨e, hran⟩ | ⟨payload, e, haccepted, hran⟩ |
    ⟨payload, rs, events, haccepted, hran, hcalls, hremarks⟩
  · exact ⟨_, _, hran, .inl ⟨e, rfl, rfl⟩⟩
  · exact ⟨_, _, hran, .inr (.inl ⟨payload, e, haccepted, rfl, rfl⟩)⟩
  · rw [definitionsText_eq] at hran
    refine ⟨_, _, hran, .inr (.inr ⟨payload, rs, haccepted, hcalls, hremarks, rfl, ?_, ?_, ?_⟩)⟩
    · rw [Except.ok.injEq, shownFor_eq_notFound_iff]
    · exact fun o' h => h.answer_eq
    · rintro o' before r r' after block rfl hblock hnone h
      refine ⟨?_, ?_⟩
      · simp [shownFor, hblock]
      · rw [h.answer_eq]
        simp [shownFor, hnone]

end SymbolContext.Query
