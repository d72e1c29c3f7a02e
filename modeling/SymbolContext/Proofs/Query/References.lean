import Mathlib.Algebra.Group.Nat.Defs
import SymbolContext.Proofs.Query.Grouping
import SymbolContext.Proofs.Query.Oracle

/-!
# How a query for references ends

A query visits its matches in order. A `Visit` is what came of one: its file could not be opened,
its references could not be found, or they were found and the files they are in were read.

* `ran_showFiles`: the files of a match are read and shown one by one, whether they can be read or
  not.
* `Visited`, `exists_visited`: **the visits go through the matches up to the first whose references
  cannot be found** (`Follows`); the calls, the files read and the blocks are those of the visits.
* `references_outcome`: from this, **how the whole query ends, whatever is answered to each call**.
-/

namespace SymbolContext.Query

open Trace (Ran)

/-- The path of the first of some references. -/
def pathOf (group : List Location) : String := (group.head?.map Location.path).getD ""

/-- Where a reference starts, as it is shown: counted from one, in words of 32 bits. -/
def startText (r : Location) : String :=
  "L" ++ Decimal.text ((r.range.start.line + 1) % 2 ^ 32) ++
    ":C" ++ Decimal.text ((r.range.start.column + 1) % 2 ^ 32)

/-- The block of a file: its path, how many references are in it, and what stands below. -/
structure Listing where
  path : String
  count : Nat
  below : String

/-- The block as text. -/
def Listing.text (b : Listing) : String :=
  "---\n\n" ++ b.path ++ "\nReferences in File: " ++ Decimal.text b.count ++ "\n" ++ b.below

/-- The block of the references in a file, by what reading it gave. -/
def blockOf (context : Nat) (group : List Location) : Except String String → Listing
  | .ok text => ⟨pathOf group, group.length,
    "At: " ++ Text.join ", " (group.map startText) ++ "\n\n" ++
      Excerpt.excerpt (Text.pieces text) (referenceWindows group (Text.pieces text) context)⟩
  | .error reason => ⟨pathOf group, group.length, "\nError reading file: " ++ reason⟩

/-- What came of a match. -/
inductive Visit where
  /-- Its file could not be opened. -/
  | unopened (hit : Hit) (e : BackendFailure)
  /-- Its references could not be found. -/
  | failed (hit : Hit) (e : BackendFailure)
  /-- Its references; and for the URI of each file they are in, what reading the file gave. -/
  | shown (hit : Hit) (references : List Location) (files : List (String × Except String String))

namespace Visit

def hit : Visit → Hit
  | unopened hit _ => hit
  | failed hit _ => hit
  | shown hit _ _ => hit

/-- Why the whole query fails. -/
def failure? : Visit → Option BackendFailure
  | failed _ e => some e
  | _ => none

/-- The calls to the source of symbols. -/
def backendCalls : Visit → List Event
  | unopened hit e => [.openFile hit.location.path (.error e)]
  | failed hit e =>
    [.openFile hit.location.path (.ok ()), .references hit.location false (.error e)]
  | shown hit references _ =>
    [.openFile hit.location.path (.ok ()), .references hit.location false (.ok references)]

/-- The files that are read. -/
def reads : Visit → List Event
  | shown _ references files =>
    files.map fun f => .readText (pathOf (inFile references f.1)) f.2
  | _ => []

/-- One block for each file. -/
def blocks (context : Nat) : Visit → List Listing
  | shown _ references files => files.map fun f => blockOf context (inFile references f.1) f.2
  | _ => []

/-- The number of references. -/
def total : Visit → Nat
  | shown _ references _ => references.length
  | _ => 0

/-- The files that are shown are those of the references, in ascending order. -/
def Complete : Visit → Prop
  | shown _ references files => IsFiles references (files.map Prod.fst)
  | _ => True

end Visit

/-- **The visits go through the matches** in order, up to the first whose references cannot be
found, and through all of them if there is none. -/
structure Follows (found : List Hit) (visits : List Visit) : Prop where
  inOrder : visits.map Visit.hit <+: found
  untilFailure : ∀ v ∈ visits.dropLast, v.failure? = none
  all : visits.findSome? Visit.failure? = none → visits.map Visit.hit = found
  complete : ∀ v ∈ visits, v.Complete

theorem follows_nil : Follows [] [] :=
  ⟨List.prefix_rfl, fun _ h => absurd h List.not_mem_nil, fun _ => rfl,
    fun _ h => absurd h List.not_mem_nil⟩

theorem Follows.cons {found : List Hit} {visits : List Visit} (h : Follows found visits)
    (v : Visit) (hok : v.failure? = none) (hv : v.Complete) :
    Follows (v.hit :: found) (v :: visits) where
  inOrder := (List.prefix_cons_inj v.hit).2 h.inOrder
  untilFailure := by
    intro x hx
    cases visits with
    | nil => exact absurd hx List.not_mem_nil
    | cons w visits =>
      rw [List.dropLast_cons_of_ne_nil (List.cons_ne_nil w visits)] at hx
      rcases List.mem_cons.1 hx with rfl | hx
      · exact hok
      · exact h.untilFailure x hx
  all := by
    intro hnone
    rw [List.findSome?_cons, hok] at hnone
    rw [List.map_cons, h.all hnone]
  complete := by
    intro x hx
    rcases List.mem_cons.1 hx with rfl | hx
    · exact hv
    · exact h.complete x hx

theorem follows_failed (hit : Hit) (rest : List Hit) (e : BackendFailure) :
    Follows (hit :: rest) [.failed hit e] where
  inOrder := ⟨rest, rfl⟩
  untilFailure := fun _ h => absurd h List.not_mem_nil
  all := fun h => by cases h
  complete := fun v hv => by
    rw [List.mem_singleton.1 hv]
    trivial

/-! ## The files of a match -/

variable (o : Oracle) (context : Nat)

/-- What is put together for a file that has been read is its block. -/
theorem fileBlock_eq {group : List Location} (h : group ≠ []) (text : String) :
    fileBlock (pathOf group) group text context = (blockOf context group (.ok text)).text := by
  have hlabels : Excerpt.startLabels group = Text.join ", " (group.map startText) := rfl
  have hempty : group.isEmpty = false := List.isEmpty_eq_false_iff.2 h
  have hat : "At: " = "At" ++ ": " := by decide
  have hend : "\n\n" = "\n" ++ "\n" := by decide
  simp only [fileBlock, Excerpt.ofReferences, Excerpt.fileHeader, Excerpt.banner, hempty, hlabels,
    Bool.false_eq_true, if_false, Excerpt.labelled, Listing.text, blockOf, hat, hend,
    String.append_assoc]

theorem ofUnreadable_eq (group : List Location) (reason : String) :
    Excerpt.ofUnreadable (pathOf group) group.length reason =
      (blockOf context group (.error reason)).text := by
  simp only [Excerpt.ofUnreadable, Excerpt.fileHeader, Excerpt.banner, Listing.text, blockOf,
    String.append_assoc]

theorem ran_showFile {group : List Location} (h : group ≠ []) (log : List Event) :
    ∃ answer events,
      Ran (showFile o.surroundings context group) log (blockOf context group answer).text events ∧
      backendCalls events = [] ∧ reads events = [.readText (pathOf group) answer] := by
  have hcall : Ran (o.surroundings.readText (pathOf group)) log (o.readText log (pathOf group))
      [.readText (pathOf group) (o.readText log (pathOf group))] := .answered rfl
  refine ⟨o.readText log (pathOf group), ?_⟩
  cases hanswer : o.readText log (pathOf group) with
  | ok text =>
    rw [hanswer] at hcall
    rw [← fileBlock_eq context h]
    exact ⟨[.readText (pathOf group) (.ok text)], hcall.bind .pure, rfl, rfl⟩
  | error reason =>
    rw [hanswer] at hcall
    rw [← ofUnreadable_eq]
    exact ⟨_, hcall.bind ((ran_note o _ _).bind .pure), rfl, rfl⟩

theorem ran_showFiles (references : List Location) {uris : List String}
    (h : ∀ uri ∈ uris, inFile references uri ≠ []) (log : List Event) :
    ∃ (files : List (String × Except String String)) (events : List Event),
      files.map Prod.fst = uris ∧
      Ran (showFiles o.surroundings context (uris.map fun uri => (uri, inFile references uri))) log
        (files.map fun f => (blockOf context (inFile references f.1) f.2).text) events ∧
      backendCalls events = [] ∧
      reads events = files.map fun f => .readText (pathOf (inFile references f.1)) f.2 := by
  induction uris generalizing log with
  | nil => exact ⟨[], [], rfl, .pure, rfl, rfl⟩
  | cons uri uris ih =>
    obtain ⟨answer, first, hfirst, hcalls, hreads⟩ :=
      ran_showFile o context (h uri List.mem_cons_self) log
    obtain ⟨files, rest, huris, hrest, hcalls', hreads'⟩ :=
      ih (fun x hx => h x (List.mem_cons_of_mem uri hx)) (log ++ first)
    refine ⟨(uri, answer) :: files, first ++ rest, ?_, hfirst.bind hrest.map, ?_, ?_⟩
    · rw [List.map_cons, huris]
    · rw [backendCalls_append, hcalls, hcalls', List.append_nil]
    · rw [reads_append, hreads, hreads']
      rfl

/-- The files of some references are read and shown in the order of their URIs. -/
theorem ran_showFiles_byFile (references : List Location) (hit : Hit) (log : List Event) :
    ∃ files events, (Visit.shown hit references files).Complete ∧
      Ran (showFiles o.surroundings context (byFile references)) log
        (((Visit.shown hit references files).blocks context).map Listing.text) events ∧
      backendCalls events = [] ∧ reads events = (Visit.shown hit references files).reads := by
  obtain ⟨uris, hfiles, hgroups⟩ := isGrouping_byFile references
  have hne : ∀ uri ∈ uris, inFile references uri ≠ [] := fun uri hu =>
    inFile_ne_nil ((hfiles.mem_iff uri).1 hu)
  obtain ⟨files, events, huris, hran, hcalls, hreads⟩ := ran_showFiles o context references hne log
  refine ⟨files, events, ?_, ?_, hcalls, hreads⟩
  · show IsFiles references (files.map Prod.fst)
    rw [huris]
    exact hfiles
  · rw [hgroups, Visit.blocks, List.map_map]
    exact hran

/-! ## The matches -/

/-- What the visits come to: the error of the first that fails, or all their blocks. -/
def outcomeOf (visits : List Visit) : Except QueryFailure (List String) :=
  match visits.findSome? Visit.failure? with
  | some e => .error (.search .references e)
  | none => .ok ((visits.flatMap (Visit.blocks context)).map Listing.text)

theorem outcomeOf_cons {v : Visit} (h : v.failure? = none) (visits : List Visit) :
    outcomeOf context (v :: visits) =
      (outcomeOf context visits).map fun blocks =>
        (v.blocks context).map Listing.text ++ blocks := by
  unfold outcomeOf
  rw [List.findSome?_cons, h]
  cases visits.findSome? Visit.failure? with
  | some e => rfl
  | none => exact congrArg Except.ok List.map_append

/-- The remark on a match whose file cannot be opened. -/
def unopenedNote (s : Hit) (e : BackendFailure) : Diagnostic :=
  ⟨.error, "references", (QueryFailure.openFile s.location.path e).message⟩

/-- The remark on the references to a match. -/
def countNote (s : Hit) (references : List Location) : Diagnostic :=
  ⟨.debug, "references", Decimal.text references.length ++ " references to " ++ s.name ++ " at " ++
    s.location.compact⟩

/-- The log when the references to a match have been found and remarked on. -/
def askedLog (log : List Event) (s : Hit) (references : List Location) : List Event :=
  log ++ [.openFile s.location.path (.ok ())] ++ [.references s.location false (.ok references)] ++
    [.note (countNote s references)]

/-- The matches have been visited after `log`: what the visits come to, and what they leave in the
log. -/
structure Visited (found : List Hit) (log : List Event) (visits : List Visit)
    (result : Except QueryFailure (List String × Nat)) (events : List Event) : Prop where
  ran : Ran (referenceBlocks o.surroundings context found) log result events
  follows : Follows found visits
  outcome : result.map Prod.fst = outcomeOf context visits
  calls : backendCalls events = visits.flatMap Visit.backendCalls
  files : reads events = visits.flatMap Visit.reads

section
variable {o : Oracle} {context : Nat} {s : Hit} {rest : List Hit} {log events : List Event}
  {visits : List Visit} {result : Except QueryFailure (List String × Nat)}

theorem visited_nil (log : List Event) : Visited o context [] log [] (.ok ([], 0)) [] :=
  ⟨.pure, follows_nil, rfl, rfl, rfl⟩

/-- A match whose file cannot be opened is left out. -/
theorem Visited.unopened {e : BackendFailure} (hopen : o.openFile log s.location.path = .error e)
    (h : Visited o context rest
      (log ++ [.openFile s.location.path (.error e)] ++ [.note (unopenedNote s e)]) visits result
      events) :
    Visited o context (s :: rest) log (.unopened s e :: visits)
      (result.map fun (blocks, skipped) => (blocks, skipped + 1))
      ([.openFile s.location.path (.error e)] ++ ([.note (unopenedNote s e)] ++ events)) := by
  have hcall : Ran (o.surroundings.openFile s.location.path) log (.error e)
      [.openFile s.location.path (.error e)] := .answered hopen
  refine ⟨hcall.bind ((ran_note o (unopenedNote s e) _).bind h.ran.map),
    h.follows.cons (.unopened s e) rfl trivial, ?_, ?_, ?_⟩
  · rw [outcomeOf_cons context rfl, ← h.outcome]
    cases result <;> rfl
  · rw [backendCalls_append, backendCalls_append, h.calls]
    rfl
  · rw [reads_append, reads_append, h.files]
    rfl

/-- References that cannot be found end the query. -/
theorem visited_failed {e : BackendFailure} (hopen : o.openFile log s.location.path = .ok ())
    (hfail : o.references (log ++ [.openFile s.location.path (.ok ())]) s.location false =
      .error e) :
    Visited o context (s :: rest) log [.failed s e] (.error (.search .references e))
      ([.openFile s.location.path (.ok ())] ++ [.references s.location false (.error e)]) := by
  have hcall : Ran (o.surroundings.openFile s.location.path) log (.ok ())
      [.openFile s.location.path (.ok ())] := .answered hopen
  have hask : Ran (o.surroundings.references s.location false)
      (log ++ [.openFile s.location.path (.ok ())]) (.error e)
      [.references s.location false (.error e)] := .answered hfail
  exact ⟨hcall.bind (hask.bind .pure), follows_failed s rest e, rfl, rfl, rfl⟩

/-- The references to a match are shown, in front of those to the matches behind it. -/
theorem Visited.shown {references : List Location} {files : List (String × Except String String)}
    {own : List Event} (hopen : o.openFile log s.location.path = .ok ())
    (hask : o.references (log ++ [.openFile s.location.path (.ok ())]) s.location false =
      .ok references)
    (hcomplete : (Visit.shown s references files).Complete)
    (hshow : Ran (showFiles o.surroundings context (byFile references)) (askedLog log s references)
      (((Visit.shown s references files).blocks context).map Listing.text) own)
    (hcalls : backendCalls own = []) (hreads : reads own = (Visit.shown s references files).reads)
    (h : Visited o context rest (askedLog log s references ++ own) visits result events) :
    Visited o context (s :: rest) log (.shown s references files :: visits)
      (result.map fun (blocks, skipped) =>
        (((Visit.shown s references files).blocks context).map Listing.text ++ blocks, skipped))
      ([.openFile s.location.path (.ok ())] ++ ([.references s.location false (.ok references)] ++
        ([.note (countNote s references)] ++ (own ++ events)))) := by
  have hcall : Ran (o.surroundings.openFile s.location.path) log (.ok ())
      [.openFile s.location.path (.ok ())] := .answered hopen
  have hasked : Ran (o.surroundings.references s.location false)
      (log ++ [.openFile s.location.path (.ok ())]) (.ok references)
      [.references s.location false (.ok references)] := .answered hask
  refine ⟨hcall.bind (hasked.bind ((ran_note o (countNote s references) _).bind
    (hshow.bind h.ran.map))), h.follows.cons (.shown s references files) rfl hcomplete, ?_, ?_, ?_⟩
  · rw [outcomeOf_cons context rfl, ← h.outcome]
    cases result <;> rfl
  · simp only [backendCalls_append, hcalls, h.calls]
    rfl
  · simp only [reads_append, hreads, h.files]
    rfl

/-- The visits end with the failure of one of them, or with all their blocks. -/
theorem Visited.result_cases (h : Visited o context rest log visits result events) :
    (∃ e, visits.findSome? Visit.failure? = some e ∧ result = .error (.search .references e)) ∨
    (∃ skipped, visits.findSome? Visit.failure? = none ∧
      result = .ok ((visits.flatMap (Visit.blocks context)).map Listing.text, skipped)) := by
  have houtcome := h.outcome
  unfold outcomeOf at houtcome
  cases hfailure : visits.findSome? Visit.failure? with
  | some e =>
    rw [hfailure] at houtcome
    cases result with
    | ok r => cases houtcome
    | error e' =>
      cases houtcome
      exact .inl ⟨e, rfl, rfl⟩
  | none =>
    rw [hfailure] at houtcome
    cases result with
    | error e => cases houtcome
    | ok r =>
      have hblocks : r.1 = (visits.flatMap (Visit.blocks context)).map Listing.text :=
        Except.ok.inj houtcome
      exact .inr ⟨r.2, rfl, by rw [← hblocks]⟩

section
variable (query : String) (payload : Json) {found : List Hit} {tail : List Event}

/-- With the search in front and a remark behind, the calls are the search and those of the
visits. -/
theorem Visited.backendCalls_query (h : Visited o context found log visits result events)
    (htail : backendCalls tail = []) :
    backendCalls ((.symbol query (.ok payload) :: found.map matchNote) ++ (events ++ tail)) =
      .symbol query (.ok payload) :: visits.flatMap Visit.backendCalls := by
  rw [backendCalls_append, backendCalls_append, backendCalls_found, h.calls, htail,
    List.append_nil, List.singleton_append]

theorem Visited.reads_query (h : Visited o context found log visits result events)
    (htail : reads tail = []) :
    reads ((.symbol query (.ok payload) :: found.map matchNote) ++ (events ++ tail)) =
      visits.flatMap Visit.reads := by
  rw [reads_append, reads_append, reads_found, h.files, htail, List.append_nil, List.nil_append]

end

end

/-- **The matches are visited.** -/
theorem exists_visited (found : List Hit) (log : List Event) :
    ∃ visits result events, Visited o context found log visits result events := by
  induction found generalizing log with
  | nil => exact ⟨[], _, [], visited_nil log⟩
  | cons s rest ih =>
    cases hopen : o.openFile log s.location.path with
    | error e =>
      obtain ⟨visits, result, events, h⟩ := ih
        (log ++ [.openFile s.location.path (.error e)] ++ [.note (unopenedNote s e)])
      exact ⟨_, _, _, h.unopened hopen⟩
    | ok u =>
      cases hask : o.references (log ++ [.openFile s.location.path (.ok ())]) s.location false with
      | error e => exact ⟨_, _, _, visited_failed hopen hask⟩
      | ok references =>
        obtain ⟨files, own, hcomplete, hshow, hcalls, hreads⟩ :=
          ran_showFiles_byFile o context references s (askedLog log s references)
        obtain ⟨visits, result, events, h⟩ := ih (askedLog log s references ++ own)
        exact ⟨_, _, _, h.shown hopen hask hcomplete hshow hcalls hreads⟩

/-- The counts in the headers add up to the references that were found. -/
theorem sum_counts_visits {visits : List Visit} (h : ∀ v ∈ visits, v.Complete) :
    ((visits.flatMap (Visit.blocks context)).map Listing.count).sum =
      (visits.map Visit.total).sum := by
  have hone : ∀ v ∈ visits, ((v.blocks context).map Listing.count).sum = v.total := by
    intro v hv
    have hcomplete := h v hv
    cases v with
    | unopened hit e => rfl
    | failed hit e => rfl
    | shown hit references files =>
      have hcount : ∀ f : String × Except String String,
          (blockOf context (inFile references f.1) f.2).count = (inFile references f.1).length := by
        rintro ⟨uri, answer⟩
        cases answer <;> rfl
      have hsum := sum_counts hcomplete
      rw [List.map_map] at hsum
      rw [Visit.blocks, List.map_map, Visit.total]
      simpa only [Function.comp_def, hcount] using hsum
  induction visits with
  | nil => rfl
  | cons v visits ih =>
    rw [List.flatMap_cons, List.map_append, List.sum_append, List.map_cons, List.sum_cons,
      hone v List.mem_cons_self, ih (fun x hx => h x (List.mem_cons_of_mem v hx))
        fun x hx => hone x (List.mem_cons_of_mem v hx)]

/-! ## The whole query -/

/-- **How a query for references ends**, whatever is answered to each call: the search fails; its
answer cannot be decoded; or the matches are visited in order. Then the calls and the files read
are those of the visits, and the answer is the failure of the visit that failed, or else all the
blocks, one for each match and file. The counts in their headers add up to the references that were
found. -/
theorem references_outcome (query : String) :
    ∃ answer events, (references o.surroundings query context).run [] = (answer, events) ∧
      ((∃ e, backendCalls events = [.symbol query (.error e)] ∧
          answer = .error (.search .symbol e)) ∨
       (∃ payload e, accepted query payload = .error e ∧
          backendCalls events = [.symbol query (.ok payload)] ∧
          answer = .error (.results e.message)) ∨
       (∃ payload found visits, accepted query payload = .ok found ∧ Follows found visits ∧
          backendCalls events =
            .symbol query (.ok payload) :: visits.flatMap Visit.backendCalls ∧
          reads events = visits.flatMap Visit.reads ∧
          ((visits.flatMap (Visit.blocks context)).map Listing.count).sum =
            (visits.map Visit.total).sum ∧
          answer = match visits.findSome? Visit.failure? with
            | some e => .error (.search .references e)
            | none => .ok (if visits.flatMap (Visit.blocks context) = []
                then "No references found for symbol: " ++ query
                else Text.join "\n"
                  ((visits.flatMap (Visit.blocks context)).map Listing.text)))) := by
  rcases ran_search o query [] with ⟨e, hsearch⟩ | ⟨payload, e, haccepted, hsearch⟩ |
    ⟨payload, found, haccepted, hsearch⟩
  · exact ⟨_, _, hsearch.bind .pure, .inl ⟨e, rfl, rfl⟩⟩
  · exact ⟨_, _, hsearch.bind .pure, .inr (.inl ⟨payload, e, haccepted, rfl, rfl⟩)⟩
  · obtain ⟨visits, result, events, h⟩ := exists_visited o context found
      (.symbol query (.ok payload) :: found.map matchNote)
    have hsum := sum_counts_visits context h.follows.complete
    rcases h.result_cases with ⟨e, hfailure, rfl⟩ | ⟨skipped, hfailure, rfl⟩
    · refine ⟨_, _, hsearch.bind (h.ran.bind .pure), .inr (.inr ⟨payload, found, visits, haccepted,
        h.follows, h.backendCalls_query query payload rfl, h.reads_query query payload rfl, hsum,
        ?_⟩)⟩
      rw [hfailure]
    · have hnote := ran_noteSkipped o "references" query skipped found.length
        ((.symbol query (.ok payload) :: found.map matchNote) ++ events)
      refine ⟨_, _, hsearch.bind (h.ran.bind hnote.map), .inr (.inr ⟨payload, found, visits,
        haccepted, h.follows,
        h.backendCalls_query query payload (backendCalls_skippedNotes _ _ _ _),
        h.reads_query query payload (reads_skippedNotes _ _ _ _), hsum, ?_⟩)⟩
      rw [hfailure, referencesText]
      simp only [List.isEmpty_iff, List.map_eq_nil_iff]

end SymbolContext.Query
