import SymbolContext.Proofs.Trace
import SymbolContext.Query.Matches

/-!
# Surroundings that answer as they like

An oracle answers every call of a query with whatever it likes, knowing all that has happened
before. What happens is a list of events: each call with the answer to it, and each remark. A query
is followed step by step with `Ran.bind` and one lemma for each kind of call.

* `ran_search`: how a search ends, and the events of it.
-/

namespace SymbolContext.Query

open Trace (Ran answered)

/-- What happens in a query: a call with its answer, or a remark. -/
inductive Event where
  | symbol (query : String) (answer : Except BackendFailure Json)
  | openFile (path : String) (answer : Except BackendFailure Unit)
  | references (place : Location) (declaration : Bool)
      (answer : Except BackendFailure (List Location))
  | definition (place : Location) (answer : Except BackendFailure Definition.Result)
  | readText (path : String) (answer : Except String String)
  | note (d : Diagnostic)

namespace Event

/-- A call to the source of symbols. -/
def isBackendCall : Event → Bool
  | symbol _ _ => true
  | openFile _ _ => true
  | references _ _ _ => true
  | definition _ _ => true
  | readText _ _ => false
  | note _ => false

/-- A file is read. -/
def isRead : Event → Bool
  | readText _ _ => true
  | _ => false

end Event

/-- The calls to the source of symbols. -/
def backendCalls (events : List Event) : List Event := events.filter Event.isBackendCall

/-- The files that are read. -/
def reads (events : List Event) : List Event := events.filter Event.isRead

@[simp] theorem backendCalls_append (a b : List Event) :
    backendCalls (a ++ b) = backendCalls a ++ backendCalls b := List.filter_append a b

@[simp] theorem reads_append (a b : List Event) : reads (a ++ b) = reads a ++ reads b :=
  List.filter_append a b

/-- **An oracle.** Its answer to a call may depend on all events before it. -/
structure Oracle where
  symbol : List Event → String → Except BackendFailure Json
  openFile : List Event → String → Except BackendFailure Unit
  references : List Event → Location → Bool → Except BackendFailure (List Location)
  definition : List Event → Location → Except BackendFailure Definition.Result
  readText : List Event → String → Except String String

/-- The oracle as the surroundings of a query. -/
def Oracle.surroundings (o : Oracle) : Surroundings (StateM (List Event)) where
  symbol := fun query => answered (.symbol query) (o.symbol · query)
  openFile := fun path => answered (.openFile path) (o.openFile · path)
  references := fun l declaration =>
    answered (.references l declaration) (o.references · l declaration)
  definition := fun l => answered (.definition l) (o.definition · l)
  readText := fun path => answered (.readText path) (o.readText · path)
  note := fun d => answered (fun _ => .note d) fun _ => ()

theorem ran_note (o : Oracle) (d : Diagnostic) (log : List Event) :
    Ran (o.surroundings.note d) log () [.note d] := rfl

/-! ## Finding matches -/

/-- The remark on a match. -/
def matchNote (s : Hit) : Event :=
  .note ⟨.debug, "matcher", "Found symbol: " ++ s.name ++ " at " ++ s.location.compact⟩

theorem ran_noteMatches (o : Oracle) (found : List Hit) (log : List Event) :
    Ran (noteMatches o.surroundings found) log () (found.map matchNote) := by
  induction found generalizing log with
  | nil => exact .pure
  | cons s rest ih => exact (ran_note o _ log).bind (ih _)

theorem ran_search_of_ok {o : Oracle} {query : String} {log : List Event} {payload : Json}
    (h : o.symbol log query = .ok payload) :
    (∃ e, accepted query payload = .error e ∧
      Ran (search o.surroundings query) log (.error (.results e.message))
        [.symbol query (.ok payload)]) ∨
    (∃ found, accepted query payload = .ok found ∧
      Ran (search o.surroundings query) log (.ok found)
        (.symbol query (.ok payload) :: found.map matchNote)) := by
  have hcall : Ran (o.surroundings.symbol query) log (.ok payload)
      [.symbol query (.ok payload)] := .answered h
  cases hfound : accepted query payload with
  | error e =>
    refine .inl ⟨e, rfl, hcall.bind ?_⟩
    dsimp only
    rw [hfound]
    exact .pure
  | ok found =>
    refine .inr ⟨found, rfl, hcall.bind ?_⟩
    dsimp only
    rw [hfound]
    exact (ran_noteMatches o found _).map

/-- **How a search ends**: it fails, its answer cannot be decoded, or it gives the matches. -/
theorem ran_search (o : Oracle) (query : String) (log : List Event) :
    (∃ e, Ran (search o.surroundings query) log (.error (.search .symbol e))
      [.symbol query (.error e)]) ∨
    (∃ payload e, accepted query payload = .error e ∧
      Ran (search o.surroundings query) log (.error (.results e.message))
        [.symbol query (.ok payload)]) ∨
    (∃ payload found, accepted query payload = .ok found ∧
      Ran (search o.surroundings query) log (.ok found)
        (.symbol query (.ok payload) :: found.map matchNote)) := by
  cases hanswer : o.symbol log query with
  | error e =>
    have hcall : Ran (o.surroundings.symbol query) log (.error e) [.symbol query (.error e)] :=
      .answered hanswer
    exact .inl ⟨e, hcall.bind .pure⟩
  | ok payload =>
    rcases ran_search_of_ok hanswer with ⟨e, hfound, hran⟩ | ⟨found, hfound, hran⟩
    · exact .inr (.inl ⟨payload, e, hfound, hran⟩)
    · exact .inr (.inr ⟨payload, found, hfound, hran⟩)

/-- The remark on matches that were skipped, if there are some. -/
def skippedNotes (component query : String) (skipped total : Nat) : List Event :=
  if skipped = 0 then []
  else [.note ⟨.warn, component, Decimal.text skipped ++ " of " ++ Decimal.text total ++
    " matches for " ++ query ++ " skipped"⟩]

theorem ran_noteSkipped (o : Oracle) (component query : String) (skipped total : Nat)
    (log : List Event) :
    Ran (noteSkipped o.surroundings component query skipped total) log ()
      (skippedNotes component query skipped total) := by
  unfold noteSkipped skippedNotes
  split
  · exact .pure
  · exact ran_note o _ log

/-- Of the events of a search that gives matches, the search is the only call. -/
theorem backendCalls_found (query : String) (payload : Json) (found : List Hit) :
    backendCalls (.symbol query (.ok payload) :: found.map matchNote) =
      [.symbol query (.ok payload)] := by
  have hnotes : backendCalls (found.map matchNote) = [] := by
    simp [backendCalls, matchNote, Event.isBackendCall]
  exact congrArg (List.cons _) hnotes

theorem reads_found (query : String) (payload : Json) (found : List Hit) :
    reads (.symbol query (.ok payload) :: found.map matchNote) = [] := by
  simp [reads, matchNote, Event.isRead]

theorem backendCalls_skippedNotes (component query : String) (skipped total : Nat) :
    backendCalls (skippedNotes component query skipped total) = [] := by
  unfold skippedNotes
  split <;> rfl

theorem reads_skippedNotes (component query : String) (skipped total : Nat) :
    reads (skippedNotes component query skipped total) = [] := by
  unfold skippedNotes
  split <;> rfl

end SymbolContext.Query
