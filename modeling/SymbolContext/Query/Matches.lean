import SymbolContext.Query.Backend

/-!
# Finding matches

The symbols that answer a query, in the order of the backend.
-/

namespace SymbolContext.Query

variable {m : Type → Type} [Monad m]

/-- Remark on every match. -/
def noteMatches (env : Surroundings m) : List Hit → m Unit
  | [] => pure ()
  | s :: rest => do
    env.note ⟨.debug, "matcher", "Found symbol: " ++ s.name ++ " at " ++ s.location.compact⟩
    noteMatches env rest

/-- The matches for `query` in a search result. -/
def accepted (query : String) (payload : Json) : Except DecodeError (List Hit) :=
  (Hit.listOfJson payload).map fun ms => ms.filter (Hit.accepts query)

/-- The matches for `query`. -/
def search (env : Surroundings m) (query : String) :
    m (Except QueryFailure (List Hit)) := do
  match ← env.symbol query with
  | .error e => return .error (.search .symbol e)
  | .ok payload =>
    match accepted query payload with
    | .error e => return .error (.results e.message)
    | .ok found =>
      noteMatches env found
      return .ok found

/-- Remark on the matches that were skipped, if there are some. -/
def noteSkipped (env : Surroundings m) (component query : String) (skipped total : Nat) :
    m Unit :=
  if skipped = 0 then pure ()
  else
    env.note ⟨.warn, component, Decimal.text skipped ++ " of " ++ Decimal.text total ++
      " matches for " ++ query ++ " skipped"⟩

end SymbolContext.Query
