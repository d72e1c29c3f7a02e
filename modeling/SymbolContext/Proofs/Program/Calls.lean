import SymbolContext.Program

/-!
# Calls one after another

Queries and the warm-up make calls to their surroundings, one after another, and do nothing else.
So whatever holds of each of these calls, and is kept when one computation follows another
(`Sequential`), holds of them as well.

* `Sequential.definitions`, `Sequential.references`: **both queries are made of their calls**, along
  the recursion over the matches and the files;
* `Sequential.warmUp`: and so is **the warm-up**.
-/

namespace SymbolContext

/-- **A property of computations that sequencing keeps.** -/
structure Sequential (m : Type → Type) [Monad m] where
  holds : ∀ {α : Type}, m α → Prop
  pure : ∀ {α : Type} (a : α), holds (Pure.pure a)
  bind : ∀ {α β : Type} {x : m α} {f : α → m β}, holds x → (∀ a, holds (f a)) → holds (x >>= f)

namespace Sequential

variable {m : Type → Type} [Monad m] (S : Sequential m)

/-- The calls of a source of symbols have the property. -/
structure OfBackend (b : Backend m) : Prop where
  symbol : ∀ query, S.holds (b.symbol query)
  openFile : ∀ path, S.holds (b.openFile path)
  references : ∀ l declaration, S.holds (b.references l declaration)
  definition : ∀ l, S.holds (b.definition l)

structure OfSurroundings (env : Surroundings m) : Prop extends S.OfBackend env.toBackend where
  readText : ∀ path, S.holds (env.readText path)
  note : ∀ d, S.holds (env.note d)

structure OfMeans (env : WarmUp.Means m) : Prop extends S.OfBackend env.toBackend where
  treeAt : ∀ path, S.holds (env.treeAt path)
  pause : ∀ d, S.holds (env.pause d)
  note : ∀ d, S.holds (env.note d)

variable {S}

/-- Opening a file sends a notice or does nothing. -/
theorem sync {δ : Type} [DecidableEq δ] (digest : String → δ)
    {send : FileNotice → m (Except ClientFailure Unit)} (h : ∀ n, S.holds (send n))
    (path content : String) (o : OpenFiles δ) :
    S.holds (o.sync digest send path content) := by
  unfold OpenFiles.sync
  split
  · exact S.pure _
  · cases Uri.ofPath path with
    | error e => exact S.pure _
    | ok uri =>
      refine S.bind (h _) fun sent => ?_
      cases sent with
      | error e => exact S.pure _
      | ok u => exact S.pure _

/-! ## Queries -/

section
variable {env : Surroundings m} (h : S.OfSurroundings env)
include h

theorem noteMatches (found : List Hit) : S.holds (Query.noteMatches env found) := by
  induction found with
  | nil => exact S.pure _
  | cons s rest ih => exact S.bind (h.note _) fun _ => ih

theorem search (query : String) : S.holds (Query.search env query) := by
  refine S.bind (h.symbol query) fun answer => ?_
  cases answer with
  | error e => exact S.pure _
  | ok payload =>
    dsimp only
    cases Query.accepted query payload with
    | error e => exact S.pure _
    | ok found => exact S.bind (noteMatches h found) fun _ => S.pure _

theorem noteSkipped (component query : String) (skipped total : Nat) :
    S.holds (Query.noteSkipped env component query skipped total) := by
  unfold Query.noteSkipped
  split
  · exact S.pure _
  · exact h.note _

theorem definitionOf (s : Hit) : S.holds (Query.definitionOf env s) := by
  refine S.bind (h.openFile _) fun opened => ?_
  cases opened with
  | error e => exact S.pure _
  | ok u =>
    refine S.bind (h.definition _) fun found => ?_
    cases found with
    | error e => exact S.pure _
    | ok d => exact S.pure _

theorem definitionBlocks (found : List Hit) : S.holds (Query.definitionBlocks env found) := by
  induction found with
  | nil => exact S.pure _
  | cons s rest ih =>
    refine S.bind (definitionOf h s) fun block => ?_
    cases block with
    | ok block => exact S.bind ih fun _ => S.pure _
    | error e => exact S.bind (h.note _) fun _ => S.bind ih fun _ => S.pure _

theorem definitions (query : String) : S.holds (Query.definitions env query) := by
  refine S.bind (search h query) fun found => ?_
  cases found with
  | error e => exact S.pure _
  | ok found =>
    refine S.bind (definitionBlocks h found) fun blocks => ?_
    exact S.bind (noteSkipped h _ _ _ _) fun _ => S.pure _

theorem showFile (context : Nat) (references : List Location) :
    S.holds (Query.showFile env context references) := by
  refine S.bind (h.readText _) fun text => ?_
  cases text with
  | ok text => exact S.pure _
  | error reason => exact S.bind (h.note _) fun _ => S.pure _

theorem showFiles (context : Nat) (groups : Query.Groups) :
    S.holds (Query.showFiles env context groups) := by
  induction groups with
  | nil => exact S.pure _
  | cons g rest ih =>
    exact S.bind (showFile h context g.2) fun _ => S.bind ih fun _ => S.pure _

theorem referenceBlocks (context : Nat) (found : List Hit) :
    S.holds (Query.referenceBlocks env context found) := by
  induction found with
  | nil => exact S.pure _
  | cons s rest ih =>
    refine S.bind (h.openFile _) fun opened => ?_
    cases opened with
    | error e => exact S.bind (h.note _) fun _ => S.bind ih fun _ => S.pure _
    | ok u =>
      refine S.bind (h.references _ _) fun references => ?_
      cases references with
      | error e => exact S.pure _
      | ok references =>
        refine S.bind (h.note _) fun _ => S.bind (showFiles h context _) fun _ => ?_
        exact S.bind ih fun _ => S.pure _

theorem references (query : String) (context : Nat) :
    S.holds (Query.references env query context) := by
  refine S.bind (search h query) fun found => ?_
  cases found with
  | error e => exact S.pure _
  | ok found =>
    refine S.bind (referenceBlocks h context found) fun blocks => ?_
    cases blocks with
    | error e => exact S.pure _
    | ok blocks => exact S.bind (noteSkipped h _ _ _ _) fun _ => S.pure _

theorem answer (command : CommandLine.Command) (contextLines : Nat) :
    S.holds (Program.answer env command contextLines) := by
  cases command with
  | definition symbol => exact definitions h symbol
  | references symbol lines => exact references h symbol contextLines

end

/-! ## Warming up -/

section
variable {env : WarmUp.Means m} (h : S.OfMeans env)
include h

theorem ask (query : String) : S.holds (WarmUp.ask env query) := by
  refine S.bind (h.symbol query) fun answer => ?_
  cases answer with
  | ok payload => exact h.note _
  | error e => exact h.note _

theorem loadIndex (s : WarmUpSettings) : S.holds (WarmUp.loadIndex s env) := by
  refine S.bind (h.note _) fun _ => S.bind (ask h _) fun _ => ?_
  exact S.bind (h.pause _) fun _ => ask h _

theorem noteAll (remarks : List Diagnostic) : S.holds (WarmUp.noteAll env remarks) := by
  induction remarks with
  | nil => exact S.pure _
  | cons d rest ih => exact S.bind (h.note d) fun _ => ih

theorem openFirst (s : WarmUpSettings) (wanted : Nat) (paths : List String) :
    S.holds (WarmUp.openFirst s env wanted paths) := by
  induction paths generalizing wanted with
  | nil => exact S.pure _
  | cons path rest ih =>
    cases wanted with
    | zero => exact S.pure _
    | succ more =>
      refine S.bind (h.openFile path) fun opened => ?_
      cases opened with
      | error e => exact S.bind (h.note _) fun _ => ih (more + 1)
      | ok u =>
        refine S.bind (h.note _) fun _ => S.bind (h.pause _) fun _ => ?_
        exact S.bind (ih more) fun _ => S.pure _

theorem openSources (s : WarmUpSettings) (root : String) :
    S.holds (WarmUp.openSources s env root) := by
  refine S.bind (h.treeAt root) fun tree => S.bind (noteAll h _) fun _ => ?_
  refine S.bind (h.note _) fun _ => S.bind (openFirst h s _ _) fun _ => ?_
  exact h.note _

theorem warmUp (serverName : String) (s : WarmUpSettings) (root : String) :
    S.holds (WarmUp.warmUp serverName s env root) := by
  unfold WarmUp.warmUp
  split
  · exact S.bind (loadIndex h s) fun _ => openSources h s root
  · exact S.pure _

end

end Sequential

end SymbolContext
