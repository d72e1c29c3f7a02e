import SymbolContext.Proofs.Query.Oracle
import SymbolContext.WarmUp

/-!
# The files that a warm-up opens

A warm-up asks two queries and then tries files, one after another, until enough of them are open.
The source of symbols answers as it likes, knowing all that has happened before. `tries` is what it
answers if no file is left out, so it says which files would open.

* `upTo` cuts tries off behind the one that makes them enough: an initial part
  (`upTo_prefix`) with **as many open files as wanted or as there are** (`opened_upTo`), **no
  shorter part has as many** (`length_upTo_le`), and **nothing is cut off in vain**
  (`upTo_eq_self`).
* `ran_openFirst`: by induction on the candidates, **the tries that are made are those**, each with
  one remark.
* `warmUp_opens_shortest`: from this, what a whole warm-up does.
-/

namespace SymbolContext.WarmUp

open Query (Oracle Event backendCalls)
open Trace (Ran)

/-- A call with the answer to it. -/
abbrev Asked (α : Type) := String × Except BackendFailure α

def failed {α : Type} (a : Asked α) : Bool :=
  match a.2 with
  | .ok _ => false
  | .error _ => true

/-- The remark on a query. -/
def queryRemark : Asked Json → Diagnostic
  | (query, .ok _) => remark .debug ("Warm-up query " ++ Text.quoted query ++ " completed")
  | (query, .error e) =>
    remark .warn ("Warm-up query " ++ Text.quoted query ++ " failed: " ++ e.message)

/-- The remark on a file that was tried. -/
def openRemark : Asked Unit → Diagnostic
  | (path, .ok _) => remark .debug ("Opened " ++ path)
  | (path, .error e) => remark .warn ("Failed to open " ++ path ++ ": " ++ e.message)

def queryEvents (q : Asked Json) : List Event := [.symbol q.1 q.2, .note (queryRemark q)]

def openEvents (t : Asked Unit) : List Event := [.openFile t.1 t.2, .note (openRemark t)]

/-- The warnings among some events. -/
def warnings (events : List Event) : List Diagnostic :=
  events.filterMap fun
    | .note d => if d.level = .warn then some d else none
    | _ => none

/-- The files with the answers they get if all of them are tried. -/
def tries (o : Oracle) (log : List Event) : List String → List (Asked Unit)
  | [] => []
  | path :: rest =>
    let t := (path, o.openFile log path)
    t :: tries o (log ++ openEvents t) rest

/-- How many files are open after some tries. -/
def opened (ts : List (Asked Unit)) : Nat := ts.countP fun t => !failed t

/-- The oracle as what a warm-up needs, with a tree at every path. -/
def means (o : Oracle) (tree : String → Except String FileTree) : Means (StateM (List Event)) where
  toBackend := o.surroundings.toBackend
  treeAt := fun path => pure (tree path)
  pause := fun _ => pure ()
  note := o.surroundings.note

/-! ## Enough tries -/

/-- The first tries, up to the one that makes `wanted` open files. -/
def upTo : Nat → List (Asked Unit) → List (Asked Unit)
  | 0, _ => []
  | _ + 1, [] => []
  | more + 1, t :: rest => t :: upTo (if failed t then more + 1 else more) rest

section
variable {wanted : Nat} {t : Asked Unit} {ts ts' : List (Asked Unit)}

theorem opened_cons : opened (t :: ts) = opened ts + if failed t then 0 else 1 := by
  cases h : failed t <;> simp [opened, h]

theorem upTo_prefix : upTo wanted ts <+: ts := by
  fun_induction upTo wanted ts with
  | case1 ts => exact List.nil_prefix
  | case2 more => exact List.prefix_refl []
  | case3 more t rest ih => exact (List.prefix_cons_inj t).2 ih

theorem opened_upTo : opened (upTo wanted ts) = min wanted (opened ts) := by
  fun_induction upTo wanted ts with
  | case1 ts => simp [opened]
  | case2 more => simp [opened]
  | case3 more t rest ih =>
    rw [opened_cons, opened_cons, ih]
    cases failed t <;> simp [Nat.add_min_add_right]

/-- **Every part with as many open files is at least as long.** -/
theorem length_upTo_le (h : ts' <+: ts) (hopened : wanted ≤ opened ts') :
    (upTo wanted ts).length ≤ ts'.length := by
  fun_induction upTo wanted ts generalizing ts' with
  | case1 ts => exact Nat.zero_le _
  | case2 more => exact Nat.zero_le _
  | case3 more t rest ih =>
    cases ts' with
    | nil => simp [opened] at hopened
    | cons t' rest' =>
      obtain ⟨hsame, hrest⟩ := List.cons_prefix_cons.1 h
      rw [opened_cons, hsame] at hopened
      have hle := ih hrest (by cases hfailed : failed t <;> simp [hfailed] at hopened ⊢ <;> omega)
      simp only [List.length_cons]
      omega

theorem upTo_eq_self (h : opened (upTo wanted ts) ≠ wanted) : upTo wanted ts = ts := by
  fun_induction upTo wanted ts with
  | case1 ts => exact absurd rfl h
  | case2 more => rfl
  | case3 more t rest ih =>
    rw [opened_cons] at h
    rw [ih]
    cases hfailed : failed t <;> simp [hfailed] at h ⊢ <;> omega

end

/-! ## Following a warm-up -/

section
variable (o : Oracle) (tree : String → Except String FileTree)

theorem map_tries (log : List Event) (paths : List String) :
    (tries o log paths).map Prod.fst = paths := by
  induction paths generalizing log with
  | nil => rfl
  | cons path rest ih => simp [tries, ih]

theorem ran_note (d : Diagnostic) (log : List Event) :
    Ran ((means o tree).note d) log () [.note d] := rfl

theorem ran_ask (query : String) (log : List Event) :
    Ran (ask (means o tree) query) log () (queryEvents (query, o.symbol log query)) := by
  have hcall : Ran ((means o tree).symbol query) log (o.symbol log query)
      [.symbol query (o.symbol log query)] := .answered rfl
  refine hcall.bind ?_
  cases o.symbol log query with
  | ok payload => exact ran_note o tree _ _
  | error e => exact ran_note o tree _ _

theorem ran_noteAll (ds : List Diagnostic) (log : List Event) :
    Ran (noteAll (means o tree) ds) log () (ds.map .note) := by
  induction ds generalizing log with
  | nil => exact .pure
  | cons d rest ih => exact (ran_note o tree d log).bind (ih _)

theorem ran_loadIndex (s : WarmUpSettings) (log : List Event) :
    ∃ first second, Ran (loadIndex s (means o tree)) log ()
      (.note (remark .info "Warming up static index") ::
        queryEvents ("::", first) ++ queryEvents ("", second)) := by
  have hran : Ran (loadIndex s (means o tree)) log () _ :=
    (ran_note o tree _ log).bind <| (ran_ask o tree "::" _).bind <|
      Ran.silent .pure <| ran_ask o tree "" _
  exact ⟨_, _, hran⟩

variable {o tree} {s : WarmUpSettings} {more n : Nat} {path : String} {rest : List String}
  {log events : List Event}

/-- A file that does not open counts for nothing. -/
theorem ran_openFirst_of_error {e : BackendFailure} (h : o.openFile log path = .error e)
    (hrest : Ran (openFirst s (means o tree) (more + 1) rest) (log ++ openEvents (path, .error e))
      n events) :
    Ran (openFirst s (means o tree) (more + 1) (path :: rest)) log n
      (openEvents (path, .error e) ++ events) := by
  have hcall : Ran ((means o tree).openFile path) log (.error e) [.openFile path (.error e)] :=
    .answered h
  refine hcall.bind ((ran_note o tree _ _).bind ?_)
  rw [List.append_assoc]
  exact hrest

theorem ran_openFirst_of_ok {u : Unit} (h : o.openFile log path = .ok u)
    (hrest : Ran (openFirst s (means o tree) more rest) (log ++ openEvents (path, .ok u))
      n events) :
    Ran (openFirst s (means o tree) (more + 1) (path :: rest)) log (n + 1)
      (openEvents (path, .ok u) ++ events) := by
  have hcall : Ran ((means o tree).openFile path) log (.ok u) [.openFile path (.ok u)] :=
    .answered h
  refine hcall.bind ((ran_note o tree _ _).bind (Ran.silent .pure ?_))
  rw [List.append_assoc]
  exact hrest.map

/-- **The tries that are made are the first ones, up to the one that makes them enough.** -/
theorem ran_openFirst (wanted : Nat) (paths : List String) (log : List Event) :
    Ran (openFirst s (means o tree) wanted paths) log
      (opened (upTo wanted (tries o log paths)))
      ((upTo wanted (tries o log paths)).flatMap openEvents) := by
  induction paths generalizing wanted log with
  | nil => cases wanted <;> exact .pure
  | cons path rest ih =>
    cases wanted with
    | zero => exact .pure
    | succ more =>
      simp only [tries, upTo, List.flatMap_cons, opened_cons]
      cases hanswer : o.openFile log path with
      | error e => exact ran_openFirst_of_error hanswer (ih (more + 1) _)
      | ok u => exact ran_openFirst_of_ok hanswer (ih more _)

/-- What is said of the files that were found. -/
def foundEvents (root : String) (found : List String × List Diagnostic) : List Event :=
  found.2.map .note ++
    [.note (remark .debug (Decimal.text found.1.length ++ " source files found under " ++ root))]

/-- The tries, and what is said at the end. -/
def triedEvents (tried : List (Asked Unit)) : List Event :=
  tried.flatMap openEvents ++
    [.note (remark .info ("Opened " ++ Decimal.text (opened tried) ++ " source files"))]

theorem ran_openSources {found : List String × List Diagnostic} {root : String}
    (hfound : collect s root (tree root) = found) (log : List Event) :
    Ran (openSources s (means o tree) root) log ()
      (foundEvents root found ++
        triedEvents (upTo s.maxFiles (tries o (log ++ foundEvents root found) found.1))) := by
  subst hfound
  have htree : Ran ((means o tree).treeAt root) log (tree root) [] := .pure
  have hopen : Ran (openFirst s (means o tree) s.maxFiles (collect s root (tree root)).1) _ _ _ :=
    ran_openFirst _ _ (log ++ foundEvents root (collect s root (tree root)))
  generalize upTo s.maxFiles _ = tried at hopen ⊢
  refine Ran.silent htree ?_
  rw [foundEvents, List.append_assoc]
  rw [foundEvents, ← List.append_assoc] at hopen
  exact (ran_noteAll o tree _ _).bind <| (ran_note o tree _ _).bind <|
    hopen.bind (ran_note o tree _ _)

/-- The events before the first try. -/
def front (root : String) (found : List String × List Diagnostic)
    (first second : Except BackendFailure Json) : List Event :=
  (.note (remark .info "Warming up static index") ::
    queryEvents ("::", first) ++ queryEvents ("", second)) ++ foundEvents root found

theorem ran_warmUp {serverName : String} (h : profits serverName = true)
    {found : List String × List Diagnostic} {root : String}
    (hfound : collect s root (tree root) = found) (log : List Event) :
    ∃ first second tried, tried = upTo s.maxFiles
        (tries o (log ++ front root found first second) found.1) ∧
      Ran (warmUp serverName s (means o tree) root) log ()
        (front root found first second ++ triedEvents tried) := by
  obtain ⟨first, second, hload⟩ := ran_loadIndex o tree s log
  refine ⟨first, second, _, rfl, ?_⟩
  unfold warmUp front
  rw [if_pos h, ← List.append_assoc log, List.append_assoc]
  exact hload.bind (ran_openSources hfound _)

end

/-! ## What a warm-up does -/

theorem backendCalls_openEvents (ts : List (Asked Unit)) :
    backendCalls (ts.flatMap openEvents) = ts.map fun t => .openFile t.1 t.2 := by
  induction ts with
  | nil => rfl
  | cons t rest ih =>
    rw [List.flatMap_cons, Query.backendCalls_append, ih]
    rfl

theorem backendCalls_notes (ds : List Diagnostic) : backendCalls (ds.map .note) = [] := by
  simp [backendCalls, Query.Event.isBackendCall]

theorem warnings_append (events more : List Event) :
    warnings (events ++ more) = warnings events ++ warnings more := List.filterMap_append

theorem warnings_queryEvents (q : Asked Json) :
    warnings (queryEvents q) = ([q].filter failed).map queryRemark := by
  obtain ⟨query, answer⟩ := q
  cases answer <;> rfl

theorem warnings_openEvents (ts : List (Asked Unit)) :
    warnings (ts.flatMap openEvents) = (ts.filter failed).map openRemark := by
  induction ts with
  | nil => rfl
  | cons t rest ih =>
    rw [List.flatMap_cons, warnings_append, ih]
    obtain ⟨path, answer⟩ := t
    cases answer <;> rfl

theorem warnings_collect (s : WarmUpSettings) (root : String) (tree : Except String FileTree) :
    warnings ((collect s root tree).2.map .note) = (collect s root tree).2 := by
  simp [warnings, collect, remark, Function.comp_def]

theorem backendCalls_front (root : String) (found : List String × List Diagnostic)
    (first second : Except BackendFailure Json) :
    backendCalls (front root found first second) = [.symbol "::" first, .symbol "" second] := by
  have hnotes : backendCalls (foundEvents root found) = [] := by
    rw [foundEvents, Query.backendCalls_append, backendCalls_notes]
    rfl
  rw [front, Query.backendCalls_append, hnotes]
  rfl

theorem warnings_front {found : List String × List Diagnostic}
    (h : warnings (found.2.map .note) = found.2) (root : String)
    (first second : Except BackendFailure Json) :
    warnings (front root found first second) =
      ([("::", first), ("", second)].filter failed).map queryRemark ++ found.2 := by
  have hinfo : warnings [.note (remark .info "Warming up static index")] = [] := rfl
  have hdebug : ∀ text, warnings [.note (remark .debug text)] = [] := fun _ => rfl
  rw [front, foundEvents, ← List.singleton_append]
  simp only [warnings_append, warnings_queryEvents, h, hinfo, hdebug, List.append_nil,
    List.nil_append]
  rw [← List.map_append, ← List.filter_append]
  rfl

theorem warnings_triedEvents (tried : List (Asked Unit)) :
    warnings (triedEvents tried) = (tried.filter failed).map openRemark := by
  rw [triedEvents, warnings_append, warnings_openEvents]
  exact List.append_nil _

/-- **How a warm-up goes** on some candidates, with complaints about what could not be read:
`first` and `second` are the answers to the two queries, `tried` the files that were tried with
the answers to them, and `all` all candidates with the answers they get if none is left out. -/
structure Course (s : WarmUpSettings) (candidates : List String) (complaints : List Diagnostic)
    (first second : Except BackendFailure Json) (tried all : List (Asked Unit))
    (events : List Event) : Prop where
  candidates_eq : all.map Prod.fst = candidates
  calls : backendCalls events =
    .symbol "::" first :: .symbol "" second :: tried.map fun t => .openFile t.1 t.2
  initial : tried <+: all
  opened_eq : opened tried = min s.maxFiles (opened all)
  shortest : opened tried = s.maxFiles →
    ∀ part, part <+: all → opened part = s.maxFiles → tried.length ≤ part.length
  none_wanted : s.maxFiles = 0 → tried = []
  whole : opened tried ≠ s.maxFiles → tried = all
  warned : warnings events = ([("::", first), ("", second)].filter failed).map queryRemark ++
    complaints ++ (tried.filter failed).map openRemark
  reported : events.getLast? =
    some (.note (remark .info ("Opened " ++ Decimal.text (opened tried) ++ " source files")))

/-- **A warm-up opens the shortest sufficient part of the candidates**, however the calls turn
out. -/
theorem warmUp_opens_shortest (o : Oracle) (tree : String → Except String FileTree)
    (s : WarmUpSettings) {serverName : String} (h : profits serverName = true) (root : String)
    (log : List Event) :
    ∃ front back first second tried,
      Ran (warmUp serverName s (means o tree) root) log () (front ++ back) ∧
      backendCalls front = [.symbol "::" first, .symbol "" second] ∧
      Course s (collect s root (tree root)).1 (collect s root (tree root)).2 first second tried
        (tries o (log ++ front) (collect s root (tree root)).1) (front ++ back) := by
  obtain ⟨found, hfound⟩ : ∃ found, collect s root (tree root) = found := ⟨_, rfl⟩
  obtain ⟨first, second, tried, htried, hran⟩ := ran_warmUp (o := o) (s := s) h hfound log
  have hcomplaints := warnings_collect s root (tree root)
  rw [hfound] at hcomplaints ⊢
  refine ⟨_, _, first, second, tried, hran, backendCalls_front root found first second, ?_⟩
  exact {
    candidates_eq := map_tries o _ _
    calls := by
      rw [Query.backendCalls_append, backendCalls_front, triedEvents, Query.backendCalls_append,
        backendCalls_openEvents]
      simp [backendCalls, Query.Event.isBackendCall]
    initial := htried ▸ upTo_prefix
    opened_eq := htried ▸ opened_upTo
    shortest := by
      intro _ part hpart hopened
      rw [htried]
      exact length_upTo_le hpart (Nat.le_of_eq hopened.symm)
    none_wanted := by
      intro hnone
      rw [htried, hnone, upTo]
    whole := by
      intro hfew
      rw [htried] at hfew ⊢
      exact upTo_eq_self hfew
    warned := by rw [warnings_append, warnings_front hcomplaints, warnings_triedEvents]
    reported := by simp [triedEvents] }

/-- Five files, of which three are wanted and the second does not open: the fifth is not tried. -/
theorem warmUp_opens_shortest_second_fails :
    let refused : BackendFailure := .client .notInitialized
    let answer := fun path => if path = "/w/b.cpp" then .error refused else .ok ()
    let o : Oracle := ⟨fun _ _ => .ok .null, fun _ path => answer path, fun _ _ _ => .error refused,
      fun _ _ => .error refused, fun _ _ => .error ""⟩
    let names := ["a.cpp", "b.cpp", "c.cpp", "d.cpp", "e.cpp"]
    let tree := fun _ => .ok (.dir (names.map fun name => (name, .file [])))
    profits "clangd-18" = true ∧
      ∃ events, Ran (warmUp "clangd-18" {} (means o tree) "/w") [] () events ∧
        (backendCalls events).drop 2 = ["/w/a.cpp", "/w/b.cpp", "/w/c.cpp", "/w/d.cpp"].map
          fun path => .openFile path (answer path) := by
  intro refused answer o names tree
  have hname : profits "clangd-18" = true := by decide
  let paths := ["/w/a.cpp", "/w/b.cpp", "/w/c.cpp", "/w/d.cpp", "/w/e.cpp"]
  have hfound : (collect {} "/w" (tree "/w")).1 = paths := by decide +kernel
  obtain ⟨front, back, first, second, tried, hran, -, hcourse⟩ :=
    warmUp_opens_shortest o tree {} hname "/w" []
  have hall : tries o ([] ++ front) paths = paths.map fun path => (path, answer path) := rfl
  rw [hfound, hall] at hcourse
  refine ⟨hname, front ++ back, hran, ?_⟩
  have hopened : opened tried = 3 := hcourse.opened_eq.trans (by decide +kernel)
  have hle : tried.length ≤ 4 :=
    hcourse.shortest hopened _ (List.take_prefix 4 _) (by decide +kernel)
  have htake := List.prefix_iff_eq_take.1 hcourse.initial
  have hlength : tried.length = 4 := by
    have hfew : ∀ n ≤ 4, opened ((paths.map fun path => (path, answer path)).take n) = 3 →
        n = 4 := by decide +kernel
    exact hfew _ hle (htake ▸ hopened)
  rw [hcourse.calls, htake, hlength]
  rfl

end SymbolContext.WarmUp
