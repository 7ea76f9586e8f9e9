import Recalc.Proofs.Explanations
import Recalc.Proofs.Session

/-!
# Workbooks that differ in explanations

Workbooks that differ in nothing but explanations of errors have the same graph, and so the same
schedule for every request. A pass over one of them that does not iterate cycles keeps step with the
pass over the other, and both deliver results that differ in nothing else
(`Workbook.Alike.unexplained`).
-/
namespace Recalc

/-! ### What formulas mention -/

namespace Formula

mutual

private theorem subtrees_bare : ∀ x : Formula, x.bare.subtrees = x.subtrees.map bare
  | literal _ => rfl
  | reference _ => rfl
  | unary op x => by simp [bare, subtrees, subtrees_bare x]
  | binary op l r => by simp [bare, subtrees, subtrees_bare l, subtrees_bare r]
  | call f args => by simp [bare, subtrees, subtreesOfList_bare args]
  | array rows => by simp [bare, subtrees, subtreesOfRows_bare rows]

private theorem subtreesOfList_bare :
    ∀ l : List Formula, subtreesOfList (bareList l) = (subtreesOfList l).map bare
  | [] => rfl
  | x :: rest => by simp [bareList, subtreesOfList, subtrees_bare x, subtreesOfList_bare rest]

private theorem subtreesOfRows_bare :
    ∀ rows : List (List Formula), subtreesOfRows (bareRows rows) = (subtreesOfRows rows).map bare
  | [] => rfl
  | row :: rest => by simp [bareRows, subtreesOfRows, subtreesOfList_bare row, subtreesOfRows_bare rest]

end

theorem references_bare (x : Formula) : x.bare.references = x.references := by
  rw [references, subtrees_bare, List.filterMap_map, references]
  refine congrArg (x.subtrees.filterMap ·) (funext fun y => ?_)
  cases y <;> rfl

theorem functionNames_bare (x : Formula) : x.bare.functionNames = x.functionNames := by
  rw [functionNames, subtrees_bare, List.filterMap_map, functionNames]
  refine congrArg (x.subtrees.filterMap ·) (funext fun y => ?_)
  cases y <;> rfl

end Formula

namespace CellFormula

/-- The formula with all literals of its tree laid bare. -/
def bare (f : CellFormula) : CellFormula :=
  { f with tree := f.tree.bare }

theorem precedents_bare (f : CellFormula) (book : Workbook) (home : Address) :
    f.bare.precedents book home = f.precedents book home := by
  simp only [precedents, bare, Formula.references_bare]

theorem isVolatile_bare (f : CellFormula) (lib : Library) : f.bare.isVolatile lib = f.isVolatile lib := by
  simp only [isVolatile, bare, Formula.functionNames_bare]

end CellFormula

/-! ### Workbooks -/

/-- Two workbooks that differ in nothing but explanations of errors, in stored values and in literals
of formulas. -/
structure Workbook.Alike (b other : Workbook) : Prop where
  sheets : b.sheets = other.sheets
  names : b.names = other.names
  values : ∀ a, (b.value a).bare = (other.value a).bare
  formulas : ∀ a, (b.formula? a).map CellFormula.bare = (other.formula? a).map CellFormula.bare

namespace Workbook.Alike

variable {b other : Workbook}

theorem viewWith (alike : b.Alike other) {value value' : Address → Value}
    (values : ∀ a, (value a).bare = (value' a).bare) (lib : Library) (now : Float) (seed : UInt64) :
    (b.viewWith value lib now seed).bare = (other.viewWith value' lib now seed).bare := by
  have sheetId : b.sheetId? = other.sheetId? := by
    funext unit name
    rw [Workbook.sheetId?, alike.sheets, Workbook.sheetId?]
  have definedName : b.definedName? = other.definedName? := by
    funext unit name
    rw [Workbook.definedName?, alike.names, Workbook.definedName?]
  simp only [Workbook.viewWith, View.bare, sheetId, definedName, values]

theorem precedents (alike : b.Alike other) (f : CellFormula) (a : Address) :
    f.precedents b a = f.precedents other a := by
  obtain ⟨sheets, names, _, _⟩ := alike
  cases b
  cases other
  cases sheets
  cases names
  rfl

/-- The same cells have formulas, which differ in explanations. -/
theorem toList_formulas (alike : b.Alike other) :
    b.formulas.toList.map (fun x => (x.1, x.2.bare)) =
      other.formulas.toList.map fun x => (x.1, x.2.bare) := by
  have same : b.formulas.map (fun _ f => f.bare) = other.formulas.map fun _ f => f.bare := by
    refine Std.ExtTreeMap.ext_getElem? fun a => ?_
    rw [Std.ExtTreeMap.getElem?_map, Std.ExtTreeMap.getElem?_map]
    exact alike.formulas a
  have listed : ∀ m : SortedMap Address CellFormula,
      (m.map fun _ f => f.bare).toList = m.toList.map fun x => (x.1, x.2.bare) :=
    fun _ => Std.ExtTreeMap.toList_map
  rw [← listed, ← listed, same]

end Workbook.Alike

/-! ### Graphs -/

/-- The vertex with the literals of its formula laid bare. -/
def Vertex.bare (v : Vertex) : Vertex :=
  { v with formula := v.formula.bare }

theorem Vertex.of_bare_eq {v w : Vertex} (same : v.bare = w.bare) :
    v.address = w.address ∧ v.formula.tree.bare = w.formula.tree.bare := by
  obtain ⟨address, formula, -, -⟩ := Vertex.mk.inj same
  exact ⟨address, congrArg CellFormula.tree formula⟩

namespace DependencyGraph

/-- Two graphs that differ in nothing but explanations in the formulas of their vertices. -/
structure Alike (g other : DependencyGraph) : Prop where
  vertices : g.vertices.map Vertex.bare = other.vertices.map Vertex.bare
  dependencies : g.dependencies = other.dependencies
  readers : g.readers = other.readers

theorem alike_ofVertices {vs ws : Array Vertex} (same : vs.map Vertex.bare = ws.map Vertex.bare) :
    (ofVertices vs).Alike (ofVertices ws) := by
  -- edges are told from addresses and precedents, which are no part of formulas
  have blind : ∀ us : Array Vertex,
      (ofVertices (us.map Vertex.bare)).dependencies = (ofVertices us).dependencies := by
    intro us
    simp only [ofVertices, Array.toList_map, List.map_map, Array.map_map]
    rfl
  have dependencies : (ofVertices vs).dependencies = (ofVertices ws).dependencies := by
    rw [← blind vs, same, blind ws]
  exact ⟨same, dependencies, congrArg Digraph.reverse dependencies⟩

theorem alike_ofWorkbook {b other : Workbook} (alike : b.Alike other) (lib : Library) :
    (ofWorkbook b lib).Alike (ofWorkbook other lib) := by
  rw [ofWorkbook_eq, ofWorkbook_eq]
  refine alike_ofVertices ?_
  have bared : ∀ book : Workbook,
      (book.formulas.toList.map fun x => vertexAt book lib x.1 x.2).toArray.map Vertex.bare =
      ((book.formulas.toList.map fun x => (x.1, x.2.bare)).map fun x =>
        vertexAt book lib x.1 x.2).toArray := by
    intro book
    simp only [List.map_toArray, List.map_map]
    refine congrArg (fun g => (book.formulas.toList.map g).toArray) (funext fun x => ?_)
    simp [Vertex.bare, vertexAt, CellFormula.isVolatile_bare, CellFormula.precedents_bare]
  rw [bared, bared, alike.toList_formulas]
  simp only [vertexAt, alike.precedents]

namespace Alike

variable {g other : DependencyGraph}

theorem size (alike : g.Alike other) : g.size = other.size := by
  have same := congrArg Array.size alike.vertices
  simpa [DependencyGraph.size] using same

theorem vertex? (alike : g.Alike other) (v : Nat) :
    (g.vertex? v).map Vertex.bare = (other.vertex? v).map Vertex.bare := by
  rw [DependencyGraph.vertex?, DependencyGraph.vertex?, ← Array.getElem?_map, alike.vertices,
    Array.getElem?_map]

theorem members (alike : g.Alike other) (vs : List Nat) :
    (vs.filterMap g.vertex?).map Vertex.bare = (vs.filterMap other.vertex?).map Vertex.bare := by
  rw [List.map_filterMap, List.map_filterMap]
  exact congrArg (vs.filterMap ·) (funext alike.vertex?)

/-- What a request schedules is not a matter of formulas but of what they mention. -/
theorem schedule (alike : g.Alike other) (q : Request) (volatiles : Bool) :
    q.schedule g volatiles = q.schedule other volatiles := by
  have all : g.all = other.all := congrArg List.range alike.size
  have seeds : ∀ m : DirtyMarks, m.seeds g = m.seeds other := by
    intro m
    have touched : ∀ h : DependencyGraph, ∀ v, (h.vertex? v).any m.touches =
        ((h.vertex? v).map Vertex.bare).any m.touches := fun h v => by
      rw [Option.any_map]
      rfl
    simp only [DirtyMarks.seeds, select, all, touched, alike.vertex?]
  simp only [Request.schedule, DirtyMarks.schedule, DirtyMarks.affected, all, seeds,
    alike.dependencies, alike.readers]

end Alike

end DependencyGraph

/-! ### Results -/

/-- Two results that differ in nothing but explanations in the values that they carry. -/
structure Results.Alike (r t : Results) : Prop where
  home : ∀ a, (r.home.get? a).map Value.bare = (t.home.get? a).map Value.bare
  other : ∀ a, (r.other.get? a).map Value.bare = (t.other.get? a).map Value.bare
  faults : r.faults = t.faults

/-- Two passes that have ended after as much work, in the same way and with alike results. -/
structure PassOutcome.Alike (p q : PassOutcome) : Prop where
  finish : p.finish = q.finish
  results : p.results.Alike q.results
  completed : p.completed = q.completed
  total : p.total = q.total
  progress : p.progress = q.progress
  polls : p.polls = q.polls

/-- Two states of passes that have done as much work, with alike values. -/
structure PassState.Alike (s t : PassState) : Prop where
  overlay : ∀ a : Address, (s.overlay[a]?).map Value.bare = (t.overlay[a]?).map Value.bare
  results : s.results.Alike t.results
  completed : s.completed = t.completed
  reported : s.reported = t.reported
  progress : s.progress = t.progress

theorem Results.Alike.refl (r : Results) : r.Alike r :=
  ⟨fun _ => rfl, fun _ => rfl, rfl⟩

private theorem UnitCells.get?_set_alike {cells other : UnitCells}
    (alike : ∀ a, (cells.get? a).map Value.bare = (other.get? a).map Value.bare) (a : Address)
    {v w : Value} (same : v.bare = w.bare) (b : Address) :
    ((cells.set a v).get? b).map Value.bare = ((other.set a w).get? b).map Value.bare := by
  rw [get?_set, get?_set]
  split
  · exact congrArg some same
  · exact alike b

/-- An outcome of a cell without explanations. -/
def bareOutcome (x : Address × Except Fault Value) : Address × Except Fault Value :=
  (x.1, x.2.map Value.bare)

/-- Functions that agree where a key does agree along lists with the same keys. -/
private theorem map_eq_of_keys {α β γ : Type} {key : α → β} {f g : α → γ}
    (agree : ∀ a b, key a = key b → f a = g b) {l other : List α}
    (keys : l.map key = other.map key) : l.map f = other.map g := by
  induction l generalizing other with
  | nil =>
    cases other with
    | nil => rfl
    | cons b rest => cases keys
  | cons a rest ih =>
    cases other with
    | nil => cases keys
    | cons b more =>
      obtain ⟨first, later⟩ := List.cons.inj keys
      rw [List.map_cons, List.map_cons, agree a b first, ih later]

/-! ### Passes in step -/

namespace PassContext

/-- Two passes with the same settings over alike workbooks, whose functions see no explanations and
which do not iterate cycles. -/
structure InStep (c other : PassContext) : Prop where
  book : c.book.Alike other.book
  graph : c.graph.Alike other.graph
  library : c.library = other.library
  config : c.config = other.config
  request : c.request = other.request
  home : c.home = other.home
  blind : ∀ name f, c.library.get? name = some f → f.Blind
  plain : c.request.options.iterative = false

namespace InStep

variable {c other : PassContext} {s t : PassState} (inStep : c.InStep other)
include inStep

theorem isHome (a : Address) : c.isHome a = other.isHome a := by
  rw [PassContext.isHome, PassContext.isHome, inStep.request, inStep.home]

theorem evaluate {overlay overlay' : SortedMap Address Value}
    (overlays : ∀ a : Address, (overlay[a]?).map Value.bare = (overlay'[a]?).map Value.bare)
    {v w : Vertex} (vertices : v.bare = w.bare) :
    (c.evaluate overlay v).map Value.bare = (other.evaluate overlay' w).map Value.bare := by
  have seen : ∀ a, (c.value overlay a).bare = (other.value overlay' a).bare := by
    intro a
    have covered := overlays a
    rw [PassContext.value, PassContext.value]
    cases here : overlay[a]? <;> cases there : overlay'[a]? <;> simp_all [inStep.book.values a]
  obtain ⟨address, trees⟩ := Vertex.of_bare_eq vertices
  have views := inStep.book.viewWith seen c.library c.config.now c.config.seed
  rw [PassContext.evaluate, PassContext.evaluate, ← inStep.library, ← inStep.config, address]
  exact Formula.cellValue_alike inStep.blind views trees

theorem outcomes (alike : s.Alike t) (step : Step) :
    (c.outcomes s.overlay step).map bareOutcome = (other.outcomes t.overlay step).map bareOutcome := by
  -- both passes have the same positions in hand, where the graphs have alike vertices
  cases step with
  | cells vs =>
    simp only [PassContext.outcomes, List.map_map]
    refine map_eq_of_keys (fun v w vertices => ?_) (inStep.graph.members vs)
    exact Prod.ext (Vertex.of_bare_eq vertices).1 (inStep.evaluate alike.overlay vertices)
  | cycle vs =>
    have plain : other.request.options.iterative = false := inStep.request ▸ inStep.plain
    -- a cycle that is not iterated gives every member the same error, whatever the formulas
    simp only [PassContext.outcomes, cycleOutcomes, inStep.plain, plain, Bool.false_eq_true,
      if_false, List.map_map]
    refine map_eq_of_keys (fun v w vertices => ?_) (inStep.graph.members vs)
    exact Prod.ext (Vertex.of_bare_eq vertices).1 rfl

theorem commit (alike : s.Alike t) {x y : Address × Except Fault Value}
    (same : bareOutcome x = bareOutcome y) : (c.commit s x.1 x.2).Alike (other.commit t y.1 y.2) := by
  obtain ⟨a, outcome⟩ := x
  obtain ⟨b, outcome'⟩ := y
  obtain ⟨rfl, outcomes⟩ : a = b ∧ outcome.map Value.bare = outcome'.map Value.bare :=
    Prod.mk.inj same
  have shows : (shown outcome).bare = (shown outcome').bare := by
    cases outcome <;> cases outcome' <;> simp_all [Except.map, shown]
  -- a fault shows as an error in the overlay and is listed, a value goes to its unit's results
  refine ⟨fun c => ?_, ?_, congrArg (· + 1) alike.completed, alike.reported, alike.progress⟩
  · show ((s.overlay.insert a _)[c]?).map _ = ((t.overlay.insert a _)[c]?).map _
    rw [SortedMap.getElem?_insert, SortedMap.getElem?_insert]
    split
    · exact congrArg some shows
    · exact alike.overlay c
  · cases outcome with
    | error fault =>
      cases outcome' with
      | ok w => cases outcomes
      | error fault' =>
        cases outcomes
        exact ⟨alike.results.home, alike.results.other, by simp [PassContext.commit,
          Results.insertFault, alike.results.faults]⟩
    | ok v =>
      cases outcome' with
      | error fault' => cases outcomes
      | ok w =>
        have values : v.bare = w.bare := Except.ok.inj outcomes
        show (s.results.insert (c.isHome a) a v).Alike (t.results.insert (other.isHome a) a w)
        rw [← inStep.isHome]
        unfold Results.insert
        split
        · exact ⟨UnitCells.get?_set_alike alike.results.home a values, alike.results.other,
            alike.results.faults⟩
        · exact ⟨alike.results.home, UnitCells.get?_set_alike alike.results.other a values,
            alike.results.faults⟩

theorem commitAll (alike : s.Alike t) {outcomes outcomes' : List (Address × Except Fault Value)}
    (same : outcomes.map bareOutcome = outcomes'.map bareOutcome) :
    (c.commitAll s outcomes).Alike (other.commitAll t outcomes') := by
  induction outcomes generalizing s t outcomes' with
  | nil =>
    cases outcomes' with
    | nil => exact alike
    | cons y more => cases same
  | cons x rest ih =>
    cases outcomes' with
    | nil => cases same
    | cons y more =>
      obtain ⟨first, later⟩ := List.cons.inj same
      exact ih (inStep.commit alike first) later

theorem report (alike : s.Alike t) : (c.report s).Alike (other.report t) := by
  unfold PassContext.report
  simp only [inStep.config, alike.completed, alike.reported]
  split
  · exact ⟨alike.overlay, alike.results, rfl, rfl, by rw [alike.progress]⟩
  · exact alike

/-- One step keeps two passes in step. -/
theorem perform (alike : s.Alike t) (step : Step) : (c.perform s step).Alike (other.perform t step) :=
  inStep.report (inStep.commitAll alike (inStep.outcomes alike step))

theorem performAll (steps : List Step) : (c.performAll steps).Alike (other.performAll steps) := by
  have start : PassState.start.Alike .start := ⟨fun _ => rfl, .refl _, rfl, rfl, rfl⟩
  -- the states change from step to step, so the induction is over all alike pairs
  suffices kept : ∀ s t : PassState, s.Alike t →
      (steps.foldl c.perform s).Alike (steps.foldl other.perform t) from kept _ _ start
  induction steps with
  | nil => exact fun _ _ alike => alike
  | cons step rest ih => exact fun s t alike => ih _ _ (inStep.perform alike step)

end InStep

end PassContext

namespace Engine

variable {e : Engine} {b other : Workbook}

theorem plan_alike (e : Engine) (alike : b.Alike other) (q : Request) :
    (e.plan b q).2 = (e.plan other q).2 :=
  (DependencyGraph.alike_ofWorkbook alike e.library).schedule q e.config.recalcVolatile

theorem inStep (standard : e.library = .standard) (alike : b.Alike other) {q : Request}
    (plain : q.options.iterative = false) : (e.context b q).InStep (e.context other q) where
  book := alike
  graph := DependencyGraph.alike_ofWorkbook alike e.library
  library := rfl
  config := rfl
  request := rfl
  home := rfl
  blind name f found := Library.blind (standard ▸ found : Library.standard.get? name = some f)
  plain := plain

theorem runPass_alike (standard : e.library = .standard) (alike : b.Alike other) {q : Request}
    (plain : q.options.iterative = false) (answers : List Checkpoint) :
    (e.runPass b q answers).Alike (e.runPass other q answers) := by
  have total := congrArg Schedule.size (e.plan_alike alike q)
  have steps : e.steps b q = e.steps other q :=
    congrArg (Step.ofSchedule e.config) (e.plan_alike alike q)
  have performs := (inStep standard alike plain).performAll
  -- both passes meet the same checkpoints, so they are interrupted at the same one
  cases found : interruption? answers (e.steps b q).length with
  | none =>
    have done := performs (e.steps b q)
    rw [runPass_of_calm found, runPass_of_calm (steps ▸ found), ← steps]
    exact ⟨rfl, done.results, done.completed, total, done.progress, rfl⟩
  | some stop =>
    obtain ⟨k, finish⟩ := stop
    have done := performs ((e.steps b q).take k)
    rw [runPass_of_interruption found, runPass_of_interruption (steps ▸ found), ← steps]
    exact ⟨rfl, done.results, done.completed, total, done.progress, rfl⟩

end Engine

/-! ### Explanations never matter -/

namespace Workbook.Alike

variable {b other : Workbook}

/-- Explanations of errors never influence a computation. Trees that differ in nothing else, over
workbooks that differ in nothing else, have the same fault or values that differ in nothing else. A
pass that does not iterate cycles schedules the same cells over both workbooks, ends in the same way
after as much work, and delivers the same faults and values that differ in nothing else. -/
theorem unexplained (alike : b.Alike other) :
    (∀ (x y : Formula) (home : Address) (now : Float) (seed : UInt64), x.bare = y.bare →
      (x.value (b.view .standard now seed) home).map Value.bare =
        (y.value (other.view .standard now seed) home).map Value.bare) ∧
    ∀ (e : Engine) (q : Request) (answers : List Checkpoint), e.library = .standard →
      q.options.iterative = false → (e.plan b q).2 = (e.plan other q).2 ∧
        (e.runPass b q answers).Alike (e.runPass other q answers) := by
  constructor
  · intro x y home now seed trees
    have views := alike.viewWith alike.values .standard now seed
    exact Formula.value_alike (fun _ _ => Library.blind) views trees
  · intro e q answers standard plain
    exact ⟨e.plan_alike alike q, Engine.runPass_alike standard alike plain answers⟩

theorem refl (b : Workbook) : b.Alike b :=
  ⟨rfl, rfl, fun _ => rfl, fun _ => rfl⟩

private theorem contents_setValue (b : Workbook) {a c : Address} (v : Value) (ne : a ≠ c) :
    (b.setValue a v).formula? c = b.formula? c ∧ (b.setValue a v).value c = b.value c := by
  have kept := @Edit.contents_apply b (.setValue a v) c
  exact kept (by simpa [Edit.cell?] using ne)

/-- Workbooks stay alike when alike values are typed. -/
theorem setValue (alike : b.Alike other) (a : Address) {v w : Value} (same : v.bare = w.bare) :
    (b.setValue a v).Alike (other.setValue a w) where
  sheets := congrArg (·.insertIfNew a.onSheet a.sheet) alike.sheets
  names := alike.names
  values c := by
    by_cases here : a = c
    · rw [← here, value_setValue, value_setValue, same]
    · rw [(contents_setValue b v here).2, (contents_setValue other w here).2, alike.values]
  formulas c := by
    by_cases here : a = c
    · rw [← here, formula?_setValue, formula?_setValue]
    · rw [(contents_setValue b v here).1, (contents_setValue other w here).1, alike.formulas]

/-- Two workbooks with an error of one kind that is explained in one of them only, and a formula that
adds one to it. -/
theorem unexplained_sum :
    let e : Engine := ⟨⟨true, 4, 256, 100, true, 0, 0⟩, .standard⟩
    let here : Address := ⟨"u", "s", 0, 0⟩
    let sum : Formula := .binary .add (.reference (.cell ⟨none, none⟩ 0 0)) (.literal (.number 1))
    let base := Workbook.empty.setFormula ⟨"u", "s", 0, 1⟩ ⟨sum, []⟩
    let b := base.setValue here (.error ⟨.division, some "no rows"⟩)
    let other := base.setValue here (.error ⟨.division, none⟩)
    b.value here ≠ other.value here ∧
      (sum.value (b.view .standard 0 0) ⟨"u", "s", 0, 1⟩).map Value.bare =
        (sum.value (other.view .standard 0 0) ⟨"u", "s", 0, 1⟩).map Value.bare ∧
      (e.plan b .full).2 = (e.plan other .full).2 ∧
      (e.runPass b .full []).Alike (e.runPass other .full []) := by
  intro e here sum base b other
  have alike : b.Alike other := (refl base).setValue here rfl
  obtain ⟨values, passes⟩ := alike.unexplained
  refine ⟨?_, values sum sum _ 0 0 rfl, passes e .full [] rfl rfl⟩
  rw [value_setValue, value_setValue]
  simp

end Workbook.Alike

end Recalc
