import Recalc.Proofs.Interruption
import Recalc.Proofs.Readiness

/-!
# Solutions

A workbook poses one equation for each formula cell: on a cycle it is circular, and elsewhere it has
what its formula gives over the values of all cells. There is exactly one solution, and a pass that
computes everything delivers it.
-/
namespace Recalc

/-! ### Cells that read cells -/

namespace Workbook

/-- Whether the formula of a cell reads another cell. -/
def Reads (b : Workbook) (a c : Address) : Prop :=
  ∃ f, b.formula? a = some f ∧ ∃ r ∈ (f.precedents b a).regions, r.contains c = true

/-- Whether a cell reads itself, directly or through other formula cells. -/
def OnCycle (b : Workbook) (a : Address) : Prop :=
  Relation.TransGen b.Reads a a

end Workbook

namespace DependencyGraph

variable {book : Workbook} {lib : Library} {v w : Nat} {x y : Vertex}

theorem reads_iff (found : (ofWorkbook book lib).vertex? v = some x) (a : Address) :
    x.reads a = true ↔ book.Reads x.address a := by
  obtain ⟨formula, vertex⟩ := eq_vertexAt found
  rw [vertex] at formula ⊢
  simp only [Vertex.reads, vertexAt, List.any_eq_true, Workbook.Reads] at formula ⊢
  simp only [formula, Option.some.injEq, exists_eq_left']

theorem mem_next_iff (source : (ofWorkbook book lib).vertex? v = some x)
    (target : (ofWorkbook book lib).vertex? w = some y) :
    w ∈ (ofWorkbook book lib).dependencies.next v ↔ book.Reads x.address y.address := by
  rw [mem_next, ← reads_iff source]
  constructor
  · rintro ⟨x', y', source', target', reads⟩
    rw [source] at source'
    rw [target] at target'
    cases source'
    cases target'
    exact reads
  · exact fun reads => ⟨x, y, source, target, reads⟩

/-- A list of vertices that contains all readers of what it contains. -/
def ClosedUnderReaders (g : DependencyGraph) (within : List Nat) : Prop :=
  ∀ v w, w ∈ within → w ∈ g.dependencies.next v → v ∈ within

private theorem path_of_vertices {within : List Nat}
    (path : Relation.TransGen
      (fun v w => w ∈ (ofWorkbook book lib).dependencies.nextWithin within v) v w)
    (source : (ofWorkbook book lib).vertex? v = some x) :
    ∃ y, (ofWorkbook book lib).vertex? w = some y ∧
      Relation.TransGen book.Reads x.address y.address := by
  have step : ∀ {u w : Nat} {z : Vertex}, (ofWorkbook book lib).vertex? u = some z →
      w ∈ (ofWorkbook book lib).dependencies.nextWithin within u →
      ∃ y, (ofWorkbook book lib).vertex? w = some y ∧ book.Reads z.address y.address := by
    intro u w z here edge
    have direct := (Digraph.mem_nextWithin.mp edge).1
    obtain ⟨_, y, _, target, _⟩ := mem_next.mp direct
    exact ⟨y, target, (mem_next_iff here target).mp direct⟩
  induction path with
  | single edge =>
    obtain ⟨y, target, reads⟩ := step source edge
    exact ⟨y, target, .single reads⟩
  | tail _ edge ih =>
    obtain ⟨z, middle, path⟩ := ih
    obtain ⟨y, target, reads⟩ := step middle edge
    exact ⟨y, target, path.tail reads⟩

private theorem path_of_cells {within : List Nat}
    (closed : (ofWorkbook book lib).ClosedUnderReaders within) {a : Address}
    (path : Relation.TransGen book.Reads a y.address)
    (target : (ofWorkbook book lib).vertex? w = some y) (inside : w ∈ within) :
    ∃ v x, (ofWorkbook book lib).vertex? v = some x ∧ x.address = a ∧ v ∈ within ∧
      Relation.TransGen
        (fun v w => w ∈ (ofWorkbook book lib).dependencies.nextWithin within v) v w := by
  -- a path is followed backwards, since the list contains readers and not what they read
  have step : ∀ {a : Address} {w : Nat} {y : Vertex}, (ofWorkbook book lib).vertex? w = some y →
      w ∈ within → book.Reads a y.address →
      ∃ v x, (ofWorkbook book lib).vertex? v = some x ∧ x.address = a ∧ v ∈ within ∧
        w ∈ (ofWorkbook book lib).dependencies.nextWithin within v := by
    intro a w y target inside reads
    obtain ⟨f, formula, _⟩ := id reads
    obtain ⟨v, source⟩ := exists_vertexAt lib formula
    have edge := (mem_next_iff source target).mpr reads
    exact ⟨v, _, source, rfl, closed v w inside edge, Digraph.mem_nextWithin.mpr ⟨edge, inside⟩⟩
  induction path using Relation.TransGen.head_induction_on with
  | single reads =>
    obtain ⟨v, x, source, same, member, edge⟩ := step target inside reads
    exact ⟨v, x, source, same, member, .single edge⟩
  | head reads _ ih =>
    obtain ⟨u, z, middle, rfl, member, path⟩ := ih
    obtain ⟨v, x, source, same, also, edge⟩ := step middle member reads
    exact ⟨v, x, source, same, also, .head edge path⟩

/-- Cycles of vertices are cycles of cells, and lie wholly in a list that contains all readers. -/
theorem onCycle_iff {within : List Nat} (closed : (ofWorkbook book lib).ClosedUnderReaders within)
    (found : (ofWorkbook book lib).vertex? v = some x) (inside : v ∈ within) :
    (ofWorkbook book lib).dependencies.OnCycle within v ↔ book.OnCycle x.address := by
  constructor
  · intro cycle
    obtain ⟨y, same, path⟩ := path_of_vertices cycle found
    rw [found] at same
    cases same
    exact path
  · intro cycle
    obtain ⟨u, y, source, same, -, path⟩ := path_of_cells closed cycle found inside
    rwa [vertex_unique source found same] at path

end DependencyGraph

/-! ### Equations -/

/-- Values or faults of all cells. -/
abbrev Assignment := Address → Except Fault Value

namespace Assignment

/-- What readers see. -/
def seen (s : Assignment) (a : Address) : Value :=
  PassContext.shown (s a)

/-- The outcomes of a pass, and the stored values of all other cells. -/
def after (book : Workbook) (trace : List (Address × Except Fault Value)) : Assignment := fun a =>
  ((trace.find? fun x => x.1 == a).map Prod.snd).getD (.ok (book.value a))

variable {book : Workbook} {trace : List (Address × Except Fault Value)} {a : Address}

theorem after_of_mem (nodup : (trace.map Prod.fst).Nodup) {x : Except Fault Value}
    (member : (a, x) ∈ trace) : after book trace a = x := by
  cases found : trace.find? fun x => x.1 == a with
  | none =>
    have absent := List.find?_eq_none.mp found _ member
    exact absurd (beq_self_eq_true a) absent
  | some y =>
    have here : (y.1 == a) = true := by simpa using List.find?_some found
    obtain rfl := eq_of_beq here
    rw [after, found]
    exact PassContext.outcome_unique nodup (List.mem_of_find?_eq_some found) member

theorem after_of_notMem (absent : a ∉ trace.map Prod.fst) :
    after book trace a = .ok (book.value a) := by
  have found : (trace.find? fun x => x.1 == a) = none :=
    List.find?_eq_none.mpr fun x member same =>
      absent (List.mem_map.mpr ⟨x, member, eq_of_beq same⟩)
  rw [after, found]
  rfl

end Assignment

namespace Engine

variable {e : Engine} {book : Workbook} {q : Request} {s : Assignment}

/-- The equation of a formula cell. -/
structure HoldsAt (e : Engine) (book : Workbook) (s : Assignment) (a : Address) (f : CellFormula) :
    Prop where
  circular : book.OnCycle a → s a = .ok PassContext.circular
  formula : ¬book.OnCycle a → s a = f.tree.cellValue
    (book.viewWith s.seen e.library e.config.now e.config.seed) a

/-- The equations of all formula cells; all other cells have their stored values. -/
structure Solves (e : Engine) (book : Workbook) (s : Assignment) : Prop where
  stored : ∀ a, book.formula? a = none → s a = .ok (book.value a)
  formulas : ∀ a f, book.formula? a = some f → e.HoldsAt book s a f

theorem exists_formula {a : Address} (computed : a ∈ (e.trace book q).map Prod.fst) :
    ∃ f, book.formula? a = some f := by
  rw [trace, PassContext.addresses_trace] at computed
  obtain ⟨_, _, y, found, rfl⟩ := DependencyGraph.mem_addresses.mp computed
  exact ⟨y.formula, (DependencyGraph.eq_vertexAt found).1⟩

/-- A cell that the pass computes, with its formula and its step. -/
theorem exists_step {a : Address} {f : CellFormula}
    (formula : book.formula? a = some f) (computed : a ∈ (e.trace book q).map Prod.fst) :
    ∃ step ∈ e.steps book q, ∃ y ∈ (e.context book q).members step.vertices,
      y.address = a ∧ y.formula = f := by
  rw [trace, PassContext.addresses_trace] at computed
  obtain ⟨v, member, y, found, rfl⟩ := DependencyGraph.mem_addresses.mp computed
  obtain ⟨step, listed, inStep⟩ := List.mem_flatMap.mp member
  obtain ⟨same, -⟩ := DependencyGraph.eq_vertexAt found
  rw [formula] at same
  exact ⟨step, listed, y, PassContext.mem_members.mpr ⟨v, inStep, found⟩, rfl,
    (Option.some.inj same).symm⟩

/-- What readers see after a pass. -/
theorem seen_after (e : Engine) (book : Workbook) (q : Request) (a : Address) :
    (e.context book q).value (PassContext.record ∅ (e.trace book q)) a =
      (Assignment.after book (e.trace book q)).seen a := by
  have nodup := e.nodup_trace book q
  have agree : ∀ x ∈ e.trace book q, x.2 = Assignment.after book (e.trace book q) x.1 :=
    fun x member => (Assignment.after_of_mem nodup member).symm
  -- the overlay is consulted first and stored values show through elsewhere
  by_cases computed : a ∈ (e.trace book q).map Prod.fst
  · rw [PassContext.value, PassContext.record_of_agree agree computed]
    rfl
  · rw [PassContext.value, PassContext.record_of_notMem computed, Assignment.seen,
      Assignment.after_of_notMem computed]
    simp [PassContext.shown, context]

/-- A pass whose cycles are not iterated, over vertices that contain all their readers. -/
structure Sweeps (e : Engine) (book : Workbook) (q : Request) (vertices : List Nat) : Prop where
  plain : q.options.iterative = false
  schedule : (e.plan book q).2 = (e.plan book q).1.dependencies.schedule vertices
  closed : (e.plan book q).1.ClosedUnderReaders ((e.plan book q).1.dependencies.known vertices)

namespace Sweeps

variable {vertices : List Nat}

theorem ready (sweeps : e.Sweeps book q vertices) :
    Step.Ready (e.context book q).graph.dependencies (e.steps book q) := by
  rw [steps, sweeps.schedule]
  exact Step.ready_ofSchedule _ _ vertices

/-- The cells that the pass computes. -/
theorem mem_computed (sweeps : e.Sweeps book q vertices) {v : Nat} :
    v ∈ (e.steps book q).flatMap Step.vertices ↔
      v ∈ (e.plan book q).1.dependencies.known vertices := by
  rw [← order_eq, sweeps.schedule]
  exact Digraph.mem_order

/-- The equation of a cell, in terms of the step that computes it. -/
theorem holdsAt_iff (sweeps : e.Sweeps book q vertices) {step : Step} (listed : step ∈ e.steps book q)
    {y : Vertex} (member : y ∈ (e.context book q).members step.vertices) :
    e.HoldsAt book s y.address y.formula ↔
      s y.address = (e.context book q).outcome s.seen step y := by
  obtain ⟨v, inStep, found⟩ := PassContext.mem_members.mp member
  have inside := sweeps.mem_computed.mp (List.mem_flatMap.mpr ⟨step, listed, inStep⟩)
  rw [steps, sweeps.schedule] at listed
  have cyclic := (Step.onCycle_iff_cycle listed inStep).symm.trans
    (DependencyGraph.onCycle_iff sweeps.closed found inside)
  cases step with
  | cells vs =>
    -- a cell outside the cycle steps is on no cycle: only the second equation has content
    have acyclic : ¬book.OnCycle y.address := fun onCycle => by
      obtain ⟨c, same⟩ := cyclic.mpr onCycle
      cases same
    exact ⟨fun holds => holds.formula acyclic, fun same => ⟨(absurd · acyclic), fun _ => same⟩⟩
  | cycle c =>
    have onCycle : book.OnCycle y.address := cyclic.mp ⟨c, rfl⟩
    exact ⟨fun holds => holds.circular onCycle, fun same => ⟨fun _ => same, (absurd onCycle ·)⟩⟩

/-- The outcomes of a pass satisfy the equations of the cells that it computes. -/
theorem after_holdsAt (sweeps : e.Sweeps book q vertices) {a : Address} {f : CellFormula}
    (formula : book.formula? a = some f) (computed : a ∈ (e.trace book q).map Prod.fst) :
    e.HoldsAt book (.after book (e.trace book q)) a f := by
  obtain ⟨step, listed, y, member, rfl, rfl⟩ := exists_step formula computed
  rw [sweeps.holdsAt_iff listed member]
  have solved := PassContext.trace_solves rfl ∅ sweeps.plain sweeps.ready listed member
  refine (Assignment.after_of_mem (e.nodup_trace book q) solved).trans ?_
  exact congrArg (PassContext.outcome _ · step y) (funext (e.seen_after book q))

/-- A pass computes whatever satisfies the equations of its cells and agrees with the stored values
of all other cells. -/
theorem trace_eq (sweeps : e.Sweeps book q vertices)
    (holds : ∀ a f, book.formula? a = some f → a ∈ (e.trace book q).map Prod.fst → e.HoldsAt book s a f)
    (outside : ∀ a ∉ (e.trace book q).map Prod.fst, book.value a = s.seen a) :
    ∀ x ∈ e.trace book q, x.2 = s x.1 := by
  refine PassContext.trace_unique rfl ∅ sweeps.plain sweeps.ready ?_ ?_
  · intro step listed y member
    obtain ⟨v, inStep, found⟩ := PassContext.mem_members.mp member
    refine (sweeps.holdsAt_iff listed member).mp (holds _ _ (DependencyGraph.eq_vertexAt found).1 ?_)
    rw [trace, PassContext.addresses_trace]
    exact DependencyGraph.mem_addresses.mpr
      ⟨v, List.mem_flatMap.mpr ⟨step, listed, inStep⟩, y, found, rfl⟩
  · intro a absent
    rw [← PassContext.addresses_trace ∅] at absent
    refine Eq.trans ?_ (outside a absent)
    simp [PassContext.value, context]

end Sweeps

end Engine

end Recalc
