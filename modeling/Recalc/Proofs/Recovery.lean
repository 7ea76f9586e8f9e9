import Recalc.Proofs.ForcedPass
import Recalc.Proofs.Markers
import Recalc.Proofs.Returns
import Recalc.Proofs.Succession

/-!
# Iteration that starts from markers

A pass that does not iterate stores the marker of a circular reference in every cell of a cycle, and
a later pass that iterates starts its sweeps there. A cycle recovers if its formulas do not tell the
marker from the blank that a new formula cell holds (`Engine.recovers_of_formulas`). A cell is delivered
as without the markers if all cycles that it depends on recover (`Engine.iteration_after_markers`); a
cycle that hands the marker on keeps it for good.
-/
namespace Recalc

namespace Engine

variable {e : Engine} {book other : Workbook} {q : Request} {k : Nat} {step : Step} {a b : Address}

/-! ### Cycles that recover -/

/-- Whether a cycle, a step of the pass, recovers from markers: its cells hold no value yet, their
formulas do not tell the marker from a blank, and sweeps that end with the first would not go on to
anything else. -/
structure Recovers (e : Engine) (book : Workbook) (q : Request) (k : Nat) (vs : List Nat) : Prop where
  unset : ∀ a ∈ (e.plan book q).1.addresses vs, book.value a = .blank
  indifferent : (e.context book q).Indifferent ((e.context book q).members vs)
  repeats : 1 < q.options.maxIterations →
    let (after, outcomes, settled) :=
      (e.context book q).sweep (e.overlay book q k) ((e.context book q).members vs)
    settled = true → ((e.context book q).sweep after ((e.context book q).members vs)).2.1 = outcomes

/-- The cells of a cycle that hold no value are seen as blanks when its sweeps begin. -/
theorem value_of_unset {vs : List Nat} (found : (e.steps book q)[k]? = some (.cycle vs))
    (unset : ∀ a ∈ (e.plan book q).1.addresses vs, book.value a = .blank) :
    ∀ y ∈ (e.context book q).members vs,
      (e.context book q).value (e.overlay book q k) y.address = .blank := by
  intro y listed
  have here := List.mem_map_of_mem (f := Vertex.address) listed
  rw [value_overlay_of_notMem (notMem_early_of_step found here)]
  exact unset _ here

/-- A cycle without values recovers if its formulas do not tell the marker from a blank and the first of
them changes its cell. -/
theorem recovers_of_formulas {vs : List Nat} (found : (e.steps book q)[k]? = some (.cycle vs))
    (unset : ∀ a ∈ (e.plan book q).1.addresses vs, book.value a = .blank)
    (indifferent : (e.context book q).Indifferent ((e.context book q).members vs))
    (stirs : (e.context book q).Stirs ((e.context book q).members vs)) :
    e.Recovers book q k vs := by
  have moving := PassContext.moving_of_stirs stirs (value_of_unset found unset)
  exact ⟨unset, indifferent, fun _ settled => absurd (settled.symm.trans moving) nofun⟩

/-- Whether all cycles recover that a cell is on or depends on. -/
def Untroubled (e : Engine) (book : Workbook) (q : Request) (a : Address) : Prop :=
  ∀ k vs, (e.steps book q)[k]? = some (.cycle vs) →
    ∀ b ∈ (e.plan book q).1.addresses vs, Relation.ReflTransGen book.Reads a b →
      e.Recovers book q k vs

theorem Untroubled.of_reads (untroubled : e.Untroubled book q a)
    (path : Relation.ReflTransGen book.Reads a b) : e.Untroubled book q b :=
  fun k vs found m member onward => untroubled k vs found m member (path.trans onward)

/-- The members of a cycle depend on one another. -/
theorem reads_of_cycle {vs : List Nat} (found : (e.steps book q)[k]? = some (.cycle vs))
    (first : a ∈ (e.plan book q).1.addresses vs) (second : b ∈ (e.plan book q).1.addresses vs) :
    Relation.ReflTransGen book.Reads a b := by
  obtain ⟨vertices, same⟩ := e.exists_schedule book q
  obtain ⟨v, fromV, y, source, rfl⟩ := DependencyGraph.mem_addresses.mp first
  obtain ⟨w, fromW, z, target, rfl⟩ := DependencyGraph.mem_addresses.mp second
  have listed := List.mem_of_getElem? found
  rw [steps, same] at listed
  obtain ⟨l, layer, inLayer⟩ := List.mem_flatMap.mp listed
  have component :=
    (Digraph.mem_components_of_mem_cycles layer (Step.cycle_mem_ofLayer inLayer)).1
  have reaches := (((Digraph.isClass_of_mem component fromV).2 w).mp fromW).1
  -- a path of vertices is a path of cells
  clear first second found fromW
  induction reaches generalizing z with
  | refl =>
    rw [source] at target
    cases target
    exact .refl
  | tail _ edge ih =>
    have direct := (Digraph.mem_nextWithin.mp edge).1
    obtain ⟨x, _, middle, _⟩ := DependencyGraph.mem_next.mp direct
    exact (ih x middle).tail ((DependencyGraph.mem_next_iff middle target).mp direct)

/-- The members of a cycle step are on cycles. -/
theorem onCycle_of_step (forced : q.forced = true) {vs : List Nat}
    (found : (e.steps book q)[k]? = some (.cycle vs)) (member : a ∈ (e.plan book q).1.addresses vs) :
    book.OnCycle a := by
  obtain ⟨v, inside, y, source, rfl⟩ := DependencyGraph.mem_addresses.mp member
  have whole : (e.plan book q).2 =
      (e.plan book q).1.dependencies.schedule (e.plan book q).1.all := if_pos forced
  have listed := List.mem_of_getElem? found
  rw [steps, whole] at listed
  have cyclic := (Step.onCycle_iff_cycle listed inside).mpr ⟨vs, rfl⟩
  have known := mem_known_all.mpr (DependencyGraph.lt_size source)
  exact (DependencyGraph.onCycle_iff (sweeps_of_forced (q := .full) rfl rfl e book).closed source
    known).mp cyclic

/-- A step whose cells read one another is a cycle. -/
theorem exists_cycle_of_reads (found : (e.steps book q)[k]? = some step) {y : Vertex}
    (member : y ∈ (e.context book q).members step.vertices) (reads : y.reads b = true)
    (inside : b ∈ (e.plan book q).1.addresses step.vertices) : ∃ vs, step = .cycle vs := by
  cases step with
  | cycle vs => exact ⟨vs, rfl⟩
  | cells vs =>
    exfalso
    obtain ⟨vertices, same⟩ := e.exists_schedule book q
    have ready : Step.Ready (e.plan book q).1.dependencies (e.steps book q) := by
      rw [steps, same]
      exact Step.ready_ofSchedule _ _ vertices
    obtain ⟨bound, here⟩ := List.getElem?_eq_some_iff.mp found
    rw [← List.take_append_drop k (e.steps book q), List.drop_eq_getElem_cons bound, here] at ready
    obtain ⟨v, inStep, source⟩ := PassContext.mem_members.mp member
    obtain ⟨w, alsoInStep, z, target, rfl⟩ := DependencyGraph.mem_addresses.mp inside
    have edge : w ∈ (e.plan book q).1.dependencies.next v :=
      DependencyGraph.mem_next.mpr ⟨y, z, source, target, reads⟩
    exact ready.of_append_right.1 v inStep w edge (List.mem_append_left _ alsoInStep)

/-- In a forced pass a formula cell that is read has been computed before, unless both cells are on
one cycle. -/
theorem early_of_reads (forced : q.forced = true) (found : (e.steps book q)[k]? = some step)
    {y : Vertex} (member : y ∈ (e.context book q).members step.vertices)
    (reads : y.reads b = true) (formula : book.formula? b ≠ none) :
    b ∈ (e.plan book q).1.addresses (e.early book q k) ∨
      (∃ vs, step = .cycle vs) ∧ b ∈ (e.plan book q).1.addresses step.vertices := by
  have computed : b ∈ (e.trace book q).map Prod.fst := by
    rw [computed_of_forced forced, Workbook.mem_formulaCells]
    exact Option.ne_none_iff_exists'.mp formula
  obtain ⟨bound, same⟩ := List.getElem?_eq_some_iff.mp found
  rw [trace, PassContext.addresses_trace, ← order_eq, ← early_append_late e book q k,
    DependencyGraph.addresses_append, late, List.drop_eq_getElem_cons bound, List.flatMap_cons,
    DependencyGraph.addresses_append, same] at computed
  rcases List.mem_append.mp computed with before | computed
  · exact .inl before
  · have here := (List.mem_append.mp computed).resolve_right
      (notMem_late_of_reads found member reads)
    exact .inr ⟨exists_cycle_of_reads found member reads here, here⟩

/-! ### Passes over both workbooks -/

theorem context_of_sameFormulas (same : other.SameFormulas book) :
    e.context other q = { e.context book q with book := other } := by
  simp only [context, plan_of_sameFormulas same]

theorem steps_of_sameFormulas (same : other.SameFormulas book) :
    e.steps other q = e.steps book q := by
  rw [steps, steps, plan_of_sameFormulas same]

/-- Whether the first steps of a pass come to the same over both workbooks in untroubled cells. -/
def AgreeAfter (e : Engine) (book other : Workbook) (q : Request) (k : Nat) : Prop :=
  ∀ a, e.Untroubled book q a → ∀ x, (a, x) ∈ e.traceOf other q k ↔ (a, x) ∈ e.traceOf book q k

/-- The cells that look the same with and without markers when a step begins: those without a formula,
and the untroubled ones that have been computed. -/
def SeenAlike (e : Engine) (book : Workbook) (q : Request) (k : Nat) (a : Address) : Prop :=
  book.formula? a = none ∨
    e.Untroubled book q a ∧ a ∈ (e.plan book q).1.addresses (e.early book q k)

section SameFormulas

variable (forced : q.forced = true) (iterative : q.options.iterative = true)
  (same : other.SameFormulas book)
  (values : ∀ a, book.formula? a = none → other.value a = book.value a)
  (stored : ∀ a, book.OnCycle a → other.value a = PassContext.circular)

include same values in
theorem AgreeAfter.agree (agree : e.AgreeAfter book other q k) :
    (e.context book q).Agree other (e.SeenAlike book q k) (e.overlay book q k)
      (e.overlay other q k) := by
  intro a alike
  rw [← context_of_sameFormulas same]
  rcases alike with constant | ⟨untroubled, computed⟩
  · have absent : a ∉ (e.plan book q).1.addresses (e.early book q k) := fun listed => by
      obtain ⟨v, -, y, found, rfl⟩ := DependencyGraph.mem_addresses.mp listed
      rw [(DependencyGraph.eq_vertexAt found).1] at constant
      cases constant
    have absent' : a ∉ (e.plan other q).1.addresses (e.early other q k) := by
      rwa [early, steps_of_sameFormulas same, plan_of_sameFormulas same]
    rw [value_overlay_of_notMem absent, value_overlay_of_notMem absent', values a constant]
  · obtain ⟨x, member⟩ := exists_mem_traceOf computed
    rw [value_overlay member, value_overlay ((agree _ untroubled x).mpr member)]

/-- What an untroubled cell reads has no formula, looks the same, or lies on one cycle with it. -/
theorem seenAlike_of_reads (forced : q.forced = true) (found : (e.steps book q)[k]? = some step)
    {y : Vertex} (member : y ∈ (e.context book q).members step.vertices)
    (untroubled : e.Untroubled book q y.address) (reads : y.reads b = true) :
    e.SeenAlike book q k b ∨
      (∃ vs, step = .cycle vs) ∧ b ∈ (e.plan book q).1.addresses step.vertices := by
  by_cases constant : book.formula? b = none
  · exact .inl (.inl constant)
  · obtain ⟨v, -, source⟩ := PassContext.mem_members.mp member
    have edge : book.Reads y.address b := (DependencyGraph.reads_iff source b).mp reads
    refine (early_of_reads forced found member reads constant).imp_left fun before => ?_
    exact .inr ⟨untroubled.of_reads (.single edge), before⟩

include forced same values in
/-- An untroubled cell outside cycles is evaluated to the same if the steps before have agreed. -/
theorem evaluate_agree (agree : e.AgreeAfter book other q k) {vs : List Nat}
    (found : (e.steps book q)[k]? = some (.cells vs)) {y : Vertex}
    (member : y ∈ (e.context book q).members vs) (untroubled : e.Untroubled book q y.address) :
    PassContext.evaluate { e.context book q with book := other } (e.overlay other q k) y =
      (e.context book q).evaluate (e.overlay book q k) y := by
  obtain ⟨v, -, source⟩ := PassContext.mem_members.mp member
  refine PassContext.evaluate_of_agree rfl same (agree.agree same values) source fun b reads => ?_
  exact (seenAlike_of_reads forced found member untroubled reads).resolve_right nofun

include forced same values stored in
/-- A cycle with an untroubled cell is swept to the same if the steps before have agreed. -/
theorem sweeps_agree (agree : e.AgreeAfter book other q k) {vs : List Nat}
    (found : (e.steps book q)[k]? = some (.cycle vs)) (member : a ∈ (e.plan book q).1.addresses vs)
    (untroubled : e.Untroubled book q a) :
    PassContext.sweeps { e.context book q with book := other } ((e.context book q).members vs)
        (max q.options.maxIterations 1) (e.overlay other q k) =
      (e.context book q).sweeps ((e.context book q).members vs) (max q.options.maxIterations 1)
        (e.overlay book q k) := by
  have recovers := untroubled k vs found a member .refl
  have found' : (e.steps other q)[k]? = some (.cycle vs) := by rwa [steps_of_sameFormulas same]
  refine PassContext.sweeps_of_indifferent rfl same recovers.indifferent ?_ ?_
    (agree.agree same values) ?_ fun more => recovers.repeats (by omega)
  · exact value_of_unset found recovers.unset
  · intro y listed
    have here := List.mem_map_of_mem (f := Vertex.address) listed
    rw [← context_of_sameFormulas same, value_overlay_of_notMem (notMem_early_of_step found' ?_)]
    · exact stored _ (onCycle_of_step forced found here)
    · rwa [plan_of_sameFormulas same]
  -- all members are untroubled with this one, and read what looks the same or one another
  · intro y listed
    have here := List.mem_map_of_mem (f := Vertex.address) listed
    obtain ⟨v, -, source⟩ := PassContext.mem_members.mp listed
    refine ⟨⟨v, source⟩, .inr here, fun b reads => ?_⟩
    have also := untroubled.of_reads (reads_of_cycle found member here)
    exact (seenAlike_of_reads forced found listed also reads).imp_right And.right

include forced iterative same values stored in
/-- A step does the same with untroubled cells if those before it have. -/
theorem outcomes_agree (agree : e.AgreeAfter book other q k)
    (found : (e.steps book q)[k]? = some step) (untroubled : e.Untroubled book q a)
    (x : Except Fault Value) :
    (a, x) ∈ (e.context other q).outcomes (e.overlay other q k) step ↔
      (a, x) ∈ (e.context book q).outcomes (e.overlay book q k) step := by
  rw [context_of_sameFormulas same]
  cases step with
  | cells vs =>
    have each : ∀ y ∈ (e.context book q).members vs, y.address = a →
        PassContext.evaluate { e.context book q with book := other } (e.overlay other q k) y =
          (e.context book q).evaluate (e.overlay book q k) y := fun y member here =>
      evaluate_agree forced same values agree found member (here ▸ untroubled)
    simp only [PassContext.outcomes, List.mem_map, Prod.mk.injEq]
    constructor
    · rintro ⟨y, member, rfl, rfl⟩
      exact ⟨y, member, rfl, (each y member rfl).symm⟩
    · rintro ⟨y, member, rfl, rfl⟩
      exact ⟨y, member, rfl, each y member rfl⟩
  | cycle vs =>
    by_cases member : a ∈ (e.plan book q).1.addresses vs
    · rw [PassContext.outcomes_cycle iterative, PassContext.outcomes_cycle iterative]
      exact iff_of_eq (congrArg ((a, x) ∈ ·)
        (sweeps_agree forced same values stored agree found member untroubled))
    · have absent : ∀ c : PassContext, c.graph = (e.plan book q).1 → ∀ overlay,
          (a, x) ∉ c.outcomes overlay (.cycle vs) := fun c graph overlay computed => by
        have listed := List.mem_map_of_mem (f := Prod.fst) computed
        rw [PassContext.addresses_outcomes, graph] at listed
        exact member listed
      exact iff_of_false (absent _ rfl _) (absent _ rfl _)

include forced iterative same values stored in
/-- Both passes come to the same in untroubled cells, after every number of steps. -/
theorem agreeAfter (k : Nat) : e.AgreeAfter book other q k := by
  induction k with
  | zero =>
    intro a _ x
    simp only [traceOf, List.take_zero, PassContext.trace]
  | succ k ih =>
    intro a untroubled x
    cases found : (e.steps book q)[k]? with
    | none =>
      have found' : (e.steps other q)[k]? = none := by rwa [steps_of_sameFormulas same]
      rw [traceOf_of_end found, traceOf_of_end found']
      exact ih a untroubled x
    | some step =>
      have found' : (e.steps other q)[k]? = some step := by rwa [steps_of_sameFormulas same]
      rw [traceOf_succ found, traceOf_succ found', List.mem_append, List.mem_append]
      exact or_congr (ih a untroubled x)
        (outcomes_agree forced iterative same values stored ih found untroubled x)

end SameFormulas

/-! ### What is delivered -/

variable {answers : List Checkpoint}

/-- A forced pass without iteration that is written back changes no formula and no constant, and
stores the marker in all cells on cycles. -/
theorem marked_of_forced {plain : Request} (forced : plain.forced = true)
    (once : plain.options.iterative = false) (whole : e.Uninterrupted book plain answers) :
    let marked := book.applyResults (e.runPass book plain answers).results
    marked.SameFormulas book ∧ (∀ a, book.formula? a = none → marked.value a = book.value a) ∧
      ∀ a, book.OnCycle a → marked.value a = PassContext.circular := by
  intro marked
  have solves := solves_of_forced forced once e book
  have delivers := delivers_of_forced forced once whole solves
  refine ⟨applyResults_sameFormulas delivers, fun a => value_applyResults_of_constant delivers,
    fun a cyclic => ?_⟩
  obtain ⟨_, ⟨f, formula, _⟩, _⟩ := Relation.TransGen.head'_iff.mp cyclic
  refine Workbook.value_applyResults_of_mem (nodup_cells_runPass e book plain answers) ?_
  refine (delivers.cells _ _).mpr ⟨Workbook.mem_formulaCells.mpr ⟨f, formula⟩, ?_⟩
  exact (solves.formulas a f formula).circular cyclic

/-- Over stored markers, sweeps of a cycle that hands the marker on come to the marker. -/
theorem mem_traceOf_of_contagious (iterative : q.options.iterative = true)
    (same : other.SameFormulas book) {vs : List Nat}
    (found : (e.steps book q)[k]? = some (.cycle vs))
    (contagious : (e.context book q).Contagious ((e.context book q).members vs))
    (stored : ∀ b ∈ (e.plan book q).1.addresses vs, other.value b = PassContext.circular)
    (member : a ∈ (e.plan book q).1.addresses vs) :
    (a, .ok PassContext.circular) ∈ e.traceOf other q (k + 1) := by
  have found' : (e.steps other q)[k]? = some (.cycle vs) := by rwa [steps_of_sameFormulas same]
  have plans : (e.plan other q).1 = (e.plan book q).1 := by rw [plan_of_sameFormulas same]
  have members : (e.context other q).members vs = (e.context book q).members vs := by
    rw [context_of_sameFormulas same]
    rfl
  have contagious' : (e.context other q).Contagious ((e.context other q).members vs) := by
    rw [members, context_of_sameFormulas same]
    intro y listed value held
    rw [same.viewWith]
    exact contagious y listed value held
  have held : ∀ z ∈ (e.context other q).members vs,
      (e.context other q).value (e.overlay other q k) z.address = PassContext.circular := by
    intro z listed
    have inside : z.address ∈ (e.plan other q).1.addresses vs := List.mem_map_of_mem listed
    rw [value_overlay_of_notMem (notMem_early_of_step found' inside)]
    exact stored _ (plans ▸ inside)
  rw [traceOf_succ found', PassContext.outcomes_cycle iterative,
    PassContext.sweeps_of_contagious contagious' held (Nat.le_max_right _ 1)]
  rw [← plans] at member
  obtain ⟨y, listed, rfl⟩ := List.mem_map.mp member
  exact List.mem_append_right _ (List.mem_map.mpr ⟨y, listed, rfl⟩)

/-- After a forced pass without iteration has been written back, a forced pass with iteration
delivers what it delivers without that, wherever all cycles that a cell is on or depends on recover
from the markers stored in them. A cycle that hands the marker on is delivered as markers again. -/
theorem iteration_after_markers {plain : Request} (once : plain.options.iterative = false)
    (first : plain.forced = true) {before : List Checkpoint}
    (whole : e.Uninterrupted book plain before) (iterative : q.options.iterative = true)
    (forced : q.forced = true) :
    let marked := book.applyResults (e.runPass book plain before).results
    (∀ a, e.Untroubled book q a → ∀ answers,
      let fresh := (e.runPass book q answers).results
      let after := (e.runPass marked q answers).results
      after.value? a = fresh.value? a ∧ ∀ m, ⟨a, m⟩ ∈ after.faults ↔ ⟨a, m⟩ ∈ fresh.faults) ∧
    ∀ (k : Nat) (vs : List Nat), (e.steps book q)[k]? = some (.cycle vs) →
      (e.context book q).Contagious ((e.context book q).members vs) →
      ∀ a ∈ (e.plan book q).1.addresses vs, ∀ answers, e.Uninterrupted marked q answers →
        (e.runPass marked q answers).results.value? a = some PassContext.circular := by
  intro marked
  obtain ⟨same, values, stored⟩ := marked_of_forced first once whole
  have steps : e.steps marked q = e.steps book q := steps_of_sameFormulas same
  refine ⟨fun a untroubled answers => ?_, fun k vs found contagious a member answers calm => ?_⟩
  · have performed : e.performed marked q answers = e.performed book q answers := by
      rw [Engine.performed, Engine.performed, steps]
    have agree := agreeAfter forced iterative same values stored (e.performed book q answers) a untroubled
    constructor
    · refine Option.ext fun v => ?_
      rw [value?_runPass_iff, value?_runPass_iff, performed]
      exact agree (.ok v)
    · intro m
      rw [mem_faults_runPass_iff, mem_faults_runPass_iff, performed]
      exact exists_congr fun fault => and_congr_left fun _ => agree (.error fault)
  · have markers : ∀ b ∈ (e.plan book q).1.addresses vs, marked.value b = PassContext.circular :=
      fun b listed => stored b (onCycle_of_step forced found listed)
    have computed := mem_traceOf_of_contagious iterative same found contagious markers member
    have all : e.performed marked q answers = (e.steps marked q).length := by
      rw [Engine.performed, calm.calm, Option.map_none, Option.getD_none]
    rw [value?_runPass_iff, all, traceOf, List.take_length]
    exact (PassContext.trace_prefix ∅ _ (k + 1)).mem computed

/-! ### Counters -/

/-- A workbook whose only cell adds one to itself. -/
def counter : Workbook :=
  Workbook.empty.setFormula ⟨"u", "s", 0, 0⟩
    ⟨.binary .add (.reference (.cell ⟨none, none⟩ 0 0)) (.literal (.number 1)), []⟩

/-- A workbook whose only cell adds one to itself, or to zero where it holds an error. -/
def guardedCounter : Workbook :=
  Workbook.empty.setFormula ⟨"u", "s", 0, 0⟩
    ⟨.binary .add (.call "IFERROR" [.reference (.cell ⟨none, none⟩ 0 0), .literal (.number 0)])
      (.literal (.number 1)), []⟩

/-- A workbook made of one formula has no other. -/
theorem formula?_lone {f g : CellFormula}
    (formula : (Workbook.empty.setFormula a f).formula? b = some g) : a = b ∧ f = g := by
  have inserted : (Workbook.empty.setFormula a f).formula? b = if a = b then some f else none :=
    (SortedMap.getElem?_insert _ a b f).trans (congrArg (ite _ _) Std.ExtTreeMap.getElem?_empty)
  rw [inserted] at formula
  split at formula
  next same => exact ⟨same, Option.some.inj formula⟩
  next => cases formula

theorem contagious_counter (e : Engine) (q : Request) (vs : List Nat) :
    (e.context counter q).Contagious ((e.context counter q).members vs) := by
  intro y member value held
  obtain ⟨v, -, source⟩ := PassContext.mem_members.mp member
  obtain ⟨home, written⟩ := formula?_lone (DependencyGraph.eq_vertexAt source).1
  have marker : value ⟨"u", "s", 0, 0⟩ = PassContext.circular := home ▸ held y member
  rw [← home, ← written]
  -- the formula adds one to what its own cell holds
  show Except.ok (Value.broadcast BinaryOp.add.apply (value ⟨"u", "s", 0, 0⟩)
    (.number 1)).toResult = _
  rw [marker]
  rfl

section GuardedCounter

variable {vs : List Nat} {y : Vertex} (library : e.library.get? "IFERROR" =
  some (.exactly "IFERROR" 2 (Logic.replaceIf Value.isError)))
include library

/-- The guarded counter adds one to its own cell, with an error replaced by a zero. -/
theorem cellValue_guardedCounter (member : y ∈ (e.context guardedCounter q).members vs)
    (value : Address → Value) :
    y.formula.tree.cellValue (guardedCounter.viewWith value e.library e.config.now e.config.seed)
        y.address =
      .ok (Value.broadcast BinaryOp.add.apply
        (Outcome.toValue ((Logic.replaceIf Value.isError [value y.address, .number 0]).map
          Value.toResult))
        (.number 1)).toResult := by
  obtain ⟨v, -, source⟩ := PassContext.mem_members.mp member
  obtain ⟨home, written⟩ := formula?_lone (DependencyGraph.eq_vertexAt source).1
  have called : (guardedCounter.viewWith value e.library e.config.now e.config.seed).function?
      "IFERROR" = _ := library
  rw [← home, ← written]
  unfold Formula.cellValue Formula.value
  simp only [Formula.evaluate, called]
  rfl

theorem indifferent_guardedCounter :
    (e.context guardedCounter q).Indifferent ((e.context guardedCounter q).members vs) := by
  intro y member value value' near
  have gives := cellValue_guardedCounter library member
  refine (gives value').trans (.trans ?_ (gives value).symm)
  rcases near y.address with same | ⟨-, blank, marked⟩
  · rw [same]
  · rw [blank, marked]
    rfl

/-- From a blank, the guarded counter goes to one. -/
theorem stirs_guardedCounter (small : q.options.tolerance < 1)
    (cyclic : (e.context guardedCounter q).members vs ≠ []) :
    (e.context guardedCounter q).Stirs ((e.context guardedCounter q).members vs) := by
  obtain ⟨y, rest, members⟩ := List.exists_cons_of_ne_nil cyclic
  refine ⟨y, rest, members, fun value blank => ?_⟩
  have member : y ∈ (e.context guardedCounter q).members vs := members ▸ List.mem_cons_self
  have gives := cellValue_guardedCounter library member value
  rw [blank y member] at gives
  refine lt_of_lt_of_eq small ?_
  exact (congrArg (PassContext.change .blank ∘ PassContext.shown) gives).symm

theorem untroubled_guardedCounter (small : q.options.tolerance < 1) :
    e.Untroubled guardedCounter q a := by
  intro k vs found b member _
  refine recovers_of_formulas found (fun _ _ => rfl) (indifferent_guardedCounter library) ?_
  refine stirs_guardedCounter library small fun none => ?_
  have listed : b ∈ ((e.context guardedCounter q).members vs).map Vertex.address := member
  rw [none] at listed
  cases listed

end GuardedCounter

/-- The counter keeps its marker; the guarded one forgets it, and counts to the number of sweeps. -/
theorem counters_after_markers :
    let e : Engine := ⟨⟨false, 1, 256, 100, true, 0, 0⟩, .ofList Logic.functions⟩
    let here : Address := ⟨"u", "s", 0, 0⟩
    let q := Request.full.withOptions (.iterating 3 0)
    let marked := counter.applyResults (e.runPass counter .full []).results
    let marked' := guardedCounter.applyResults (e.runPass guardedCounter .full []).results
    (e.runPass marked q []).results.value? here = some PassContext.circular ∧
      (e.runPass marked' q []).results.value? here =
        (e.runPass guardedCounter q []).results.value? here ∧
      ((e.runPass guardedCounter q []).results.value? here).any (Value.same (.number 3)) = true := by
  intro e here q marked marked'
  have library : e.library.get? "IFERROR" =
      some (.exactly "IFERROR" 2 (Logic.replaceIf Value.isError)) := by
    refine Library.get?_ofList (f := .exactly "IFERROR" 2 (Logic.replaceIf Value.isError)) ?_ ?_
    · decide +kernel
    · simp [Logic.functions]
  have untroubled : e.Untroubled guardedCounter q here :=
    untroubled_guardedCounter library (by decide +kernel)
  refine ⟨?_, ?_, ?_⟩
  · refine (iteration_after_markers rfl rfl (uninterrupted_nil _ _ _) rfl rfl).2 0 [0] ?_
      (contagious_counter e q [0]) here ?_ [] (uninterrupted_nil _ _ _)
    · decide +kernel
    · decide +kernel
  · exact ((iteration_after_markers rfl rfl (uninterrupted_nil _ _ _) rfl rfl).1 here untroubled []).1
  · decide +kernel

/-- From the blank that a new formula cell holds, three sweeps count to a number; from the marker
they do not. -/
theorem markers_stop_counter :
    let e : Engine := ⟨⟨false, 1, 256, 100, true, 0, 0⟩, .empty⟩
    let here : Address := ⟨"u", "s", 0, 0⟩
    let q := Request.full.withOptions (.iterating 3 0)
    let marked := counter.applyResults (e.runPass counter .full []).results
    counter.value here = .blank ∧
      (e.runPass marked q []).results.value? here ≠ (e.runPass counter q []).results.value? here := by
  intro e here q marked
  have fresh : ((e.runPass counter q []).results.value? here).any Value.isNumber = true := by
    decide +kernel
  have after : ((e.runPass marked q []).results.value? here).any Value.isNumber = false := by
    decide +kernel
  refine ⟨rfl, fun same => ?_⟩
  rw [same, fresh] at after
  cases after

end Engine

end Recalc
