import Recalc.Proofs.Solution
import Recalc.Proofs.WriteBack

/-!
# Forced passes

A forced pass without iteration computes every formula cell. It delivers the one solution of the
equations of the workbook (`forced_pass_solves`), whatever is stored in formula cells.
-/
namespace Recalc

/-- The values and faults of an assignment at the formula cells, each cell once. -/
structure Results.Delivers (r : Results) (book : Workbook) (s : Assignment) : Prop where
  -- no cell twice, be it as a value or as a fault
  once : r.carried.Perm book.formulaCells
  cells : ∀ a v, (a, v) ∈ r.cells ↔ a ∈ book.formulaCells ∧ s a = .ok v
  faults : ∀ a m, ⟨a, m⟩ ∈ r.faults ↔
    a ∈ book.formulaCells ∧ ∃ fault, s a = .error fault ∧ m = fault.message

namespace Engine

variable {e : Engine} {book other : Workbook} {q : Request} {answers : List Checkpoint}
  {s t : Assignment}

/-! ### What a pass delivers -/

theorem runPass_uninterrupted (whole : e.Uninterrupted book q answers) :
    e.runPass book q answers =
      let state := (e.context book q).performAll (e.steps book q)
      ⟨.completed, state.results, state.completed, (e.plan book q).2.size, state.progress,
        (e.steps book q).length⟩ :=
  runPass_of_calm whole.calm

/-- The results of an uninterrupted pass are its trace. -/
theorem carries_of_uninterrupted (whole : e.Uninterrupted book q answers) :
    ∃ state, (e.context book q).Carries state (e.trace book q) ∧
      (e.runPass book q answers).results = state.results := by
  refine ⟨_, PassContext.performAll_carries (e.nodup_trace book q), ?_⟩
  rw [runPass_uninterrupted whole]

theorem delivers_of_carries {state : PassState}
    (carries : (e.context book q).Carries state (e.trace book q))
    (all : ∀ a, a ∈ (e.trace book q).map Prod.fst ↔ a ∈ book.formulaCells)
    (agree : ∀ x ∈ e.trace book q, x.2 = s x.1) : state.results.Delivers book s := by
  have nodup := e.nodup_trace book q
  have outcome : ∀ a x, (a, x) ∈ e.trace book q ↔ a ∈ book.formulaCells ∧ s a = x := by
    intro a x
    rw [← all]
    constructor
    · exact fun member => ⟨List.mem_map_of_mem member, (agree _ member).symm⟩
    · rintro ⟨computed, rfl⟩
      obtain ⟨⟨b, y⟩, member, rfl⟩ := List.mem_map.mp computed
      exact agree _ member ▸ member
  refine ⟨?_, fun a v => ?_, fun a m => ?_⟩
  · refine (carries.carried_perm nodup).trans ?_
    exact (List.perm_ext_iff_of_nodup nodup book.nodup_formulaCells).mpr all
  · rw [carries.mem_cells, outcome]
  · rw [carries.faults, PassContext.mem_filterMap_fault?]
    simp only [outcome, and_assoc, exists_and_left]

/-! ### Forced passes -/

theorem mem_known_all {v : Nat} :
    v ∈ (e.plan book q).1.dependencies.known (e.plan book q).1.all ↔ v < (e.plan book q).1.size := by
  rw [Digraph.mem_known, DependencyGraph.all, List.mem_range, plan_eq, DependencyGraph.ofWorkbook,
    DependencyGraph.size_dependencies, and_self]

theorem sweeps_of_forced (forced : q.forced = true) (plain : q.options.iterative = false)
    (e : Engine) (book : Workbook) : e.Sweeps book q (e.plan book q).1.all where
  plain := plain
  schedule := if_pos forced
  closed v w _ edge := by
    obtain ⟨_, _, source, _⟩ := DependencyGraph.mem_next.mp edge
    exact mem_known_all.mpr (DependencyGraph.lt_size source)

theorem computed_of_forced (forced : q.forced = true) (e : Engine) (book : Workbook) (a : Address) :
    a ∈ (e.trace book q).map Prod.fst ↔ a ∈ book.formulaCells := by
  refine Iff.trans ⟨exists_formula, fun ⟨f, formula⟩ => ?_⟩ Workbook.mem_formulaCells.symm
  have schedule : (e.plan book q).2 =
      (e.plan book q).1.dependencies.schedule (e.plan book q).1.all := if_pos forced
  obtain ⟨v, found⟩ := DependencyGraph.exists_vertexAt e.library formula
  rw [trace, PassContext.addresses_trace, DependencyGraph.mem_addresses, ← order_eq, schedule]
  exact ⟨v, Digraph.mem_order.mpr (mem_known_all.mpr (DependencyGraph.lt_size found)), _, found, rfl⟩

/-- The outcomes of a forced pass solve the equations. -/
theorem solves_of_forced (forced : q.forced = true) (plain : q.options.iterative = false)
    (e : Engine) (book : Workbook) : e.Solves book (.after book (e.trace book q)) where
  stored a none := by
    refine Assignment.after_of_notMem fun computed => ?_
    rw [computed_of_forced forced] at computed
    exact Workbook.notMem_formulaCells.mpr none computed
  formulas a f formula := by
    refine (sweeps_of_forced forced plain e book).after_holdsAt formula ?_
    exact (computed_of_forced forced e book a).mpr (Workbook.mem_formulaCells.mpr ⟨f, formula⟩)

/-- A forced pass computes every solution. -/
theorem trace_of_solves (forced : q.forced = true) (plain : q.options.iterative = false)
    (solves : e.Solves book s) : ∀ x ∈ e.trace book q, x.2 = s x.1 := by
  refine (sweeps_of_forced forced plain e book).trace_eq (fun a f formula _ => ?_) fun a absent => ?_
  · exact solves.formulas a f formula
  · rw [computed_of_forced forced, Workbook.notMem_formulaCells] at absent
    rw [Assignment.seen, solves.stored a absent]
    rfl

/-- The equations of a workbook have one solution. -/
theorem solution_unique (first : e.Solves book s) (second : e.Solves book t) : s = t := by
  funext a
  cases formula : book.formula? a with
  | none => rw [first.stored a formula, second.stored a formula]
  | some f =>
    have computed := (computed_of_forced (q := .full) rfl e book a).mpr
      (Workbook.mem_formulaCells.mpr ⟨f, formula⟩)
    obtain ⟨x, member, rfl⟩ := List.mem_map.mp computed
    rw [← trace_of_solves (q := .full) rfl rfl first x member,
      ← trace_of_solves (q := .full) rfl rfl second x member]

/-! ### Stored values -/

/-- Solutions do not depend on what is stored in formula cells. -/
theorem Solves.transfer (solves : e.Solves book s) (same : other.SameFormulas book)
    (values : ∀ a, book.formula? a = none → other.value a = book.value a) : e.Solves other s where
  stored a none := by
    rw [same.formula?] at none
    rw [solves.stored a none, values a none]
  formulas a f formula := by
    rw [same.formula?] at formula
    have reads : other.Reads = book.Reads := by
      funext a c
      simp only [Workbook.Reads, same.formula?, same.precedents]
    have holds := solves.formulas a f formula
    refine ⟨fun cycle => holds.circular ?_, fun acyclic => ?_⟩
    · rwa [Workbook.OnCycle, reads] at cycle
    · rw [Workbook.OnCycle, reads] at acyclic
      rw [same.viewWith]
      exact holds.formula acyclic

private theorem eq_of_agree {first second : List (Address × Except Fault Value)}
    (cells : first.map Prod.fst = second.map Prod.fst) (agree : ∀ x ∈ first, x.2 = s x.1)
    (also : ∀ x ∈ second, x.2 = s x.1) : first = second := by
  have listed : ∀ l : List (Address × Except Fault Value), (∀ x ∈ l, x.2 = s x.1) →
      l = (l.map Prod.fst).map fun a => (a, s a) := by
    intro l agree
    rw [List.map_map]
    conv_lhs => rw [← List.map_id l]
    exact List.map_congr_left fun x member => Prod.ext rfl (agree x member)
  rw [listed first agree, listed second also, cells]

theorem plan_of_sameFormulas (same : other.SameFormulas book) : e.plan other q = e.plan book q := by
  rw [plan_eq, plan_eq, same.ofWorkbook]

/-- A forced pass does not depend on what is stored in formula cells. -/
theorem runPass_of_sameFormulas (forced : q.forced = true) (plain : q.options.iterative = false)
    (same : other.SameFormulas book)
    (values : ∀ a, book.formula? a = none → other.value a = book.value a)
    (answers : List Checkpoint) : e.runPass other q answers = e.runPass book q answers := by
  have plans := plan_of_sameFormulas (e := e) (q := q) same
  have steps : e.steps other q = e.steps book q := by rw [Engine.steps, Engine.steps, plans]
  have context : e.context other q = { e.context book q with book := other } := by
    simp only [Engine.context, plans]
  -- both passes compute the one solution, so they agree after every number of steps
  have solves := solves_of_forced forced plain e book
  have states : ∀ k, (e.context other q).performAll ((e.steps book q).take k) =
      (e.context book q).performAll ((e.steps book q).take k) := by
    intro k
    rw [context]
    refine PassContext.foldl_perform_congr (s := .start) ?_
    have inBook := PassContext.trace_prefix (c := e.context book q) ∅ (e.steps book q) k
    have inOther := PassContext.trace_prefix (c := e.context other q) ∅ (e.steps other q) k
    rw [steps, context] at inOther
    refine eq_of_agree (s := .after book (e.trace book q)) ?_ (fun x member => ?_) fun x member => ?_
    · rw [PassContext.addresses_trace, PassContext.addresses_trace]
    · refine trace_of_solves forced plain (solves.transfer same values) x ?_
      rw [trace, steps, context]
      exact inOther.mem member
    · exact trace_of_solves forced plain solves x (inBook.mem member)
  cases found : interruption? answers (e.steps book q).length with
  | none =>
    have whole := states (e.steps book q).length
    rw [List.take_length] at whole
    rw [runPass_of_calm found, runPass_of_calm (steps.symm ▸ found), steps, plans, whole]
  | some stop =>
    rw [runPass_of_interruption found, runPass_of_interruption (steps.symm ▸ found), steps, plans,
      states]

/-! ### Delivery -/

theorem delivers_of_forced (forced : q.forced = true) (plain : q.options.iterative = false)
    (whole : e.Uninterrupted book q answers) (solves : e.Solves book s) :
    (e.runPass book q answers).results.Delivers book s := by
  obtain ⟨state, carries, results⟩ := carries_of_uninterrupted whole
  rw [results]
  exact delivers_of_carries carries (computed_of_forced forced e book)
    (trace_of_solves forced plain solves)

/-- Where there is no fault, every formula cell has a value. -/
theorem ok_of_healthy {r : Results} (delivers : r.Delivers book s) (healthy : r.faults = [])
    {a : Address} (formula : a ∈ book.formulaCells) : s a = .ok (s.seen a) := by
  cases outcome : s a with
  | ok v =>
    rw [Assignment.seen, outcome]
    rfl
  | error fault =>
    -- a cell without a value would be listed as a fault
    have faulty := (delivers.faults a fault.message).mpr ⟨formula, fault, outcome, rfl⟩
    rw [healthy] at faulty
    cases faulty

/-! ### Results that are written back -/

/-- Once results without a fault are written back, every cell stores what its readers saw at the end
of the pass. -/
theorem value_applyResults {state : PassState}
    (carries : (e.context book q).Carries state (e.trace book q))
    (healthy : state.results.faults = []) (a : Address) :
    (book.applyResults state.results).value a = (Assignment.after book (e.trace book q)).seen a := by
  have nodup := e.nodup_trace book q
  have once : (state.results.cells.map Prod.fst).Nodup :=
    (carries.nodup_carried nodup).of_append_left
  by_cases computed : a ∈ (e.trace book q).map Prod.fst
  · obtain ⟨⟨c, x⟩, member, rfl⟩ := List.mem_map.mp computed
    rw [Assignment.seen, Assignment.after_of_mem nodup member]
    cases x with
    | ok v => exact Workbook.value_applyResults_of_mem once (carries.mem_cells.mpr member)
    | error fault =>
      have faulty : ⟨c, fault.message⟩ ∈ state.results.faults := by
        rw [carries.faults]
        exact PassContext.mem_filterMap_fault?.mpr ⟨fault, member, rfl⟩
      rw [healthy] at faulty
      cases faulty
  · have absent : a ∉ state.results.cells.map Prod.fst := fun listed =>
      computed (carries.mem_carried.mp (List.mem_append_left _ listed))
    rw [Workbook.value_applyResults_of_notMem absent, Assignment.seen,
      Assignment.after_of_notMem computed]
    rfl

theorem applyResults_sameFormulas {r : Results} (delivers : r.Delivers book s) :
    (book.applyResults r).SameFormulas book := by
  refine Workbook.applyResults_sameFormulas fun ⟨a, v⟩ listed => ?_
  obtain ⟨f, formula⟩ := Workbook.mem_formulaCells.mp ((delivers.cells a v).mp listed).1
  refine book.formulas_onSheet a (Std.ExtTreeMap.mem_iff_isSome_getElem?.mpr ?_)
  rw [Workbook.formula?] at formula
  rw [formula]
  rfl

/-- Written back, results leave all constants as they are. -/
theorem value_applyResults_of_constant {r : Results} (delivers : r.Delivers book s) {a : Address}
    (constant : book.formula? a = none) : (book.applyResults r).value a = book.value a := by
  refine Workbook.value_applyResults_of_notMem fun listed => ?_
  obtain ⟨⟨_, v⟩, member, rfl⟩ := List.mem_map.mp listed
  exact Workbook.notMem_formulaCells.mpr constant ((delivers.cells _ v).mp member).1

/-- A forced pass that is not interrupted completes and delivers the one solution of the equations,
which what is stored in formula cells has no part in. If there is no fault, writing it back leaves
every formula off the cycles with the value that it then evaluates to. -/
theorem forced_pass_solves (forced : q.forced = true) (plain : q.options.iterative = false)
    (whole : e.Uninterrupted book q answers) :
    let outcome := e.runPass book q answers
    outcome.finish = .completed ∧
      ∃ s, e.Solves book s ∧ (∀ t, e.Solves book t → t = s) ∧ outcome.results.Delivers book s ∧
        (∀ other : Workbook, other.SameFormulas book →
          (∀ a, book.formula? a = none → other.value a = book.value a) →
          e.runPass other q answers = outcome) ∧
        (outcome.results.faults = [] → ∀ a f, book.formula? a = some f → ¬book.OnCycle a →
          let after := book.applyResults outcome.results
          f.tree.cellValue (after.view e.library e.config.now e.config.seed) a =
            .ok (after.value a)) := by
  intro outcome
  have solves := solves_of_forced forced plain e book
  have delivers := delivers_of_forced forced plain whole solves
  refine ⟨?_, _, solves, fun t other => solution_unique other solves, delivers, ?_, ?_⟩
  · rw [show outcome = _ from runPass_uninterrupted whole]
  · exact fun other same values => runPass_of_sameFormulas forced plain same values answers
  · intro healthy a f formula acyclic after
    obtain ⟨state, carries, results⟩ := carries_of_uninterrupted whole
    have values : after.value = (Assignment.after book (e.trace book q)).seen := funext fun c => by
      rw [show after = book.applyResults state.results from congrArg book.applyResults results]
      exact value_applyResults carries (results ▸ healthy) c
    have member := Workbook.mem_formulaCells.mpr ⟨f, formula⟩
    -- the stored values are now the solution, whose equation at `a` is what is left
    rw [Workbook.view, (applyResults_sameFormulas delivers).viewWith, values,
      ← (solves.formulas a f formula).formula acyclic]
    exact ok_of_healthy delivers healthy member

/-- A cell that reads itself is circular. -/
theorem self_reader_is_circular :
    let e : Engine := ⟨⟨true, 4, 256, 100, true, 0, 0⟩, .standard⟩
    let here : Address := ⟨"u", "s", 0, 0⟩
    let book := Workbook.empty.setFormula here ⟨.reference (.cell ⟨none, none⟩ 0 0), []⟩
    (here, PassContext.circular) ∈ (e.runPass book .full [.go, .go]).results.cells := by
  intro e here book
  have formula : book.formula? here = some ⟨.reference (.cell ⟨none, none⟩ 0 0), []⟩ :=
    Std.ExtTreeMap.getElem?_insert_self
  have whole : e.Uninterrupted book .full [.go, .go] := uninterrupted_of_go (by simp)
  obtain ⟨-, s, solves, -, delivers, -⟩ := forced_pass_solves rfl rfl whole
  refine (delivers.cells _ _).mpr ⟨Workbook.mem_formulaCells.mpr ⟨_, formula⟩, ?_⟩
  refine (solves.formulas _ _ formula).circular (.single ⟨_, formula, ?_⟩)
  refine ⟨⟨"u", "s", .ofPosition 0 0⟩, CellFormula.mem_regions.mpr ?_, by decide⟩
  refine ⟨.cell ⟨none, none⟩ 0 0, ?_, _, List.mem_singleton_self _, rfl⟩
  simp [Formula.references, Formula.subtrees]

end Engine

end Recalc
