import Recalc.Proofs.Interruption
import Recalc.Proofs.Readiness

/-!
# Parallel passes

The cells of a chunk are all evaluated over what was computed before the chunk. No cell of a layer
reads another one of it, so that steps compute what they compute one cell at a time
(`trace_single`), and a pass delivers the same in parallel (`parallel_eq_sequential`).
-/
namespace Recalc

/-! ### One cell at a time -/

namespace Step

/-- The steps for one cell at a time. A cycle stays whole. -/
def single : Step → List Step
  | cells vs => vs.map fun v => cells [v]
  | cycle vs => [cycle vs]

theorem single_ofVertices (config : Config) (vs : List Nat) :
    (ofVertices config vs).flatMap single = vs.map fun v => cells [v] := by
  unfold ofVertices
  split
  · have chunks : ∀ parts : List (List Nat),
        (parts.map cells).flatMap single = parts.flatten.map fun v => cells [v] := fun parts => by
      rw [List.flatMap_map, List.map_flatten, List.flatMap_def]
      rfl
    rw [chunks, flatten_pieces]
  · rw [List.flatMap_map]
    exact List.map_eq_flatMap.symm

/-- However the layers are cut into steps, one cell at a time they are the steps of a sequential
pass. -/
theorem single_ofSchedule (config : Config) (s : Schedule) :
    (ofSchedule config s).flatMap single = ofSchedule { config with parallel := false } s := by
  have layers : ∀ l, (ofLayer config l).flatMap single = ofLayer { config with parallel := false } l :=
    fun l => by
      have cycles : (l.cycles.map cycle).flatMap single = l.cycles.map cycle := by
        rw [List.flatMap_map]
        exact List.map_eq_flatMap.symm
      rw [ofLayer, List.flatMap_append, single_ofVertices, cycles]
      rfl
  rw [ofSchedule, List.flatMap_assoc, funext layers]
  rfl

end Step

namespace PassContext

variable {c : PassContext} {steps : List Step}

section Graph

variable (graph : c.graph = .ofWorkbook c.book c.library)
include graph

/-- Cells that do not read one another can be evaluated in turn. -/
theorem trace_cells {vs : List Nat}
    (apart : ∀ v ∈ vs, ∀ w ∈ c.graph.dependencies.next v, w ∉ vs)
    (overlay : SortedMap Address Value) :
    c.trace overlay (Step.single (.cells vs)) = c.outcomes overlay (.cells vs) := by
  induction vs generalizing overlay with
  | nil => rfl
  | cons v rest ih =>
    have others : ∀ u ∈ rest, ∀ w ∈ c.graph.dependencies.next u, w ∉ rest := fun u member w edge later =>
      apart u (List.mem_cons_of_mem _ member) w edge (List.mem_cons_of_mem _ later)
    -- recording the outcome of the first cell changes nothing that the others read
    have unread : c.outcomes (record overlay (c.outcomes overlay (.cells [v]))) (.cells rest) =
        c.outcomes overlay (.cells rest) := by
      refine List.map_congr_left fun y member => Prod.ext rfl ?_
      obtain ⟨u, inside, found⟩ := mem_members.mp member
      refine outcome_congr graph found (.cells rest) fun a reads => ?_
      rw [value, value, record_of_notMem]
      rw [addresses_outcomes, DependencyGraph.mem_addresses]
      rintro ⟨w, here, z, target, rfl⟩
      have edge : w ∈ c.graph.dependencies.next u := by
        rw [graph] at found target ⊢
        exact DependencyGraph.mem_next.mpr ⟨y, z, found, target, reads⟩
      obtain rfl := List.mem_singleton.mp here
      exact apart u (List.mem_cons_of_mem _ inside) w edge List.mem_cons_self
    have split : c.outcomes overlay (.cells (v :: rest)) =
        c.outcomes overlay (.cells [v]) ++ c.outcomes overlay (.cells rest) := by
      simp only [outcomes, members]
      rw [← List.map_append, ← List.filterMap_append]
      rfl
    rw [split, ← unread, ← ih others]
    rfl

/-- Steps in which no cell reads another one compute the same one cell at a time. -/
theorem trace_single (ready : Step.Ready c.graph.dependencies steps)
    (overlay : SortedMap Address Value) :
    c.trace overlay (steps.flatMap Step.single) = c.trace overlay steps := by
  induction steps generalizing overlay with
  | nil => rfl
  | cons step rest ih =>
    have alone : c.trace overlay step.single = c.outcomes overlay step := by
      cases step with
      | cells vs =>
        exact trace_cells graph (fun v member w edge together =>
          ready.1 v member w edge (List.mem_append_left _ together)) overlay
      | cycle vs => exact List.append_nil _
    rw [List.flatMap_cons, trace_append, alone, ih ready.tail]
    rfl

end Graph

/-! ### What does not depend on the configuration -/

section Configurations

variable (config : Config) (now : config.now = c.config.now) (seed : config.seed = c.config.seed)
include now seed

theorem evaluate_withConfig (overlay : SortedMap Address Value) (v : Vertex) :
    evaluate { c with config } overlay v = c.evaluate overlay v := by
  simp only [evaluate, now, seed]
  rfl

theorem outcomes_withConfig (overlay : SortedMap Address Value) (step : Step) :
    outcomes { c with config } overlay step = c.outcomes overlay step := by
  have evaluates : evaluate { c with config } = c.evaluate :=
    funext fun overlay => funext fun v => evaluate_withConfig config now seed overlay v
  have sweeping : sweep { c with config } = c.sweep := by
    funext overlay members
    simp only [sweep, evaluates]
    rfl
  have swept : ∀ members limit overlay,
      sweeps { c with config } members limit overlay = c.sweeps members limit overlay := by
    intro members limit
    induction limit with
    | zero => exact fun overlay => rfl
    | succ limit ih =>
      intro overlay
      simp only [sweeps, sweeping, ih]
  cases step with
  | cells vs =>
    simp only [outcomes, evaluates]
    rfl
  | cycle vs =>
    simp only [outcomes, cycleOutcomes, swept]
    rfl

theorem trace_withConfig (overlay : SortedMap Address Value) (steps : List Step) :
    trace { c with config } overlay steps = c.trace overlay steps := by
  induction steps generalizing overlay with
  | nil => rfl
  | cons step rest ih => rw [trace, trace, outcomes_withConfig config now seed, ih]

end Configurations

end PassContext

/-! ### What a trace delivers -/

/-- A state, but for what has been reported on the way. -/
def PassState.unreported (s : PassState) : PassState :=
  { s with reported := 0, progress := [] }

namespace PassContext

variable {c : PassContext}

theorem unreported_commitAll (s : PassState) (outcomes : List (Address × Except Fault Value)) :
    (c.commitAll s outcomes).unreported = c.commitAll s.unreported outcomes := by
  induction outcomes generalizing s with
  | nil => rfl
  | cons x rest ih => exact ih (c.commit s x.1 x.2)

theorem unreported_perform (s : PassState) (step : Step) :
    (c.perform s step).unreported = c.commitAll s.unreported (c.outcomes s.overlay step) := by
  rw [← unreported_commitAll]
  unfold perform report
  simp only
  split
  · rfl
  · rfl

/-- What a pass delivers is a function of its trace. -/
theorem unreported_performAll (steps : List Step) :
    (c.performAll steps).unreported = c.commitAll .start (c.trace ∅ steps) := by
  suffices general : ∀ s : PassState, (steps.foldl c.perform s).unreported =
      c.commitAll s.unreported (c.trace s.overlay steps) from general .start
  intro s
  induction steps generalizing s with
  | nil => rfl
  | cons step rest ih =>
    have both : ∀ outcomes more, c.commitAll s.unreported (outcomes ++ more) =
        c.commitAll (c.commitAll s.unreported outcomes) more := fun _ _ => List.foldl_append
    rw [List.foldl_cons, ih, unreported_perform, overlay_perform, trace, both]

end PassContext

/-! ### Passes -/

namespace Engine

variable {e : Engine} {book : Workbook} {q : Request}

/-- An engine that evaluates wide layers in chunks, on some number of threads. -/
def inParallel (e : Engine) (threads threshold : Nat) : Engine :=
  { e with config := { e.config with parallel := true, threads, threshold } }

/-- An engine that evaluates one cell after the other. -/
def sequential (e : Engine) : Engine :=
  { e with config := { e.config with parallel := false } }

/-- Whatever the chunks are, the outcomes are those of evaluating one cell after the other. -/
theorem trace_inParallel (e : Engine) (threads threshold : Nat) (book : Workbook) (q : Request) :
    (e.inParallel threads threshold).trace book q = e.sequential.trace book q := by
  let parallel := e.inParallel threads threshold
  -- the steps of a schedule read only earlier steps, wherever its layers are cut
  have ready : Step.Ready (parallel.context book q).graph.dependencies (parallel.steps book q) := by
    obtain ⟨vertices, same⟩ := parallel.exists_schedule book q
    rw [steps, same]
    exact Step.ready_ofSchedule _ _ vertices
  have cut : (parallel.steps book q).flatMap Step.single = e.sequential.steps book q :=
    Step.single_ofSchedule parallel.config _
  have kept : ∀ steps, (parallel.context book q).trace ∅ steps =
      (e.sequential.context book q).trace ∅ steps := fun steps =>
    PassContext.trace_withConfig (c := e.sequential.context book q) parallel.config rfl rfl ∅ steps
  calc parallel.trace book q
    _ = (parallel.context book q).trace ∅ ((parallel.steps book q).flatMap Step.single) :=
        (PassContext.trace_single rfl ready ∅).symm
    _ = (parallel.context book q).trace ∅ (e.sequential.steps book q) := by rw [cut]
    _ = e.sequential.trace book q := kept _

/-- Evaluation in parallel is invisible: with any threshold and any number of threads, a pass that is
not interrupted delivers what it delivers sequentially. -/
theorem parallel_eq_sequential (e : Engine) (threads threshold : Nat) (book : Workbook) (q : Request)
    {answers others : List Checkpoint}
    (whole : (e.inParallel threads threshold).Uninterrupted book q answers)
    (calm : e.sequential.Uninterrupted book q others) :
    let parallel := (e.inParallel threads threshold).runPass book q answers
    let sequential := e.sequential.runPass book q others
    parallel.results = sequential.results ∧ parallel.completed = sequential.completed ∧
      parallel.total = sequential.total ∧ parallel.finish = .completed ∧
      sequential.finish = .completed := by
  intro parallel sequential
  have chunks := runPass_of_calm whole.calm
  have cells := runPass_of_calm calm.calm
  -- both states are what their common trace delivers, up to the reports of progress
  have same : (((e.inParallel threads threshold).context book q).performAll
        ((e.inParallel threads threshold).steps book q)).unreported =
      ((e.sequential.context book q).performAll (e.sequential.steps book q)).unreported := by
    rw [PassContext.unreported_performAll, PassContext.unreported_performAll]
    exact congrArg _ (e.trace_inParallel threads threshold book q)
  have results := congrArg PassState.results same
  have completed := congrArg PassState.completed same
  refine ⟨?_, ?_, ?_, ?_, ?_⟩
  · rw [show parallel = _ from chunks, show sequential = _ from cells]
    exact results
  · rw [show parallel = _ from chunks, show sequential = _ from cells]
    exact completed
  · rw [show parallel = _ from chunks, show sequential = _ from cells]
    rfl
  · rw [show parallel = _ from chunks]
  · rw [show sequential = _ from cells]

/-- Two cells that are evaluated side by side, and one after the other. -/
theorem chunk_of_two_agrees :
    let e : Engine := ⟨⟨false, 4, 256, 100, true, 0, 0⟩, .standard⟩
    let book := (Workbook.empty.setFormula ⟨"u", "s", 0, 0⟩ ⟨.literal (.boolean true), []⟩).setFormula
      ⟨"u", "s", 0, 1⟩ ⟨.literal (.boolean false), []⟩
    ((e.inParallel 4 2).runPass book .full [.go]).results =
      (e.sequential.runPass book .full [.go, .go]).results := by
  intro e book
  have whole : (e.inParallel 4 2).Uninterrupted book .full [.go] :=
    uninterrupted_of_go fun _ listed => List.mem_singleton.mp listed
  have calm : e.sequential.Uninterrupted book .full [.go, .go] :=
    uninterrupted_of_go fun _ listed => List.eq_of_mem_replicate (n := 2) listed
  exact (parallel_eq_sequential e 4 2 book .full whole calm).1

end Engine

end Recalc
