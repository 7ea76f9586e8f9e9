import Recalc.Proofs.Layers
import Recalc.Proofs.Reading
import Recalc.Proofs.Trace

/-!
# Steps and equations

The steps of a schedule come in an order in which no cell is evaluated before a cell that it reads
(`ready_ofSchedule`). Such steps solve the equations of their cells all at once: each outcome is
what the formula gives over the values at the end (`trace_solves`), and whatever satisfies the
equations is what the steps compute (`trace_unique`).
-/
namespace Recalc

namespace Step

/-- Cells read nothing that is evaluated together with them or later. -/
def Ready (g : Digraph) : List Step → Prop
  | [] => True
  | cells vs :: rest =>
    (∀ v ∈ vs, ∀ w ∈ g.next v, w ∉ vs ++ rest.flatMap vertices) ∧ Ready g rest
  | cycle _ :: rest => Ready g rest

theorem Ready.tail {g : Digraph} {step : Step} {rest : List Step} (ready : Ready g (step :: rest)) :
    Ready g rest := by
  cases step with
  | cells vs => exact ready.2
  | cycle vs => exact ready

theorem Ready.of_append_right {g : Digraph} {before later : List Step}
    (ready : Ready g (before ++ later)) : Ready g later := by
  induction before with
  | nil => exact ready
  | cons step rest ih => exact ih ready.tail

theorem ready_append {g : Digraph} {first rest : List Step}
    (early : ∀ vs, cells vs ∈ first → ∀ v ∈ vs, ∀ w ∈ g.next v, w ∉ (first ++ rest).flatMap vertices)
    (ready : Ready g rest) : Ready g (first ++ rest) := by
  induction first with
  | nil => exact ready
  | cons step more ih =>
    have others : Ready g (more ++ rest) := ih fun vs member v inside w edge later =>
      early vs (List.mem_cons_of_mem _ member) v inside w edge (List.mem_append_right _ later)
    cases step with
    | cells vs => exact ⟨early vs List.mem_cons_self, others⟩
    | cycle vs => exact others

theorem cells_mem_ofLayer {config : Config} {l : Layer} {vs : List Nat}
    (member : cells vs ∈ ofLayer config l) {v : Nat} (inside : v ∈ vs) : v ∈ l.vertices := by
  rcases List.mem_append.mp member with plain | cyclic
  · rw [← vertices_ofVertices config l.vertices]
    exact List.mem_flatMap.mpr ⟨_, plain, inside⟩
  · obtain ⟨c, _, same⟩ := List.mem_map.mp cyclic
    cases same

theorem cycle_mem_ofLayer {config : Config} {l : Layer} {c : List Nat}
    (member : cycle c ∈ ofLayer config l) : c ∈ l.cycles := by
  rcases List.mem_append.mp member with plain | cyclic
  · unfold ofVertices at plain
    split at plain
    · obtain ⟨_, _, same⟩ := List.mem_map.mp plain
      cases same
    · obtain ⟨_, _, same⟩ := List.mem_map.mp plain
      cases same
  · obtain ⟨_, listed, same⟩ := List.mem_map.mp cyclic
    cases same
    exact listed

private theorem ready_of_layered {config : Config} {g : Digraph} {within done : List Nat}
    {layers : List Layer} (layered : g.Layered within done layers)
    (nodup : (done ++ layers.flatMap Layer.order).Nodup)
    (inside : ∀ v ∈ layers.flatMap Layer.order, v ∈ within) :
    Ready g (layers.flatMap (ofLayer config)) := by
  induction layers generalizing done with
  | nil => exact trivial
  | cons l rest ih =>
    obtain ⟨here, later⟩ := layered
    rw [List.flatMap_cons] at nodup inside
    have shifted : (done ++ l.order ++ rest.flatMap Layer.order).Nodup := by
      rwa [List.append_assoc]
    rw [List.flatMap_cons]
    refine ready_append (fun vs member v inStep w edge => ?_)
      (ih later shifted fun v member => inside v (List.mem_append_right _ member))
    rw [List.flatMap_append, vertices_ofLayer, List.flatMap_assoc,
      funext (vertices_ofLayer config)]
    intro remaining
    -- what `v` reads is done or on a cycle with it; neither can be among what remains
    have plain : v ∈ l.vertices := cells_mem_ofLayer member inStep
    have known : w ∈ g.nextWithin within v := Digraph.mem_nextWithin.mpr ⟨edge, inside w remaining⟩
    rcases here v (List.mem_append_left _ plain) w known with before | ⟨c, listed, onCycle, -⟩
    · exact List.disjoint_of_nodup_append nodup before remaining
    · have apart : l.order.Nodup := nodup.of_append_right.of_append_left
      exact List.disjoint_of_nodup_append apart plain (List.mem_flatten.mpr ⟨c, listed, onCycle⟩)

/-- The steps of a schedule evaluate no cell before one that it reads. -/
theorem ready_ofSchedule (config : Config) (g : Digraph) (vertices : List Nat) :
    Ready g (ofSchedule config (g.schedule vertices)) :=
  ready_of_layered (g.schedule_layered vertices) (g.nodup_order vertices)
    fun _ member => Digraph.mem_order.mp member

/-- A scheduled vertex is on a cycle exactly if it is part of a cycle step. -/
theorem onCycle_iff_cycle {config : Config} {g : Digraph} {vertices : List Nat} {step : Step}
    (member : step ∈ ofSchedule config (g.schedule vertices)) {v : Nat}
    (inside : v ∈ step.vertices) : g.OnCycle (g.known vertices) v ↔ ∃ c, step = cycle c := by
  obtain ⟨l, layer, inLayer⟩ := List.mem_flatMap.mp member
  cases step with
  | cells vs =>
    have plain := Digraph.not_onCycle_of_mem_vertices layer (cells_mem_ofLayer inLayer inside)
    exact ⟨fun cyclic => absurd cyclic plain, fun ⟨_, same⟩ => nomatch same⟩
  | cycle c =>
    have cyclic := Digraph.onCycle_of_mem_cycles layer (cycle_mem_ofLayer inLayer) inside
    exact ⟨fun _ => ⟨c, rfl⟩, fun _ => cyclic⟩

end Step

/-! ### Equations -/

namespace PassContext

variable {c : PassContext} {overlay : SortedMap Address Value} {steps : List Step}

/-- What a step makes of one of its cells over given values, cycles not being iterated. -/
def outcome (c : PassContext) (value : Address → Value) : Step → Vertex → Except Fault Value
  | .cells _, y => y.formula.tree.cellValue
      (c.book.viewWith value c.library c.config.now c.config.seed) y.address
  | .cycle _, _ => .ok circular

theorem outcomes_eq (plain : c.request.options.iterative = false)
    (overlay : SortedMap Address Value) (step : Step) :
    c.outcomes overlay step = (c.members step.vertices).map fun y =>
      (y.address, c.outcome (c.value overlay) step y) := by
  cases step with
  | cells vs => rfl
  | cycle vs =>
    simp only [outcomes, cycleOutcomes, plain]
    rfl

theorem mem_members {vs : List Nat} {y : Vertex} :
    y ∈ c.members vs ↔ ∃ v ∈ vs, c.graph.vertex? v = some y :=
  List.mem_filterMap

section Graph

variable (graph : c.graph = .ofWorkbook c.book c.library)
include graph

/-- A cell makes the same of values that agree on what it reads. -/
theorem outcome_congr {value other : Address → Value} {v : Nat} {y : Vertex}
    (found : c.graph.vertex? v = some y) (step : Step)
    (same : ∀ a, y.reads a = true → value a = other a) :
    c.outcome value step y = c.outcome other step y := by
  cases step with
  | cycle vs => rfl
  | cells vs =>
    rw [graph] at found
    obtain ⟨-, vertex⟩ := DependencyGraph.eq_vertexAt found
    refine CellFormula.cellValue_congr (.refl _ _ _) fun r listed a inside => same a ?_
    rw [vertex]
    exact List.any_eq_true.mpr ⟨r, listed, inside⟩

/-- A cell that is ready makes the same of values that differ only at the cells that are evaluated
with it or later. -/
theorem outcome_of_ready {step : Step} {rest : List Step}
    (ready : Step.Ready c.graph.dependencies (step :: rest)) {y : Vertex}
    (member : y ∈ c.members step.vertices) {value other : Address → Value}
    (same : ∀ a ∉ c.graph.addresses ((step :: rest).flatMap Step.vertices), value a = other a) :
    c.outcome value step y = c.outcome other step y := by
  cases step with
  | cycle vs => rfl
  | cells vs =>
    obtain ⟨v, inside, found⟩ := mem_members.mp member
    refine outcome_congr graph found (.cells vs) fun a reads => same a fun remaining => ?_
    obtain ⟨w, later, z, target, rfl⟩ := DependencyGraph.mem_addresses.mp remaining
    refine ready.1 v inside w ?_ later
    rw [graph] at found target ⊢
    exact DependencyGraph.mem_next.mpr ⟨y, z, found, target, reads⟩

/-- Every outcome is what the formula gives over the values at the end. -/
theorem trace_solves (overlay : SortedMap Address Value)
    (plain : c.request.options.iterative = false) (ready : Step.Ready c.graph.dependencies steps)
    {step : Step} (listed : step ∈ steps) {y : Vertex} (member : y ∈ c.members step.vertices) :
    (y.address, c.outcome (c.value (record overlay (c.trace overlay steps))) step y) ∈
      c.trace overlay steps := by
  induction steps generalizing overlay with
  | nil => cases listed
  | cons first rest ih =>
    rcases List.mem_cons.mp listed with rfl | later
    · refine List.mem_append_left _ ?_
      rw [outcomes_eq plain]
      refine List.mem_map.mpr ⟨y, member, Prod.ext rfl ?_⟩
      -- what the step did not compute, and no later step does, is what it was
      refine outcome_of_ready graph ready member fun a absent => ?_
      rw [← addresses_trace overlay] at absent
      simp only [value, record_of_notMem absent]
    · rw [trace, record_append]
      exact List.mem_append_right _ (ih _ ready.tail later)

/-- Steps compute whatever satisfies the equations of their cells and agrees with the values at the
start everywhere else. -/
theorem trace_unique (overlay : SortedMap Address Value)
    (plain : c.request.options.iterative = false) (ready : Step.Ready c.graph.dependencies steps)
    {s : Address → Except Fault Value}
    (solves : ∀ step ∈ steps, ∀ y ∈ c.members step.vertices,
      s y.address = c.outcome (fun a => shown (s a)) step y)
    (outside : ∀ a ∉ c.graph.addresses (steps.flatMap Step.vertices),
      c.value overlay a = shown (s a)) :
    ∀ x ∈ c.trace overlay steps, x.2 = s x.1 := by
  induction steps generalizing overlay with
  | nil => exact fun x member => nomatch member
  | cons step rest ih =>
    have first : ∀ x ∈ c.outcomes overlay step, x.2 = s x.1 := by
      rw [outcomes_eq plain]
      intro x member
      obtain ⟨y, inStep, rfl⟩ := List.mem_map.mp member
      rw [solves step List.mem_cons_self y inStep]
      exact outcome_of_ready graph ready inStep outside
    intro x member
    rcases List.mem_append.mp member with now | later
    · exact first x now
    · refine ih _ ready.tail (fun step listed => solves step (List.mem_cons_of_mem _ listed)) ?_ x later
      intro a absent
      -- cells of this step have just been recorded with their values in `s`
      by_cases here : a ∈ (c.outcomes overlay step).map Prod.fst
      · rw [value, record_of_agree first here, Option.getD_some]
      · rw [value, record_of_notMem here]
        refine outside a fun listed => ?_
        rw [List.flatMap_cons, DependencyGraph.addresses_append, List.mem_append,
          ← addresses_outcomes overlay] at listed
        exact listed.elim here absent

end Graph

end PassContext

end Recalc
