import Mathlib.Data.List.Chain
import Mathlib.Data.List.Sort
import Recalc.Proofs.Schedules

/-!
# The depth of a component

A schedule does not depend on how the vertices are listed that it is made for. The layer of a
component is its depth, the length of the longest chain of components that it depends on: whatever it
reads stands in an earlier layer (`stands_lt`), and something in the layer just before
(`stands_before`). The order inside a layer is by vertices, so the layers of two lists of the same
vertices are equal (`schedule_canonical`).
-/
namespace Recalc

/-- The components of a layer, those on no cycle as lists of one vertex. -/
def Layer.components (l : Layer) : List (List Nat) :=
  l.vertices.map (fun v => [v]) ++ l.cycles

/-- A component stands in the layer of a number. -/
def Schedule.Stands (s : Schedule) (k : Nat) (c : List Nat) : Prop :=
  ∃ l, s.layers[k]? = some l ∧ c ∈ l.components

namespace Digraph

/-- The vertices of a component, in ascending order. -/
structure Component (g : Digraph) (within c : List Nat) : Prop where
  ascending : c.Pairwise (· < ·)
  isComponent : g.IsComponent within c

/-- An edge leads from one component to another one. -/
structure ComponentReads (g : Digraph) (within c d : List Nat) : Prop where
  source : g.Component within c
  target : g.Component within d
  apart : c ≠ d
  edge : ∃ v ∈ c, ∃ w ∈ d, w ∈ g.next v

/-- Components of which the first is read by `c`, and each one by that before it. -/
def DependencyChain (g : Digraph) (within c : List Nat) (chain : List (List Nat)) : Prop :=
  (c :: chain).IsChain (g.ComponentReads within)

/-- The longest chain of components that `c` depends on has the length `k`. -/
structure Depth (g : Digraph) (within c : List Nat) (k : Nat) : Prop where
  reached : ∃ chain, g.DependencyChain within c chain ∧ chain.length = k
  longest : ∀ chain, g.DependencyChain within c chain → chain.length ≤ k

variable {g : Digraph} {within vertices c d : List Nat} {k : Nat}

theorem Depth.unique {n : Nat} (first : g.Depth within c k) (second : g.Depth within c n) : k = n := by
  obtain ⟨long, chain, rfl⟩ := first.reached
  obtain ⟨other, chain', rfl⟩ := second.reached
  exact Nat.le_antisymm (second.longest long chain) (first.longest other chain')

theorem component_iff : g.Component (g.known vertices) c ↔ c ∈ g.components vertices :=
  ⟨fun h => mem_components_iff.mpr ⟨h.ascending, h.isComponent⟩, fun listed =>
    have both := mem_components_iff.mp listed
    ⟨both.1, both.2⟩⟩

/-! ### Where a component stands -/

/-- A component that is no cycle is a single vertex. -/
theorem eq_singleton (nonempty : c ≠ []) (plain : g.isCycle c = false) : ∃ v, c = [v] := by
  match c with
  | [] => exact absurd rfl nonempty
  | [v] => exact ⟨v, rfl⟩
  | _ :: _ :: _ => cases plain

theorem mem_components_layerOf {components : List (List Nat)} (nonempty : ∀ c ∈ components, c ≠ []) :
    c ∈ (g.layerOf components).components ↔ c ∈ components := by
  simp only [Layer.components, List.mem_append, List.mem_map, mem_layerOf_vertices,
    mem_layerOf_cycles]
  constructor
  · rintro (⟨v, ⟨e, listed, plain, member⟩, rfl⟩ | ⟨listed, _⟩)
    · obtain ⟨u, rfl⟩ := eq_singleton (nonempty e listed) plain
      rwa [List.mem_singleton.mp member]
    · exact listed
  · intro listed
    cases cycle : g.isCycle c with
    | true => exact .inr ⟨listed, rfl⟩
    | false =>
      obtain ⟨v, rfl⟩ := eq_singleton (nonempty c listed) cycle
      exact .inl ⟨v, ⟨[v], listed, cycle, List.mem_singleton_self v⟩, rfl⟩

theorem mem_components_of_round {round : List Nat} :
    c ∈ (g.layerOf (g.componentsAt vertices round)).components ↔ c ∈ g.componentsAt vertices round :=
  mem_components_layerOf fun _ here =>
    ne_nil_of_mem_components (mem_components_of_mem_componentsAt here)

theorem getElem?_layers (g : Digraph) (vertices : List Nat) (k : Nat) :
    (g.schedule vertices).layers[k]? =
      (g.rounds vertices)[k]?.map fun round => g.layerOf (g.componentsAt vertices round) := by
  rw [schedule_layers, List.getElem?_map]

/-- A component stands in the layer that is made of its round. -/
theorem stands_iff : (g.schedule vertices).Stands k c ↔
    ∃ round, (g.rounds vertices)[k]? = some round ∧ c ∈ g.componentsAt vertices round := by
  unfold Schedule.Stands
  rw [getElem?_layers]
  constructor
  · rintro ⟨_, layer, listed⟩
    obtain ⟨round, found, rfl⟩ := Option.map_eq_some_iff.mp layer
    exact ⟨round, found, mem_components_of_round.mp listed⟩
  · rintro ⟨round, found, listed⟩
    exact ⟨_, Option.map_eq_some_iff.mpr ⟨round, found, rfl⟩, mem_components_of_round.mpr listed⟩

theorem component_of_stands (stands : (g.schedule vertices).Stands k c) :
    g.Component (g.known vertices) c := by
  obtain ⟨_, _, listed⟩ := stands_iff.mp stands
  exact component_iff.mpr (mem_components_of_mem_componentsAt listed)

theorem exists_stands (component : g.Component (g.known vertices) c) :
    ∃ k, (g.schedule vertices).Stands k c := by
  obtain ⟨round, comes, listed⟩ := exists_round (component_iff.mp component)
  obtain ⟨k, found⟩ := List.getElem?_of_mem comes
  exact ⟨k, stands_iff.mpr ⟨round, found, listed⟩⟩

/-- A component reads another one exactly when its position does so in the graph of components. -/
theorem componentReads_iff {i j : Nat} (here : (g.components vertices)[i]? = some c)
    (there : (g.components vertices)[j]? = some d) :
    g.ComponentReads (g.known vertices) c d ↔ j ∈ (g.condense (g.components vertices)).next i := by
  have partition := components_partition g vertices
  have distinct : j ≠ i ↔ c ≠ d := by
    refine not_congr ⟨fun same => ?_, fun same => ?_⟩
    · subst same
      exact Option.some.inj (here.symm.trans there)
    · -- a component at two positions would be disjoint from itself
      subst same
      obtain ⟨v, member⟩ :=
        List.exists_mem_of_ne_nil c (ne_nil_of_mem_components (List.mem_of_getElem? here))
      have first := (positionOf?_eq_some partition.disjoint).mpr ⟨c, here, member⟩
      have second := (positionOf?_eq_some partition.disjoint).mpr ⟨c, there, member⟩
      exact Option.some.inj (second.symm.trans first)
  rw [mem_next_condense]
  constructor
  · rintro ⟨_, _, apart, edge⟩
    exact ⟨c, here, (mem_inputs partition.disjoint).mpr ⟨distinct.mpr apart, d, there, edge⟩⟩
  · rintro ⟨_, same, input⟩
    cases here.symm.trans same
    obtain ⟨ne, _, same, edge⟩ := (mem_inputs partition.disjoint).mp input
    cases there.symm.trans same
    exact ⟨component_iff.mpr (List.mem_of_getElem? here),
      component_iff.mpr (List.mem_of_getElem? there), distinct.mp ne, edge⟩

/-- What a component reads stands in an earlier layer. -/
theorem stands_lt (stands : (g.schedule vertices).Stands k c)
    (reads : g.ComponentReads (g.known vertices) c d) :
    ∃ j < k, (g.schedule vertices).Stands j d := by
  obtain ⟨round, found, listed⟩ := stands_iff.mp stands
  obtain ⟨i, come, here⟩ := mem_componentsAt.mp listed
  obtain ⟨n, there⟩ := List.getElem?_of_mem (component_iff.mp reads.target)
  have edge := (componentReads_iff here there).mp reads
  have inOrder :=
    Countdown.inOrder_rounds (descending_condense (components_partition g vertices))
  rcases inOrder.earlier found come edge with old | ⟨j, less, before, found', come'⟩
  · cases old
  · exact ⟨j, less, stands_iff.mpr ⟨before, found', mem_componentsAt.mpr ⟨n, come', there⟩⟩⟩

/-- A component of a layer but the first reads one of the layer before. -/
theorem stands_before (stands : (g.schedule vertices).Stands (k + 1) c) :
    ∃ d, (g.schedule vertices).Stands k d ∧ g.ComponentReads (g.known vertices) c d := by
  obtain ⟨_, found, listed⟩ := stands_iff.mp stands
  obtain ⟨bounded, rfl⟩ := List.getElem?_eq_some_iff.mp found
  obtain ⟨i, come, here⟩ := mem_componentsAt.mp listed
  have partition := components_partition g vertices
  obtain ⟨j, edge, before⟩ :=
    (Countdown.chained_rounds (descending_condense partition)).getElem k bounded i come
  obtain ⟨_, _, input⟩ := mem_next_condense.mp edge
  obtain ⟨_, d, there, _⟩ := (mem_inputs partition.disjoint).mp input
  have found := List.getElem?_eq_getElem (Nat.lt_of_succ_lt bounded)
  exact ⟨d, stands_iff.mpr ⟨_, found, mem_componentsAt.mpr ⟨j, before, there⟩⟩,
    (componentReads_iff here there).mpr edge⟩

/-! ### Depths -/

/-- A chain goes through earlier and earlier layers. -/
theorem length_le_of_stands {chain : List (List Nat)} (stands : (g.schedule vertices).Stands k c)
    (depends : g.DependencyChain (g.known vertices) c chain) : chain.length ≤ k := by
  induction chain generalizing c k with
  | nil => exact Nat.zero_le k
  | cons d rest ih =>
    obtain ⟨reads, further⟩ := List.isChain_cons_cons.mp depends
    -- the rest of the chain starts in an earlier layer
    obtain ⟨j, less, below⟩ := stands_lt stands reads
    exact Nat.lt_of_le_of_lt (ih below further) less

/-- From its layer a chain goes down to the first one. -/
theorem exists_chain_of_stands (stands : (g.schedule vertices).Stands k c) :
    ∃ chain, g.DependencyChain (g.known vertices) c chain ∧ chain.length = k := by
  induction k generalizing c with
  | zero => exact ⟨[], .singleton c, rfl⟩
  | succ k ih =>
    -- one link leads to the layer just before, so no layer is left out
    obtain ⟨d, below, reads⟩ := stands_before stands
    obtain ⟨rest, further, rfl⟩ := ih below
    exact ⟨d :: rest, List.isChain_cons_cons.mpr ⟨reads, further⟩, rfl⟩

/-- The number of its layer is the depth of a component. -/
theorem stands_iff_depth : (g.schedule vertices).Stands k c ↔
    g.Component (g.known vertices) c ∧ g.Depth (g.known vertices) c k := by
  have depth : ∀ n, (g.schedule vertices).Stands n c → g.Depth (g.known vertices) c n :=
    fun n stands => ⟨exists_chain_of_stands stands, fun _ => length_le_of_stands stands⟩
  constructor
  · exact fun stands => ⟨component_of_stands stands, depth k stands⟩
  · rintro ⟨component, deep⟩
    -- every component stands in some layer, and a depth is unique
    obtain ⟨n, stands⟩ := exists_stands component
    exact deep.unique (depth n stands) ▸ stands

/-! ### The order inside a layer -/

/-- Disjoint components sorted by their heads are sorted strictly. -/
theorem ascending_heads {components : List (List Nat)} (nonempty : ∀ c ∈ components, c ≠ [])
    (disjoint : components.Pairwise List.Disjoint) :
    (components.mergeSort fun a b => a.headD 0 ≤ b.headD 0).Pairwise
      fun c d => c.headD 0 < d.headD 0 := by
  have perm := List.mergeSort_perm components fun a b => decide (a.headD 0 ≤ b.headD 0)
  have sorted : (components.mergeSort fun a b => a.headD 0 ≤ b.headD 0).Pairwise
      fun a b => a.headD 0 ≤ b.headD 0 :=
    List.pairwise_mergeSort' (Order.Preimage (fun c : List Nat => c.headD 0) (· ≤ ·)) components
  have apart := perm.symm.pairwise disjoint List.Disjoint.symm
  refine (sorted.and apart).imp_of_mem fun {c d} first second both => ?_
  obtain ⟨v, rest, rfl⟩ := List.exists_cons_of_ne_nil (nonempty c (perm.mem_iff.mp first))
  obtain ⟨w, more, rfl⟩ := List.exists_cons_of_ne_nil (nonempty d (perm.mem_iff.mp second))
  -- equal heads would lie in both components
  have ne : v ≠ w := fun same => both.2 List.mem_cons_self (same ▸ List.mem_cons_self)
  exact Nat.lt_of_le_of_ne both.1 ne

/-- A layer is made from the set of its components. -/
theorem layerOf_congr {first second : List (List Nat)} (nonempty : ∀ c ∈ first, c ≠ [])
    (apart : first.Pairwise List.Disjoint) (apart' : second.Pairwise List.Disjoint)
    (same : ∀ c, c ∈ first ↔ c ∈ second) : g.layerOf first = g.layerOf second := by
  let below (c d : List Nat) : Prop := c.headD 0 < d.headD 0
  have : Std.Irrefl below := ⟨fun _ => Nat.lt_irrefl _⟩
  have : Std.Antisymm below := ⟨fun _ _ less more => absurd less (Nat.lt_asymm more)⟩
  have sorted := (ascending_heads nonempty apart).eq_of_mem_iff (r := below)
    (ascending_heads (fun c listed => nonempty c ((same c).mpr listed)) apart') fun c => by
      rw [(List.mergeSort_perm _ _).mem_iff, (List.mergeSort_perm _ _).mem_iff, same]
  simp only [layerOf, sorted]

theorem disjoint_componentsAt {round : List Nat} (comes : round ∈ g.rounds vertices) :
    (g.componentsAt vertices round).Pairwise List.Disjoint := by
  have layer : g.layerOf (g.componentsAt vertices round) ∈ (g.schedule vertices).layers := by
    rw [schedule_layers]
    exact List.mem_map_of_mem comes
  have nodup : (g.layerOf (g.componentsAt vertices round)).order.Nodup := by
    refine (g.nodup_order vertices).sublist ?_
    rw [Schedule.order, List.flatMap_def]
    exact List.sublist_flatten_of_mem (List.mem_map_of_mem layer)
  exact (List.nodup_flatten.mp ((layerOf_order_perm _).nodup_iff.mp nodup)).2

/-- The heads of ascending lists are their least members. -/
theorem ascending_leasts {components : List (List Nat)} (nonempty : ∀ c ∈ components, c ≠ [])
    (ascending : ∀ c ∈ components, c.Pairwise (· < ·)) (disjoint : components.Pairwise List.Disjoint) :
    (components.mergeSort fun a b => a.headD 0 ≤ b.headD 0).Pairwise
      fun c d => ∃ v ∈ c, ∀ w ∈ d, v < w := by
  have perm := List.mergeSort_perm components fun a b => decide (a.headD 0 ≤ b.headD 0)
  refine (ascending_heads nonempty disjoint).imp_of_mem fun {c d} first second less => ?_
  rw [perm.mem_iff] at first second
  obtain ⟨v, rest, rfl⟩ := List.exists_cons_of_ne_nil (nonempty c first)
  obtain ⟨w, more, rfl⟩ := List.exists_cons_of_ne_nil (nonempty d second)
  refine ⟨v, List.mem_cons_self, fun u member => ?_⟩
  rcases List.mem_cons.mp member with rfl | later
  · exact less
  · exact Nat.lt_trans less ((List.pairwise_cons.mp (ascending _ second)).1 u later)

theorem ascending_layerOf {round : List Nat} (comes : round ∈ g.rounds vertices) :
    let l := g.layerOf (g.componentsAt vertices round)
    l.vertices.Pairwise (· < ·) ∧ (∀ c ∈ l.cycles, c.Pairwise (· < ·)) ∧
      l.cycles.Pairwise fun c d => ∃ v ∈ c, ∀ w ∈ d, v < w := by
  have listed : ∀ c ∈ g.componentsAt vertices round, c ∈ g.components vertices :=
    fun _ => mem_components_of_mem_componentsAt
  have nonempty : ∀ c ∈ g.componentsAt vertices round, c ≠ [] := fun c here =>
    ne_nil_of_mem_components (listed c here)
  have ascending : ∀ c ∈ g.componentsAt vertices round, c.Pairwise (· < ·) := fun c here =>
    (components_partition g vertices).ascending c (listed c here)
  have sorted := ascending_leasts nonempty ascending (disjoint_componentsAt comes)
  refine ⟨List.pairwise_flatten.mpr ⟨fun c member => ?_, ?_⟩,
    fun c cycle => ascending c (mem_layerOf_cycles.mp cycle).1, sorted.filter _⟩
  · exact ascending c ((List.mergeSort_perm _ _).mem_iff.mp (List.mem_filter.mp member).1)
  · -- the components on no cycle are single vertices
    have single : ∀ c ∈ (g.componentsAt vertices round).mergeSort fun a b => a.headD 0 ≤ b.headD 0,
        (!g.isCycle c) = true → ∃ v, c = [v] := fun c here plain =>
      eq_singleton (nonempty c ((List.mergeSort_perm _ _).mem_iff.mp here)) (by simpa using plain)
    refine (sorted.filter _).imp_of_mem fun {c d} first second less => ?_
    obtain ⟨v, rfl⟩ := single c (List.mem_filter.mp first).1 (List.mem_filter.mp first).2
    obtain ⟨w, rfl⟩ := single d (List.mem_filter.mp second).1 (List.mem_filter.mp second).2
    simpa using less

/-! ### Lists of the same vertices -/

section Same

variable {others : List Nat} (same : ∀ v, v ∈ g.known others ↔ v ∈ g.known vertices)
include same

theorem nextWithin_congr : g.nextWithin (g.known others) = g.nextWithin (g.known vertices) := by
  funext v
  refine List.filter_congr fun w _ => ?_
  rw [Bool.eq_iff_iff, List.contains_iff_mem, List.contains_iff_mem, same]

theorem component_congr :
    g.Component (g.known others) = g.Component (g.known vertices) := by
  funext c
  have classes : g.IsComponent (g.known others) c ↔ g.IsComponent (g.known vertices) c := by
    simp only [IsComponent, Mutual, Reaches, nextWithin_congr same, same]
  exact propext ⟨fun h => ⟨h.ascending, classes.mp h.isComponent⟩,
    fun h => ⟨h.ascending, classes.mpr h.isComponent⟩⟩

theorem depth_congr : g.Depth (g.known others) c k ↔ g.Depth (g.known vertices) c k := by
  have reads : g.ComponentReads (g.known others) = g.ComponentReads (g.known vertices) := by
    funext c d
    have component := component_congr same
    exact propext ⟨fun h => ⟨component ▸ h.source, component ▸ h.target, h.apart, h.edge⟩,
      fun h => ⟨component ▸ h.source, component ▸ h.target, h.apart, h.edge⟩⟩
  have chains : g.DependencyChain (g.known others) c = g.DependencyChain (g.known vertices) c := by
    funext chain
    rw [DependencyChain, reads, DependencyChain]
  exact ⟨fun h => ⟨chains ▸ h.reached, chains ▸ h.longest⟩,
    fun h => ⟨chains ▸ h.reached, chains ▸ h.longest⟩⟩

theorem stands_congr :
    (g.schedule others).Stands k c ↔ (g.schedule vertices).Stands k c := by
  rw [stands_iff_depth, stands_iff_depth, component_congr same, depth_congr same]

/-- The layers of two schedules have the same components, and these make up the layer. -/
theorem getElem?_layers_congr {l : Layer} (layer : (g.schedule others).layers[k]? = some l) :
    (g.schedule vertices).layers[k]? = some l := by
  rw [getElem?_layers] at layer ⊢
  obtain ⟨round, found, rfl⟩ := Option.map_eq_some_iff.mp layer
  have comes := List.mem_of_getElem? found
  -- some component stands in the layer, so the other schedule has a layer there
  obtain ⟨i, come⟩ := List.exists_mem_of_ne_nil round (Countdown.ne_nil_of_mem_rounds comes)
  have bounded := List.mem_range.mp ((positions_perm g others).mem_iff.mp
    (List.mem_flatten_of_mem comes come))
  have here := mem_componentsAt.mpr ⟨i, come, List.getElem?_eq_getElem bounded⟩
  obtain ⟨round', found', _⟩ :=
    stands_iff.mp ((stands_congr same).mp (stands_iff.mpr ⟨round, found, here⟩))
  have comes' := List.mem_of_getElem? found'
  rw [found', Option.map_some]
  refine congrArg some (layerOf_congr (fun c listed => ?_) (disjoint_componentsAt comes')
    (disjoint_componentsAt comes) fun c => ?_)
  · exact ne_nil_of_mem_components (mem_components_of_mem_componentsAt listed)
  · have both := stands_congr (k := k) (c := c) same
    rw [stands_iff, stands_iff, found, found'] at both
    simpa using both.symm

end Same

theorem schedule_congr {others : List Nat}
    (same : ∀ v < g.size, v ∈ others ↔ v ∈ vertices) : g.schedule others = g.schedule vertices := by
  have known : ∀ v, v ∈ g.known others ↔ v ∈ g.known vertices := fun v => by
    rw [mem_known, mem_known]
    exact and_congr_left fun bounded => same v bounded
  have layers : (g.schedule others).layers = (g.schedule vertices).layers :=
    List.ext_getElem? fun k => Option.ext fun l =>
      ⟨getElem?_layers_congr known, getElem?_layers_congr fun v => (known v).symm⟩
  exact congrArg Schedule.mk layers

/-- The schedule of a list depends only on which vertices of the graph are in it. A component stands
in the layer of its depth, so that every component of a layer but the first reads one of the layer
before, and inside a layer the vertices and the cycles come in ascending order, a cycle by its least
vertex. -/
theorem schedule_canonical (g : Digraph) (vertices : List Nat) :
    let s := g.schedule vertices
    let within := g.known vertices
    (∀ others : List Nat, (∀ v < g.size, v ∈ others ↔ v ∈ vertices) → g.schedule others = s) ∧
    (∀ k c, s.Stands k c ↔ g.Component within c ∧ g.Depth within c k) ∧
    (∀ k c, s.Stands (k + 1) c → ∃ d, s.Stands k d ∧ g.ComponentReads within c d) ∧
    ∀ l ∈ s.layers, l.vertices.Pairwise (· < ·) ∧ (∀ c ∈ l.cycles, c.Pairwise (· < ·)) ∧
      l.cycles.Pairwise fun c d => ∃ v ∈ c, ∀ w ∈ d, v < w := by
  intro s within
  refine ⟨fun others same => schedule_congr same, fun k c => stands_iff_depth,
    fun k c => stands_before, fun l layer => ?_⟩
  obtain ⟨round, comes, rfl⟩ := List.mem_map.mp (schedule_layers g vertices ▸ layer)
  exact ascending_layerOf comes

end Digraph

end Recalc
