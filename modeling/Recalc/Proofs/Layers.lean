import Mathlib.Data.List.Pairwise
import Mathlib.Data.List.Perm.Basic
import Recalc.Dependency.Schedule
import Recalc.Proofs.Components
import Recalc.Proofs.Rounds

/-!
# Layers

A schedule orders the vertices it is given, each once (`mem_order`, `nodup_order`), and
`schedule_layered` says that a vertex reads only vertices of earlier layers, or of a cycle that it
lies on. The cycles of a schedule are the classes of vertices that reach themselves (`mem_cycles`).
-/
namespace Recalc.Digraph

variable {g : Digraph} {within : List Nat}

/-- Whether a vertex reaches itself by at least one edge. -/
def OnCycle (g : Digraph) (within : List Nat) (v : Nat) : Prop :=
  Relation.TransGen (fun v w => w ∈ g.nextWithin within v) v v

theorem onCycle_iff {v : Nat} :
    g.OnCycle within v ↔ ∃ w ∈ g.nextWithin within v, g.Reaches within w v := by
  unfold OnCycle
  rw [Relation.TransGen.head'_iff]
  exact Iff.rfl

theorem OnCycle.of_ne {v w : Nat} (same : g.Mutual within v w) (ne : v ≠ w) : g.OnCycle within v := by
  rcases Relation.reflTransGen_iff_eq_or_transGen.mp same.1 with equal | path
  · exact absurd equal.symm ne
  · exact path.trans_left same.2

theorem isCycle_iff {c : List Nat} {v : Nat} (inside : v ∈ within)
    (isClass : ∀ u, u ∈ c ↔ g.Mutual within v u) (ascending : c.Pairwise (· < ·)) :
    g.isCycle c = true ↔ g.OnCycle within v := by
  have self : v ∈ c := (isClass v).mpr ⟨.refl, .refl⟩
  match c with
  | [] => cases self
  | [u] =>
    obtain rfl := List.mem_singleton.mp self
    simp only [isCycle, hasEdge, List.contains_iff_mem]
    constructor
    · exact fun edge => .single (mem_nextWithin.mpr ⟨edge, inside⟩)
    · intro cycle
      obtain ⟨w, edge, back⟩ := onCycle_iff.mp cycle
      have same : w = v := List.mem_singleton.mp ((isClass w).mpr ⟨.single edge, back⟩)
      exact same ▸ (mem_nextWithin.mp edge).1
  | a :: b :: rest =>
    simp only [isCycle, true_iff]
    have less : a < b := (List.pairwise_cons.mp ascending).1 b List.mem_cons_self
    rcases eq_or_ne v a with rfl | ne
    · exact .of_ne ((isClass b).mp (by simp)) (Nat.ne_of_lt less)
    · exact .of_ne ((isClass a).mp (by simp)) ne

/-! ### Components that read components -/

section Condensation

variable {components : List (List Nat)}

theorem positionOf?_eq_some (disjoint : components.Pairwise List.Disjoint) {v i : Nat} :
    positionOf? components v = some i ↔ ∃ c, components[i]? = some c ∧ v ∈ c := by
  rw [positionOf?, List.findIdx?_eq_some_iff_getElem]
  constructor
  · rintro ⟨bounded, inside, _⟩
    exact ⟨components[i], List.getElem?_eq_getElem bounded, by simpa using inside⟩
  · rintro ⟨c, found, inside⟩
    obtain ⟨bounded, rfl⟩ := List.getElem?_eq_some_iff.mp found
    refine ⟨bounded, by simpa using inside, fun j less also => ?_⟩
    exact List.pairwise_iff_getElem.mp disjoint j i (Nat.lt_trans less bounded) bounded less
      (by simpa using also) inside

theorem mem_inputs (disjoint : components.Pairwise List.Disjoint) {c : List Nat} {i j : Nat} :
    j ∈ g.inputs components c i ↔
      j ≠ i ∧ ∃ d, components[j]? = some d ∧ ∃ v ∈ c, ∃ w ∈ d, w ∈ g.next v := by
  simp only [inputs, List.mem_eraseDups, List.mem_filter, List.mem_filterMap, List.mem_flatMap,
    positionOf?_eq_some disjoint, bne_iff_ne]
  constructor
  · rintro ⟨⟨w, ⟨v, source, edge⟩, d, found, target⟩, ne⟩
    exact ⟨ne, d, found, v, source, w, target, edge⟩
  · rintro ⟨ne, d, found, v, source, w, target, edge⟩
    exact ⟨⟨w, ⟨v, source, edge⟩, d, found, target⟩, ne⟩

theorem size_condense : (g.condense components).size = components.length := by
  simp [condense, size]

theorem next_condense (g : Digraph) (components : List (List Nat)) (i : Nat) :
    (g.condense components).next i =
      ((components[i]?).map fun c => g.inputs components c i).getD [] := by
  simp [condense, next, List.getElem?_zipIdx, Function.comp_def]

theorem mem_next_condense {i j : Nat} :
    j ∈ (g.condense components).next i ↔ ∃ c, components[i]? = some c ∧ j ∈ g.inputs components c i := by
  rw [next_condense]
  cases components[i]? with
  | none => simp
  | some c => simp

private theorem nodup_eraseDups (l : List Nat) : l.eraseDups.Nodup := by
  induction size : l.length using Nat.strongRecOn generalizing l with
  | ind n ih =>
    cases l with
    | nil => exact List.nodup_nil
    | cons a rest =>
      rw [List.eraseDups_cons]
      have shorter : (rest.filter fun b => !b == a).length < n := by
        rw [← size, List.length_cons]
        exact Nat.lt_succ_of_le (List.length_filter_le _ _)
      refine List.nodup_cons.mpr ⟨fun again => ?_, ih _ shorter _ rfl⟩
      simp [List.mem_eraseDups] at again

/-- A component reads only components that are listed before it. -/
theorem descending_condense (partition : Partition g within components) :
    (g.condense components).Descending where
  lt i j edge := by
    obtain ⟨c, here, edge⟩ := mem_next_condense.mp edge
    obtain ⟨ne, d, there, v, source, w, target, reads⟩ := (mem_inputs partition.disjoint).mp edge
    obtain ⟨iBound, rfl⟩ := List.getElem?_eq_some_iff.mp here
    obtain ⟨jBound, rfl⟩ := List.getElem?_eq_some_iff.mp there
    rcases Nat.lt_or_gt_of_ne ne with before | after
    · exact before
    · -- no edge leads to a component that is listed later
      obtain ⟨u, inside, isClass⟩ := partition.isClass _ (List.getElem_mem jBound)
      have known : w ∈ within := ((isClass w).mp target).1.mem_within inside
      have apart := List.pairwise_iff_getElem.mp partition.order i j iBound jBound after
      exact absurd (.single (mem_nextWithin.mpr ⟨reads, known⟩)) (apart v source w target)
  nodup i := by
    rw [next_condense]
    cases components[i]? with
    | none => exact List.nodup_nil
    | some c => exact nodup_eraseDups _

end Condensation

/-! ### Layers -/

theorem mem_layerOf_vertices {components : List (List Nat)} {v : Nat} :
    v ∈ (g.layerOf components).vertices ↔ ∃ c ∈ components, g.isCycle c = false ∧ v ∈ c := by
  simp only [layerOf, List.mem_flatten, List.mem_filter, (List.mergeSort_perm _ _).mem_iff,
    Bool.not_eq_eq_eq_not, Bool.not_true, and_assoc]

theorem mem_layerOf_cycles {components : List (List Nat)} {c : List Nat} :
    c ∈ (g.layerOf components).cycles ↔ c ∈ components ∧ g.isCycle c = true := by
  simp only [layerOf, List.mem_filter, (List.mergeSort_perm _ _).mem_iff]

theorem layerOf_order_perm (components : List (List Nat)) :
    (g.layerOf components).order.Perm components.flatten := by
  let sorted := components.mergeSort fun a b => a.headD 0 ≤ b.headD 0
  have parts : (g.layerOf components).order =
      (sorted.filter (fun c => !g.isCycle c) ++ sorted.filter g.isCycle).flatten := by
    simp [Layer.order, layerOf, sorted]
  rw [parts]
  -- a layer lists single vertices before cycles, which only moves components around
  have swapped : (sorted.filter (fun c => !g.isCycle c) ++ sorted.filter g.isCycle).Perm sorted :=
    List.perm_append_comm.trans (List.filter_append_perm _ _)
  exact (swapped.trans (List.mergeSort_perm _ _)).flatten

/-- The rounds in which the components of a list of vertices come, by their positions. -/
def rounds (g : Digraph) (vertices : List Nat) : List (List Nat) :=
  let condensed := g.condense (g.components vertices)
  (Countdown.start condensed).rounds condensed.reverse

/-- The components at some positions. -/
def componentsAt (g : Digraph) (vertices round : List Nat) : List (List Nat) :=
  round.filterMap fun i => (g.components vertices)[i]?

theorem schedule_layers (g : Digraph) (vertices : List Nat) :
    (g.schedule vertices).layers =
      (g.rounds vertices).map fun round => g.layerOf (g.componentsAt vertices round) :=
  rfl

theorem positions_perm (g : Digraph) (vertices : List Nat) :
    (g.rounds vertices).flatten.Perm (List.range (g.components vertices).length) := by
  rw [← size_condense (g := g)]
  exact Countdown.rounds_perm (descending_condense (components_partition g vertices))

theorem mem_componentsAt {vertices round c : List Nat} :
    c ∈ g.componentsAt vertices round ↔ ∃ i ∈ round, (g.components vertices)[i]? = some c :=
  List.mem_filterMap

theorem mem_components_of_mem_componentsAt {vertices round c : List Nat}
    (member : c ∈ g.componentsAt vertices round) : c ∈ g.components vertices := by
  obtain ⟨i, _, found⟩ := mem_componentsAt.mp member
  exact List.mem_of_getElem? found

theorem exists_round {vertices c : List Nat} (listed : c ∈ g.components vertices) :
    ∃ round ∈ g.rounds vertices, c ∈ g.componentsAt vertices round := by
  obtain ⟨i, bounded, rfl⟩ := List.getElem_of_mem listed
  have comes := (positions_perm g vertices).mem_iff.mpr (List.mem_range.mpr bounded)
  obtain ⟨round, member, inside⟩ := List.mem_flatten.mp comes
  exact ⟨round, member, mem_componentsAt.mpr ⟨i, inside, List.getElem?_eq_getElem bounded⟩⟩

private theorem filterMap_range (l : List (List Nat)) :
    (List.range l.length).filterMap (fun i => l[i]?) = l := by
  induction l with
  | nil => rfl
  | cons c rest ih =>
    simp only [List.length_cons, List.range_succ_eq_map, List.filterMap_cons,
      List.getElem?_cons_zero, List.filterMap_map]
    exact congrArg (c :: ·) ih

theorem order_perm_components (g : Digraph) (vertices : List Nat) :
    (g.schedule vertices).order.Perm (g.components vertices).flatten := by
  have layers : (g.schedule vertices).order =
      (g.rounds vertices).flatMap fun round => (g.layerOf (g.componentsAt vertices round)).order := by
    simp [Schedule.order, schedule_layers, List.flatMap_map]
  have all : ((g.rounds vertices).flatMap (g.componentsAt vertices)).Perm (g.components vertices) := by
    have placed := (positions_perm g vertices).filterMap fun i => (g.components vertices)[i]?
    rw [filterMap_range, List.filterMap_flatten, ← List.flatMap_def] at placed
    exact placed
  rw [layers]
  refine (List.Perm.flatMap_left _ fun round _ => layerOf_order_perm _).trans ?_
  have flat := all.flatten
  rw [List.flatMap_def, List.flatten_flatten, List.map_map] at flat
  exact flat

/-! ### Schedules -/

theorem Partition.nodup {classes : List (List Nat)} (partition : Partition g within classes) :
    classes.flatten.Nodup :=
  List.nodup_flatten.mpr
    ⟨fun c listed => (partition.ascending c listed).imp Nat.ne_of_lt, partition.disjoint⟩

theorem nodup_order (g : Digraph) (vertices : List Nat) : (g.schedule vertices).order.Nodup :=
  (order_perm_components g vertices).nodup_iff.mpr (components_partition g vertices).nodup

theorem mem_order {vertices : List Nat} {v : Nat} :
    v ∈ (g.schedule vertices).order ↔ v ∈ g.known vertices := by
  have partition := components_partition g vertices
  rw [(order_perm_components g vertices).mem_iff, List.mem_flatten]
  constructor
  · rintro ⟨c, listed, member⟩
    obtain ⟨u, inside, isClass⟩ := partition.isClass c listed
    exact ((isClass v).mp member).1.mem_within inside
  · exact fun member => partition.covers v member

theorem isClass_of_mem {vertices c : List Nat} {v : Nat} (listed : c ∈ g.components vertices)
    (member : v ∈ c) :
    v ∈ g.known vertices ∧ ∀ u, u ∈ c ↔ g.Mutual (g.known vertices) v u := by
  obtain ⟨u, inside, isClass⟩ := (components_partition g vertices).isClass c listed
  have same := (isClass v).mp member
  refine ⟨same.1.mem_within inside, fun w => (isClass w).trans ⟨same.symm.trans, same.trans⟩⟩

theorem isCycle_iff_onCycle {vertices c : List Nat} {v : Nat} (listed : c ∈ g.components vertices)
    (member : v ∈ c) : g.isCycle c = true ↔ g.OnCycle (g.known vertices) v := by
  obtain ⟨inside, isClass⟩ := isClass_of_mem listed member
  exact isCycle_iff inside isClass ((components_partition g vertices).ascending c listed)

theorem mem_cycles {vertices c : List Nat} :
    c ∈ (g.schedule vertices).cycles ↔ c ∈ g.components vertices ∧ g.isCycle c = true := by
  simp only [Schedule.cycles, schedule_layers, List.mem_flatMap, List.mem_map]
  constructor
  · rintro ⟨_, ⟨round, _, rfl⟩, listed⟩
    obtain ⟨here, cycle⟩ := mem_layerOf_cycles.mp listed
    exact ⟨mem_components_of_mem_componentsAt here, cycle⟩
  · rintro ⟨listed, cycle⟩
    obtain ⟨round, comes, here⟩ := exists_round listed
    exact ⟨_, ⟨round, comes, rfl⟩, mem_layerOf_cycles.mpr ⟨here, cycle⟩⟩

theorem mem_components_of_mem_cycles {vertices c : List Nat} {l : Layer}
    (layer : l ∈ (g.schedule vertices).layers) (listed : c ∈ l.cycles) :
    c ∈ g.components vertices ∧ g.isCycle c = true :=
  mem_cycles.mp (List.mem_flatMap.mpr ⟨l, layer, listed⟩)

theorem onCycle_of_mem_cycles {vertices c : List Nat} {l : Layer} {v : Nat}
    (layer : l ∈ (g.schedule vertices).layers) (listed : c ∈ l.cycles) (member : v ∈ c) :
    g.OnCycle (g.known vertices) v := by
  obtain ⟨component, cycle⟩ := mem_components_of_mem_cycles layer listed
  exact (isCycle_iff_onCycle component member).mp cycle

theorem not_onCycle_of_mem_vertices {vertices : List Nat} {l : Layer} {v : Nat}
    (layer : l ∈ (g.schedule vertices).layers) (member : v ∈ l.vertices) :
    ¬g.OnCycle (g.known vertices) v := by
  rw [schedule_layers] at layer
  obtain ⟨round, _, rfl⟩ := List.mem_map.mp layer
  obtain ⟨c, here, plain, inside⟩ := mem_layerOf_vertices.mp member
  rw [← isCycle_iff_onCycle (mem_components_of_mem_componentsAt here) inside, plain]
  exact Bool.false_ne_true

theorem ne_nil_of_mem_components {vertices c : List Nat} (listed : c ∈ g.components vertices) :
    c ≠ [] := by
  obtain ⟨v, _, isClass⟩ := (components_partition g vertices).isClass c listed
  exact List.ne_nil_of_mem ((isClass v).mpr ⟨.refl, .refl⟩)

/-- Vertices of later layers read only what is done before, or what lies on one cycle with them. -/
def Layered (g : Digraph) (within : List Nat) : List Nat → List Layer → Prop
  | _, [] => True
  | done, l :: rest =>
    (∀ v ∈ l.order, ∀ w ∈ g.nextWithin within v, w ∈ done ∨ ∃ c ∈ l.cycles, v ∈ c ∧ w ∈ c) ∧
      Layered g within (done ++ l.order) rest

theorem mem_order_layerOf {vertices round : List Nat} {v : Nat} :
    v ∈ (g.layerOf (g.componentsAt vertices round)).order ↔
      ∃ i ∈ round, ∃ c, (g.components vertices)[i]? = some c ∧ v ∈ c := by
  rw [(layerOf_order_perm _).mem_iff, List.mem_flatten]
  constructor
  · rintro ⟨c, here, member⟩
    obtain ⟨i, listed, found⟩ := mem_componentsAt.mp here
    exact ⟨i, listed, c, found, member⟩
  · rintro ⟨i, listed, c, found, member⟩
    exact ⟨c, mem_componentsAt.mpr ⟨i, listed, found⟩, member⟩

private theorem layered_of_inOrder {vertices before done : List Nat} {rounds : List (List Nat)}
    (inOrder : InOrder (g.condense (g.components vertices)) before rounds)
    (come : ∀ i ∈ before, ∀ c, (g.components vertices)[i]? = some c → ∀ v ∈ c, v ∈ done) :
    Layered g (g.known vertices) done
      (rounds.map fun round => g.layerOf (g.componentsAt vertices round)) := by
  induction rounds generalizing before done with
  | nil => exact trivial
  | cons round rest ih =>
    have partition := components_partition g vertices
    obtain ⟨here, later⟩ := inOrder
    refine ⟨fun v member w edge => ?_, ih later fun i listed c found v inside => ?_⟩
    -- the target of an edge lies in the same component or in one of an earlier round
    · obtain ⟨i, listed, c, found, source⟩ := mem_order_layerOf.mp member
      obtain ⟨d, dListed, target⟩ := partition.covers w (mem_nextWithin.mp edge).2
      obtain ⟨j, dFound⟩ := List.getElem?_of_mem dListed
      have cListed := List.mem_of_getElem? found
      by_cases same : j = i
      · obtain rfl : c = d := Option.some.inj (found.symm.trans (same ▸ dFound))
        obtain ⟨_, isClass⟩ := isClass_of_mem cListed source
        -- an edge inside a component closes a cycle, so this is not a single vertex
        have cycle : g.OnCycle (g.known vertices) v :=
          onCycle_iff.mpr ⟨w, edge, ((isClass w).mp target).2⟩
        exact .inr ⟨c, mem_layerOf_cycles.mpr
          ⟨mem_componentsAt.mpr ⟨i, listed, found⟩, (isCycle_iff_onCycle cListed source).mpr cycle⟩,
          source, target⟩
      · have input := (mem_inputs (g := g) (c := c) partition.disjoint).mpr
          ⟨same, d, dFound, v, source, w, target, (mem_nextWithin.mp edge).1⟩
        have ready := here i listed j (mem_next_condense.mpr ⟨c, found, input⟩)
        exact .inl (come j ready d dFound w target)
    · rcases List.mem_append.mp listed with old | now
      · exact List.mem_append_left _ (come i old c found v inside)
      · exact List.mem_append_right _ (mem_order_layerOf.mpr ⟨i, now, c, found, inside⟩)

/-- What a scheduled vertex reads is in an earlier layer, or on one cycle with it. -/
theorem schedule_layered (g : Digraph) (vertices : List Nat) :
    Layered g (g.known vertices) [] (g.schedule vertices).layers := by
  rw [schedule_layers]
  exact layered_of_inOrder
    (Countdown.inOrder_rounds (descending_condense (components_partition g vertices))) (by simp)

end Recalc.Digraph
