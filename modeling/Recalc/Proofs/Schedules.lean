import Mathlib.Data.List.Dedup
import Mathlib.Data.List.Sort
import Recalc.Proofs.Layers

/-!
# What a schedule promises

A schedule lists the vertices that it was given and that the graph has, each once. Its cycles are the
strong components that are more than a single vertex without an edge to itself, and edges between
vertices that share no cycle lead to earlier layers (`schedule_complete_and_sound`).
-/
namespace Recalc

namespace Schedule

/-- The number of the layer that a vertex stands in. -/
def layerOf? (s : Schedule) (v : Nat) : Option Nat :=
  s.layers.findIdx? fun l => l.order.contains v

theorem exists_layerOf? {s : Schedule} {v i : Nat} {l : Layer} (layer : s.layers[i]? = some l)
    (member : v ∈ l.order) : ∃ j ≤ i, s.layerOf? v = some j := by
  obtain ⟨bounded, rfl⟩ := List.getElem?_eq_some_iff.mp layer
  cases found : s.layerOf? v with
  -- some layer contains `v`
  | none =>
    have absent := List.findIdx?_eq_none_iff.mp found _ (List.getElem_mem bounded)
    simp [member] at absent
  | some j =>
    refine ⟨j, Nat.le_of_not_lt fun later => ?_, rfl⟩
    obtain ⟨_, _, least⟩ := List.findIdx?_eq_some_iff_getElem.mp found
    exact least i later (by simpa using member)

theorem mem_of_layerOf? {s : Schedule} {v i : Nat} (found : s.layerOf? v = some i) :
    ∃ l, s.layers[i]? = some l ∧ v ∈ l.order := by
  obtain ⟨bounded, inside, _⟩ := List.findIdx?_eq_some_iff_getElem.mp found
  exact ⟨_, List.getElem?_eq_getElem bounded, by simpa using inside⟩

end Schedule

namespace Digraph

variable {g : Digraph} {within vertices : List Nat}

/-- A class of vertices that reach one another by edges inside a set. -/
def IsComponent (g : Digraph) (within c : List Nat) : Prop :=
  ∃ v ∈ within, ∀ u, u ∈ c ↔ g.Mutual within v u

/-- The components found are all components, in ascending order. -/
theorem mem_components_iff {c : List Nat} :
    c ∈ g.components vertices ↔ c.Pairwise (· < ·) ∧ g.IsComponent (g.known vertices) c := by
  have partition := components_partition g vertices
  constructor
  · exact fun listed => ⟨partition.ascending c listed, partition.isClass c listed⟩
  · rintro ⟨ascending, v, inside, isClass⟩
    obtain ⟨d, listed, member⟩ := partition.covers v inside
    have same : ∀ u, u ∈ c ↔ u ∈ d := fun u =>
      (isClass u).trans ((isClass_of_mem listed member).2 u).symm
    rwa [ascending.eq_of_mem_iff (partition.ascending d listed) same]

theorem isCycle_iff_length {c : List Nat} (some : c ≠ []) :
    g.isCycle c = true ↔ 2 ≤ c.length ∨ ∃ v ∈ c, v ∈ g.next v := by
  match c with
  | [] => exact absurd rfl some
  | [v] => simp [isCycle, hasEdge]
  | a :: b :: rest => simp [isCycle]

theorem flatten_cycles_sublist (s : Schedule) : s.cycles.flatten.Sublist s.order := by
  unfold Schedule.cycles Schedule.order
  induction s.layers with
  | nil => exact .slnil
  | cons l rest ih =>
    rw [List.flatMap_cons, List.flatMap_cons, List.flatten_append]
    exact (List.sublist_append_right l.vertices l.cycles.flatten).append ih

theorem nodup_cycles (g : Digraph) (vertices : List Nat) : (g.schedule vertices).cycles.Nodup := by
  have flat := (g.nodup_order vertices).sublist (flatten_cycles_sublist _)
  refine (List.nodup_flatten.mp flat).2.imp_of_mem fun {c d} first _ disjoint same => ?_
  -- two equal cycles would share their vertices, and there are some
  obtain ⟨v, member⟩ := List.exists_mem_of_ne_nil c (ne_nil_of_mem_components (mem_cycles.mp first).1)
  exact disjoint member (same ▸ member)

/-- An edge leads to an earlier layer or along a cycle. -/
theorem Layered.edge {done : List Nat} {layers : List Layer} (layered : Layered g within done layers)
    {i v w : Nat} {l : Layer} (layer : layers[i]? = some l) (member : v ∈ l.order)
    (edge : w ∈ g.nextWithin within v) :
    w ∈ done ∨ (∃ j < i, ∃ l', layers[j]? = some l' ∧ w ∈ l'.order) ∨
      ∃ c ∈ l.cycles, v ∈ c ∧ w ∈ c := by
  induction layers generalizing done i with
  | nil => cases layer
  | cons first rest ih =>
    obtain ⟨here, later⟩ := layered
    cases i with
    | zero =>
      obtain rfl : first = l := by simpa using layer
      exact (here v member w edge).imp_right .inr
    | succ i =>
      rcases ih later (by simpa using layer) with old | ⟨j, less, l', found, inside⟩ | cycle
      · rcases List.mem_append.mp old with before | now
        · exact .inl before
        · exact .inr (.inl ⟨0, Nat.succ_pos i, first, rfl, now⟩)
      · exact .inr (.inl ⟨j + 1, Nat.succ_lt_succ less, l', by simpa using found, inside⟩)
      · exact .inr (.inr cycle)

theorem layerOf?_lt {v w : Nat} (member : v ∈ g.known vertices)
    (edge : w ∈ g.nextWithin (g.known vertices) v)
    (apart : ¬∃ c ∈ (g.schedule vertices).cycles, v ∈ c ∧ w ∈ c) :
    ∃ i j, (g.schedule vertices).layerOf? v = some i ∧ (g.schedule vertices).layerOf? w = some j ∧
      j < i := by
  have listed := mem_order.mpr member
  obtain ⟨l, layer, inside⟩ := List.mem_flatMap.mp listed
  obtain ⟨k, at_⟩ := List.getElem?_of_mem layer
  obtain ⟨i, _, found⟩ := Schedule.exists_layerOf? at_ inside
  obtain ⟨l, at_, inside⟩ := Schedule.mem_of_layerOf? found
  -- nothing is done before the first layer, and `v` and `w` share no cycle
  rcases (g.schedule_layered vertices).edge at_ inside edge with
    old | ⟨j, less, l', there, target⟩ | ⟨c, cycle, both⟩
  · cases old
  · obtain ⟨k, bound, first⟩ := Schedule.exists_layerOf? there target
    exact ⟨i, k, found, first, Nat.lt_of_le_of_lt bound less⟩
  · exact absurd ⟨c, List.mem_flatMap.mpr ⟨l, List.mem_of_getElem? at_, cycle⟩, both⟩ apart

theorem size_schedule (g : Digraph) (vertices : List Nat) :
    (g.schedule vertices).size = (g.known vertices).dedup.length := by
  refine List.Perm.length_eq ((List.perm_ext_iff_of_nodup (g.nodup_order vertices)
    (List.nodup_dedup _)).mpr fun v => ?_)
  rw [mem_order, List.mem_dedup]

theorem mem_cycles_iff {c : List Nat} :
    c ∈ (g.schedule vertices).cycles ↔ c.Pairwise (· < ·) ∧ g.IsComponent (g.known vertices) c ∧
      (2 ≤ c.length ∨ ∃ v ∈ c, v ∈ g.next v) := by
  rw [mem_cycles, ← and_assoc, ← mem_components_iff]
  exact and_congr_right fun listed => isCycle_iff_length (ne_nil_of_mem_components listed)

/-- A schedule contains the vertices of a list that the graph has and no others, each once. Its
cycles are the components that have several vertices or an edge from a vertex to itself, and every
other edge inside the list leads to an earlier layer. -/
theorem schedule_complete_and_sound (g : Digraph) (vertices : List Nat) :
    let s := g.schedule vertices
    let within := g.known vertices
    (s.order.Nodup ∧ (∀ v, v ∈ s.order ↔ v ∈ vertices ∧ v < g.size) ∧
      s.size = within.dedup.length) ∧
    (s.cycles.Nodup ∧ ∀ c, c ∈ s.cycles ↔ c.Pairwise (· < ·) ∧ g.IsComponent within c ∧
      (2 ≤ c.length ∨ ∃ v ∈ c, v ∈ g.next v)) ∧
    ∀ v ∈ within, ∀ w ∈ within, w ∈ g.next v → (¬∃ c ∈ s.cycles, v ∈ c ∧ w ∈ c) →
      ∃ i j, s.layerOf? v = some i ∧ s.layerOf? w = some j ∧ j < i := by
  intro s within
  refine ⟨⟨g.nodup_order vertices, fun v => mem_order.trans mem_known, g.size_schedule vertices⟩,
    ⟨g.nodup_cycles vertices, fun c => mem_cycles_iff⟩, ?_⟩
  intro v source w target edge apart
  exact layerOf?_lt source (mem_nextWithin.mpr ⟨edge, target⟩) apart

end Digraph

end Recalc
