import Recalc.Proofs.Components

/-!
# Edges turned round

Entering each vertex at the ends of its edges turns all edges round (`mem_next_reverse`), and the
sources of the edges that end at a vertex come in ascending order (`ascending_next_reverse`).
-/
namespace Recalc.Digraph

variable {g : Digraph} {v w : Nat}

theorem getElem?_enter (v : Nat) (sources : Array (List Nat)) (targets : List Nat) (w : Nat) :
    (enter v sources targets)[w]? =
      (sources[w]?).map (· ++ List.replicate (targets.count w) v) := by
  unfold enter
  induction targets generalizing sources with
  | nil => simp
  | cons u rest ih =>
    rw [List.foldl_cons, ih, Array.getElem?_modify, List.count_cons]
    by_cases here : u = w
    · simp [here, List.replicate_succ, Function.comp_def]
    · simp [here]

private theorem getElem?_foldl_enter (g : Digraph) (vertices : List Nat) (sources : Array (List Nat))
    (w : Nat) :
    (vertices.foldl (fun sources v => enter v sources (g.next v)) sources)[w]? =
      (sources[w]?).map (· ++ vertices.flatMap fun v => List.replicate ((g.next v).count w) v) := by
  induction vertices generalizing sources with
  | nil => simp
  | cons v rest ih =>
    rw [List.foldl_cons, ih, getElem?_enter, List.flatMap_cons]
    simp [Function.comp_def]

/-- A vertex is entered once for each edge. -/
theorem next_reverse (bounded : w < g.size) : g.reverse.next w =
    (List.range g.size).flatMap fun v => List.replicate ((g.next v).count w) v := by
  rw [reverse, next, getElem?_foldl_enter, Array.getElem?_replicate, if_pos bounded]
  simp

@[simp] theorem size_reverse : g.reverse.size = g.size := by
  have size_enter : ∀ v (sources : Array (List Nat)) targets,
      (enter v sources targets).size = sources.size := fun v sources targets =>
    foldl_kept Array.size (fun _ _ _ => Array.size_modify) sources
  rw [reverse, size, foldl_kept Array.size fun _ _ _ => size_enter _ _ _, Array.size_replicate]

theorem mem_next_reverse : w ∈ g.reverse.next v ↔ v < g.size ∧ w < g.size ∧ v ∈ g.next w := by
  by_cases bounded : v < g.size
  · simp only [next_reverse bounded, List.mem_flatMap, List.mem_range, List.mem_replicate, bounded,
      true_and, ne_eq, List.count_eq_zero, not_not]
    constructor
    · rintro ⟨u, inside, edge, rfl⟩
      exact ⟨inside, edge⟩
    · rintro ⟨inside, edge⟩
      exact ⟨w, inside, edge, rfl⟩
  · have none : g.reverse.next v = [] := next_eq_nil (by rw [size_reverse]; omega)
    simp [none, bounded]

/-- Where no edge is listed twice, the sources of the edges to a vertex ascend. -/
theorem ascending_next_reverse (nodup : ∀ v, (g.next v).Nodup) :
    (g.reverse.next w).Pairwise (· < ·) := by
  by_cases bounded : w < g.size
  · have once : ∀ v, List.replicate ((g.next v).count w) v =
        ([v].filter fun v => w ∈ g.next v) := by
      intro v
      rw [(nodup v).count]
      split
      next edge => simp [edge]
      next none => simp [none]
    have listed : g.reverse.next w = (List.range g.size).filter fun v => w ∈ g.next v := by
      rw [next_reverse bounded, funext once, ← List.filter_flatMap, List.flatMap_singleton']
    rw [listed]
    exact List.pairwise_lt_range.filter _
  · rw [next_eq_nil (by rw [size_reverse]; omega)]
    exact .nil

theorem nodup_next_reverse (nodup : ∀ v, (g.next v).Nodup) : (g.reverse.next w).Nodup :=
  (ascending_next_reverse nodup).imp Nat.ne_of_lt

end Recalc.Digraph
