import Mathlib
import Recalc.Proofs.Schedules

/-!
# The search for classes, turn by turn

A turn of the search goes on with the last visit, or takes up the next root when no visit is under
way. Each edge costs two turns at most, its target's visit included, and so does each root
(`ClassSearch.exists_turns`). What the search has found by then are the classes of mutual
reachability, each after those that it depends on (`components_classify`).
-/
namespace Recalc.Digraph

/-- The number of edges whose targets lie in a set. -/
def edgesWithin (g : Digraph) (within : List Nat) : Nat :=
  total ((List.range g.size).map fun v => (g.nextWithin within v).length)

namespace ClassSearch

variable {g : Digraph} {within : List Nat} {s : ClassSearch}

/-- A step of the last visit, or the next root if no visit is under way. -/
def turn (g : Digraph) (within : List Nat) : ClassSearch × List Nat → ClassSearch × List Nat
  | (s, roots) =>
    match s.visits, roots with
    | x :: outer, roots => (s.step g within x outer, roots)
    | [], root :: rest => (if s.numbers.contains root then s else s.enter g within root, rest)
    | [], [] => (s, [])

theorem turn_of_visit {x : Visit} {outer : List Visit} (visits : s.visits = x :: outer)
    (roots : List Nat) : turn g within (s, roots) = (s.step g within x outer, roots) := by
  simp only [turn, visits]

theorem turn_of_root (idle : s.visits = []) (root : Nat) (rest : List Nat) :
    turn g within (s, root :: rest) =
      (if s.numbers.contains root then s else s.enter g within root, rest) := by
  simp only [turn, idle]

/-! ### What turns cost -/

/-- Meeting a vertex costs its end, for its edges have been counted before. -/
theorem work_enter_le (g : Digraph) (within : List Nat) {v : Nat} (new : v ∉ s.numbers) :
    (s.enter g within v).work g within ≤ s.work g within + 1 := by
  have bound := unmet_insert_le g within new s.count
  simp only [work, enter, List.map_cons, total_cons]
  omega

/-- Before the first root, all that is left to do are the edges. -/
theorem work_start (g : Digraph) (within : List Nat) :
    start.work g within = 2 * g.edgesWithin within := by
  have doubled : ∀ vertices : List Nat,
      total (vertices.map fun v => 2 * (g.nextWithin within v).length) =
        2 * total (vertices.map fun v => (g.nextWithin within v).length) := by
    intro vertices
    induction vertices with
    | nil => rfl
    | cons v rest ih =>
      simp only [List.map_cons, total_cons, ih]
      omega
  have none : ∀ v, (∅ : SortedMap Nat Nat).contains v = false := by simp
  simp only [work, start, unmet, none, Bool.false_eq_true, if_false, doubled, edgesWithin]
  rfl

theorem visits_run : (s.run g within).visits = [] := by
  fun_induction run g within s with
  | case1 s idle => exact idle
  | case2 s x outer visits ih => exact ih

theorem visits_explore (g : Digraph) (within : List Nat) (idle : s.visits = []) (root : Nat) :
    (s.explore g within root).visits = [] := by
  unfold explore
  split
  · exact idle
  · exact visits_run

/-! ### Turns up to the end -/

/-- Working off all visits takes no more turns than there is work. -/
theorem exists_turns_run (g : Digraph) (within : List Nat) (s : ClassSearch) (roots : List Nat) :
    ∃ n, (turn g within)^[n] (s, roots) = (s.run g within, roots) ∧
      n + (s.run g within).work g within ≤ s.work g within := by
  fun_induction run g within s with
  | case1 s idle => exact ⟨0, rfl, by omega⟩
  | case2 s x outer visits ih =>
    obtain ⟨n, reached, bound⟩ := ih
    have less : (s.step g within x outer).work g within < s.work g within := work_step_lt visits
    refine ⟨n + 1, ?_, by omega⟩
    rw [Function.iterate_succ_apply, turn_of_visit visits, reached]

theorem exists_turns_explore (g : Digraph) (within : List Nat) (idle : s.visits = []) (root : Nat)
    (rest : List Nat) :
    ∃ n, (turn g within)^[n] (s, root :: rest) = (s.explore g within root, rest) ∧
      n + (s.explore g within root).work g within ≤ s.work g within + 2 := by
  by_cases met : s.numbers.contains root = true
  · have same : s.explore g within root = s := by rw [explore, if_pos met]
    refine ⟨1, ?_, by rw [same]; omega⟩
    rw [Function.iterate_one, turn_of_root idle, if_pos met, same]
  · have new : root ∉ s.numbers := fun old => met (Std.ExtTreeMap.mem_iff_contains.mp old)
    have entered := work_enter_le g within new
    have explored : s.explore g within root = (s.enter g within root).run g within := by
      rw [explore, if_neg met]
    obtain ⟨n, reached, bound⟩ := exists_turns_run g within (s.enter g within root) rest
    rw [explored]
    refine ⟨n + 1, ?_, by omega⟩
    rw [Function.iterate_succ_apply, turn_of_root idle, if_neg met, reached]

/-- Each root costs two turns more than the work that it takes away. -/
theorem exists_turns_foldl (g : Digraph) (within : List Nat) (idle : s.visits = [])
    (roots : List Nat) :
    ∃ n, (turn g within)^[n] (s, roots) = (roots.foldl (explore g within) s, []) ∧
      n + (roots.foldl (explore g within) s).work g within ≤
        s.work g within + 2 * roots.length := by
  induction roots generalizing s with
  | nil => exact ⟨0, rfl, by simp⟩
  | cons root rest ih =>
    obtain ⟨m, first, cost⟩ := exists_turns_explore g within idle root rest
    obtain ⟨n, last, bound⟩ := ih (visits_explore g within idle root)
    refine ⟨n + m, ?_, ?_⟩
    · rw [Function.iterate_add_apply, first, last, List.foldl_cons]
    · rw [List.foldl_cons, List.length_cons]
      omega

/-- The search ends, and takes at most two turns for each edge and each root. -/
theorem exists_turns (g : Digraph) (vertices : List Nat) :
    ∃ n ≤ 2 * (g.edgesWithin (g.known vertices) + (g.known vertices).length), ∃ last,
      (turn g (g.known vertices))^[n] (start, g.known vertices) = (last, []) ∧
        last.visits = [] ∧ last.classes = g.components vertices := by
  obtain ⟨n, reached, bound⟩ :=
    exists_turns_foldl g (g.known vertices) (s := start) rfl (g.known vertices)
  obtain ⟨-, idle, -⟩ := foldl_explore (sound_start g (g.known vertices)) rfl (g.known vertices)
    fun _ member => member
  rw [work_start] at bound
  exact ⟨n, by omega, _, reached, idle, rfl⟩

end ClassSearch

variable {g : Digraph} {vertices : List Nat}

theorem mem_flatten_components {v : Nat} :
    v ∈ (g.components vertices).flatten ↔ v ∈ vertices ∧ v < g.size := by
  rw [← mem_known, List.mem_flatten]
  constructor
  · rintro ⟨c, listed, member⟩
    exact (isClass_of_mem listed member).1
  · exact (components_partition g vertices).covers v

/-- An edge inside the set leads to the same class or to one that comes before it. -/
theorem exists_earlier_class {i v w : Nat} {c : List Nat}
    (here : (g.components vertices)[i]? = some c) (source : v ∈ c) (edge : w ∈ g.next v)
    (inside : w ∈ g.known vertices) (leaves : w ∉ c) :
    ∃ j < i, ∃ d, (g.components vertices)[j]? = some d ∧ w ∈ d := by
  have partition := components_partition g vertices
  obtain ⟨d, listed, target⟩ := partition.covers w inside
  obtain ⟨j, there⟩ := List.getElem?_of_mem listed
  rcases Nat.lt_trichotomy j i with before | rfl | after
  · exact ⟨j, before, d, there, target⟩
  · obtain rfl : c = d := Option.some.inj (here.symm.trans there)
    exact absurd target leaves
  · -- a class reaches none that comes after it
    obtain ⟨bounded, rfl⟩ := List.getElem?_eq_some_iff.mp here
    obtain ⟨bounded', rfl⟩ := List.getElem?_eq_some_iff.mp there
    have apart := List.pairwise_iff_getElem.mp partition.order i j bounded bounded' after
    exact absurd (.single (mem_nextWithin.mpr ⟨edge, inside⟩)) (apart v source w target)

/-- The search for classes in a list of numbers, in any order and with any repetitions: it ends, with
at most two turns for each edge and each root. The numbers in its classes are those of the list that
name vertices, each once. The classes are those of mutual reachability inside the list, each in
ascending order, and an edge that leaves a class leads to one that comes before it. -/
theorem components_classify (g : Digraph) (vertices : List Nat) :
    let within := g.known vertices
    let classes := g.components vertices
    (∃ n ≤ 2 * (g.edgesWithin within + within.length), ∃ last,
      (ClassSearch.turn g within)^[n] (.start, within) = (last, []) ∧
        last.visits = [] ∧ last.classes = classes) ∧
    (classes.flatten.Nodup ∧ ∀ v, v ∈ classes.flatten ↔ v ∈ vertices ∧ v < g.size) ∧
    (classes.Nodup ∧ ∀ c, c ∈ classes ↔ c.Pairwise (· < ·) ∧ g.IsComponent within c) ∧
    ∀ (i : Nat) (c : List Nat), classes[i]? = some c → ∀ v ∈ c, ∀ w ∈ g.next v, w ∈ within → w ∉ c →
      ∃ j < i, ∃ d, classes[j]? = some d ∧ w ∈ d := by
  intro within classes
  have flat : classes.flatten.Nodup := (components_partition g vertices).nodup
  have distinct : classes.Nodup := by
    refine (List.nodup_flatten.mp flat).2.imp_of_mem ?_
    intro c d first _ disjoint same
    -- two equal classes would share their vertices, and there are some
    obtain ⟨v, member⟩ := List.exists_mem_of_ne_nil c (ne_nil_of_mem_components first)
    exact disjoint member (same ▸ member)
  refine ⟨ClassSearch.exists_turns g vertices, ⟨flat, fun v => mem_flatten_components⟩,
    ⟨distinct, fun c => mem_components_iff⟩, ?_⟩
  intro i c here v source w edge inside leaves
  exact exists_earlier_class here source edge inside leaves

/-- Four vertices, of which the first two read one another and the third reads the second and itself.
The fourth is left out, a number is repeated and one names no vertex. -/
theorem components_classify_four :
    let g : Digraph := ⟨#[[1], [0, 3], [1, 2], [2]]⟩
    g.components [2, 9, 1, 0, 2] = [[0, 1], [2]] ∧
      ∃ j < 1, ∃ d, (g.components [2, 9, 1, 0, 2])[j]? = some d ∧ 1 ∈ d := by
  intro g
  have found : g.components [2, 9, 1, 0, 2] = [[0, 1], [2]] := by cbv
  refine ⟨found, ?_⟩
  exact (components_classify g [2, 9, 1, 0, 2]).2.2.2 1 [2] (by rw [found]; rfl) 2 (by decide) 1
    (by decide) (by decide) (by decide)

end Recalc.Digraph
