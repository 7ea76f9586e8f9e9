/-!
# Directed graphs and breadth-first search

A graph gives each vertex the list of vertices that its edges lead to. Breadth-first search finds the
vertices that a list of starts leads to.
-/

namespace Recalc

/-- The sum of a list of counts. -/
def total : List Nat → Nat
  | [] => 0
  | n :: rest => n + total rest

theorem total_cons (n : Nat) (rest : List Nat) : total (n :: rest) = n + total rest :=
  rfl

/-- A directed graph on the vertices `0, 1, …`, as lists of edge targets. -/
structure Digraph where
  targets : Array (List Nat)
deriving DecidableEq, Repr

namespace Digraph

def size (g : Digraph) : Nat :=
  g.targets.size

/-- The targets of the edges of a vertex; a number that names no vertex has none. -/
def next (g : Digraph) (v : Nat) : List Nat :=
  (g.targets[v]?).getD []

def hasEdge (g : Digraph) (v w : Nat) : Bool :=
  (g.next v).contains w

/-- Enters a vertex at the end of every edge that it has. -/
def enter (v : Nat) (sources : Array (List Nat)) (targets : List Nat) : Array (List Nat) :=
  targets.foldl (fun sources w => sources.modify w (· ++ [v])) sources

/-- The same edges turned round, vertex by vertex. -/
def reverse (g : Digraph) : Digraph :=
  ⟨(List.range g.size).foldl (fun sources v => enter v sources (g.next v))
    (Array.replicate g.size [])⟩

/-! ### Breadth-first search -/

/-- Which vertices have been seen, and those whose edges are still to be followed, the next one
first. -/
structure Search where
  seen : List Bool
  queue : List Nat
deriving DecidableEq, Repr

namespace Search

/-- Of `n` vertices only the starts have been seen. -/
def start (n : Nat) (starts : List Nat) : Search :=
  ⟨(List.range n).map starts.contains, starts⟩

/-- An edge leads to a vertex, which is queued when it is seen for the first time. -/
def meet (s : Search) (v : Nat) : Search :=
  if s.seen[v]? = some false then ⟨s.seen.set v true, s.queue ++ [v]⟩ else s

/-- Queueing a vertex leaves one less to be seen. -/
theorem meet_le (s : Search) (v : Nat) :
    (s.meet v).seen.count false + (s.meet v).queue.length ≤ s.seen.count false + s.queue.length := by
  unfold meet
  split
  next new =>
    obtain ⟨bounded, unseen⟩ := List.getElem?_eq_some_iff.mp new
    have some : 0 < s.seen.count false := List.count_pos_iff.mpr (unseen ▸ List.getElem_mem bounded)
    have fewer : (s.seen.set v true).count false = s.seen.count false - 1 := by
      simp [List.count_set bounded, unseen]
    simp only [fewer, List.length_append, List.length_singleton]
    omega
  · exact Nat.le_refl _

theorem foldl_meet_le (vertices : List Nat) (s : Search) :
    (vertices.foldl meet s).seen.count false + (vertices.foldl meet s).queue.length ≤
      s.seen.count false + s.queue.length := by
  induction vertices generalizing s with
  | nil => exact Nat.le_refl _
  | cons v rest ih => exact Nat.le_trans (ih (s.meet v)) (s.meet_le v)

/-- Follows the edges of the queued vertices until none is left. -/
def run (next : Nat → List Nat) (s : Search) : Search :=
  match _ : s.queue with
  | [] => s
  | v :: rest => run next ((next v).foldl meet ⟨s.seen, rest⟩)
termination_by s.seen.count false + s.queue.length
decreasing_by
  rename_i queued
  have bound := foldl_meet_le (next v) ⟨s.seen, rest⟩
  rw [queued, List.length_cons]
  exact Nat.lt_succ_of_le bound

end Search

/-- The vertices that a list of starts leads to, in ascending order. -/
def reachable (g : Digraph) (starts : List Nat) : List Nat :=
  let seen := ((Search.start g.size starts).run g.next).seen
  (List.range g.size).filter fun v => seen[v]? = some true

/-! ### Parts of a graph -/

/-- The targets of a vertex's edges inside a set of vertices. -/
def nextWithin (g : Digraph) (within : List Nat) (v : Nat) : List Nat :=
  (g.next v).filter within.contains

/-- The vertices of a list that the graph has. -/
def known (g : Digraph) (vertices : List Nat) : List Nat :=
  vertices.filter fun v => v < g.size

end Digraph

end Recalc
