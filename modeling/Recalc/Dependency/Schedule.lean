import Recalc.Dependency.Components

/-!
# Schedules

A schedule orders vertices by layers: what a vertex reads stands in an earlier layer, unless both lie
on one cycle. Cycles are kept together, and a vertex that reads itself is a cycle of its own.
-/

namespace Recalc

/-- Vertices that need only earlier layers, those on no cycle before the cycles. -/
structure Layer where
  vertices : List Nat
  cycles : List (List Nat)
deriving DecidableEq, Repr

structure Schedule where
  layers : List Layer
deriving DecidableEq, Repr

namespace Layer

/-- The vertices of a layer in the order of their evaluation. -/
def order (l : Layer) : List Nat :=
  l.vertices ++ l.cycles.flatten

end Layer

namespace Schedule

/-- All vertices in the order of their evaluation. -/
def order (s : Schedule) : List Nat :=
  s.layers.flatMap Layer.order

def size (s : Schedule) : Nat :=
  s.order.length

def cycles (s : Schedule) : List (List Nat) :=
  s.layers.flatMap Layer.cycles

end Schedule

namespace Digraph

/-- Whether a component is a cycle: it has several vertices, or one that reads itself. -/
def isCycle (g : Digraph) : List Nat → Bool
  | [] => false
  | [v] => g.hasEdge v v
  | _ => true

/-- The layer made of some components, ordered by their least vertices. -/
def layerOf (g : Digraph) (components : List (List Nat)) : Layer :=
  let sorted := components.mergeSort fun a b => a.headD 0 ≤ b.headD 0
  ⟨(sorted.filter fun c => !g.isCycle c).flatten, sorted.filter g.isCycle⟩

/-! ### Components that read components -/

/-- The position of the component that a vertex lies in. -/
def positionOf? (components : List (List Nat)) (v : Nat) : Option Nat :=
  components.findIdx? fun c => c.contains v

/-- The other components that a component at position `i` reads, by their positions, each once. -/
def inputs (g : Digraph) (components : List (List Nat)) (c : List Nat) (i : Nat) : List Nat :=
  (((c.flatMap g.next).filterMap (positionOf? components)).filter (· != i)).eraseDups

/-- The graph of components, which are named by their positions. -/
def condense (g : Digraph) (components : List (List Nat)) : Digraph :=
  ⟨(components.zipIdx.map fun (c, i) => g.inputs components c i).toArray⟩

/-! ### Rounds -/

/-- How many of the vertices that each vertex reads are still to come, and the vertices that have
nothing more to wait for. -/
structure Countdown where
  counts : List Nat
  ready : List Nat
deriving DecidableEq, Repr

namespace Countdown

/-- One vertex that `v` reads has come. -/
def release (s : Countdown) (v : Nat) : Countdown :=
  match s.counts[v]? with
  | some (n + 1) => ⟨s.counts.set v n, if n = 0 then s.ready ++ [v] else s.ready⟩
  | _ => s

/-- All vertices that are ready come at once. -/
def next (readers : Digraph) (s : Countdown) : Countdown :=
  (s.ready.flatMap readers.next).foldl release ⟨s.counts, []⟩

def start (g : Digraph) : Countdown :=
  ⟨g.targets.toList.map List.length, (List.range g.size).filter fun v => (g.next v).isEmpty⟩

theorem total_set {counts : List Nat} {v n : Nat} (count : counts[v]? = some (n + 1)) :
    total (counts.set v n) + 1 = total counts := by
  induction counts generalizing v with
  | nil => cases count
  | cons m rest ih =>
    cases v with
    | zero =>
      cases count
      simp only [List.set_cons_zero, total_cons]
      omega
    | succ v =>
      have shorter := ih count
      simp only [List.set_cons_succ, total_cons]
      omega

/-- Becoming ready costs the last count of a vertex. -/
theorem release_le (s : Countdown) (v : Nat) :
    total (s.release v).counts + (s.release v).ready.length ≤ total s.counts + s.ready.length := by
  unfold release
  split
  next n count =>
    have less := total_set count
    dsimp only
    split
    · simp only [List.length_append, List.length_singleton]
      omega
    · omega
  · exact Nat.le_refl _

theorem foldl_release_le (vertices : List Nat) (s : Countdown) :
    total (vertices.foldl release s).counts + (vertices.foldl release s).ready.length ≤
      total s.counts + s.ready.length := by
  induction vertices generalizing s with
  | nil => exact Nat.le_refl _
  | cons v rest ih => exact Nat.le_trans (ih (s.release v)) (s.release_le v)

/-- The vertices that are ready, then those that become ready once these have come, and so on. -/
def rounds (readers : Digraph) (s : Countdown) : List (List Nat) :=
  if s.ready.isEmpty then [] else s.ready :: rounds readers (s.next readers)
termination_by total s.counts + s.ready.length
decreasing_by
  rename_i busy
  have some : s.ready.length ≠ 0 := fun none => busy (by simpa using none)
  have bound := foldl_release_le (s.ready.flatMap readers.next) ⟨s.counts, []⟩
  simp only [List.length_nil] at bound
  unfold next
  omega

end Countdown

/-- The schedule of a list of vertices. Edges that lead out of the list are ignored. -/
def schedule (g : Digraph) (vertices : List Nat) : Schedule :=
  let components := g.components vertices
  let condensed := g.condense components
  ⟨(Countdown.rounds condensed.reverse (.start condensed)).map fun round =>
    g.layerOf (round.filterMap fun i => components[i]?)⟩

end Digraph

end Recalc
