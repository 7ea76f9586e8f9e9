import Recalc.Dependency.Digraph
import Recalc.SortedMap

/-!
# Strong components

One depth-first search finds the classes of vertices that reach one another. Vertices are numbered as
they are met and wait on a stack until their class is found. Every visit notes the least number of a
waiting vertex that it is known to lead to. A visit that leads to none below its own number ends a
class: whatever has been put on the stack since the visit began.
-/

namespace Recalc

namespace Digraph

/-- A visit that has not ended: its vertex under its number, the least number that it is known to lead
to, and the targets of the edges that have not been followed. -/
structure Visit where
  vertex : Nat
  number : Nat
  low : Nat
  pending : List Nat
deriving DecidableEq, Repr

/-- The numbers given so far, the vertices that wait for their class, the visits under way, both from
the last one to the first, and the classes found. -/
structure ClassSearch where
  numbers : SortedMap Nat Nat
  count : Nat
  stack : List Nat
  visits : List Visit
  classes : List (List Nat)

namespace ClassSearch

def start : ClassSearch :=
  ⟨∅, 0, [], [], []⟩

/-- Meets a vertex and begins its visit. -/
def enter (g : Digraph) (within : List Nat) (s : ClassSearch) (v : Nat) : ClassSearch :=
  { s with
    numbers := s.numbers.insert v s.count
    count := s.count + 1
    stack := v :: s.stack
    visits := ⟨v, s.count, s.count, g.nextWithin within v⟩ :: s.visits }

/-- Notes that the last visit leads to a number. -/
def lower (s : ClassSearch) (n : Nat) : ClassSearch :=
  match s.visits with
  | [] => s
  | x :: outer => { s with visits := { x with low := min x.low n } :: outer }

/-- Follows an edge of the last visit. -/
def follow (g : Digraph) (within : List Nat) (s : ClassSearch) (w : Nat) : ClassSearch :=
  match s.numbers[w]? with
  | none => s.enter g within w
  | some n => if s.stack.contains w then s.lower n else s

/-- Takes a vertex, and all that has come on the stack after it, off as a class. -/
def close (s : ClassSearch) (v : Nat) : ClassSearch :=
  { s with
    stack := (s.stack.dropWhile (· != v)).tail
    classes := s.classes ++ [(v :: s.stack.takeWhile (· != v)).mergeSort] }

/-- Ends the visit `x`, whose outer visit leads wherever `x` does. -/
def leave (s : ClassSearch) (x : Visit) (outer : List Visit) : ClassSearch :=
  let s := { s with visits := outer }.lower x.low
  if x.low = x.number then s.close x.vertex else s

/-- Goes on with the visit `x`. -/
def step (g : Digraph) (within : List Nat) (s : ClassSearch) (x : Visit) (outer : List Visit) :
    ClassSearch :=
  match x.pending with
  | [] => s.leave x outer
  | w :: pending => { s with visits := { x with pending } :: outer }.follow g within w

/-! ### Termination -/

/-- The edges of the vertices that have not been met, each counted twice. -/
def unmet (g : Digraph) (within : List Nat) (numbers : SortedMap Nat Nat) : Nat :=
  total <| (List.range g.size).map fun v =>
    if numbers.contains v then 0 else 2 * (g.nextWithin within v).length

/-- What is left to do: the ends of the visits under way, and twice each edge that has not been
followed, so that beginning a visit costs less than the edge that led to it. -/
def work (g : Digraph) (within : List Nat) (s : ClassSearch) : Nat :=
  unmet g within s.numbers + total (s.visits.map fun x => 2 * x.pending.length + 1)

private theorem total_insert_le (weight : Nat → Nat) {numbers : SortedMap Nat Nat} {w : Nat}
    (new : w ∉ numbers) (n : Nat) (vertices : List Nat) :
    total (vertices.map fun v => if (numbers.insert w n).contains v then 0 else weight v) +
        (if w ∈ vertices then weight w else 0) ≤
      total (vertices.map fun v => if numbers.contains v then 0 else weight v) := by
  induction vertices with
  | nil => simp
  | cons v rest ih =>
    simp only [List.map_cons, total_cons, List.mem_cons, Std.ExtTreeMap.contains_insert,
      Bool.or_eq_true, Std.LawfulEqOrd.compare_eq_iff_eq, beq_iff_eq] at ih ⊢
    by_cases here : w = v
    · subst here
      have absent : numbers.contains w = false :=
        Bool.eq_false_iff.mpr fun met => new (Std.ExtTreeMap.mem_iff_contains.mpr met)
      simp only [true_or, if_true, absent, Bool.false_eq_true, if_false] at ih ⊢
      split at ih <;> omega
    · simp only [here, false_or] at ih ⊢
      omega

theorem unmet_insert_le (g : Digraph) (within : List Nat) {numbers : SortedMap Nat Nat} {w : Nat}
    (new : w ∉ numbers) (n : Nat) :
    unmet g within (numbers.insert w n) + 2 * (g.nextWithin within w).length ≤
      unmet g within numbers := by
  have bound := total_insert_le (fun v => 2 * (g.nextWithin within v).length) new n
    (List.range g.size)
  unfold unmet
  split at bound
  · exact bound
  next outside =>
    -- a number that names no vertex has no edges
    have none : g.nextWithin within w = [] := by
      have beyond : g.targets.size ≤ w := by simpa [size] using outside
      simp [nextWithin, next, Array.getElem?_eq_none beyond]
    rw [none]
    exact bound

theorem work_lower (g : Digraph) (within : List Nat) (s : ClassSearch) (n : Nat) :
    (s.lower n).work g within = s.work g within := by
  unfold lower
  split
  · rfl
  next visits => simp [work, visits]

theorem work_follow_le (g : Digraph) (within : List Nat) (s : ClassSearch) (w : Nat) :
    (s.follow g within w).work g within ≤ s.work g within + 1 := by
  unfold follow
  split
  next unmet =>
    have new : w ∉ s.numbers := by
      rw [Std.ExtTreeMap.mem_iff_isSome_getElem?, unmet]
      exact Bool.false_ne_true
    have bound := unmet_insert_le g within new s.count
    simp only [work, enter, List.map_cons, total_cons]
    omega
  · split
    · rw [work_lower]
      omega
    · omega

theorem work_step_lt {g : Digraph} {within : List Nat} {s : ClassSearch} {x : Visit}
    {outer : List Visit} (visits : s.visits = x :: outer) :
    (s.step g within x outer).work g within < s.work g within := by
  have before : s.work g within = unmet g within s.numbers +
      (2 * x.pending.length + 1 + total (outer.map fun x => 2 * x.pending.length + 1)) := by
    rw [work, visits, List.map_cons, total_cons]
  unfold step
  split
  next done =>
    -- closing a class leaves numbers and visits alone
    have left : (s.leave x outer).work g within = { s with visits := outer }.work g within := by
      unfold leave
      split
      · exact work_lower g within { s with visits := outer } x.low
      · exact work_lower g within { s with visits := outer } x.low
    rw [left, before]
    simp only [work]
    omega
  next w pending edges =>
    have bound := work_follow_le g within { s with visits := { x with pending } :: outer } w
    rw [edges, List.length_cons] at before
    simp only [work, List.map_cons, total_cons] at bound before ⊢
    omega

/-! ### The search -/

/-- Works off all visits. -/
def run (g : Digraph) (within : List Nat) (s : ClassSearch) : ClassSearch :=
  match _h : s.visits with
  | [] => s
  | x :: outer => run g within (s.step g within x outer)
termination_by s.work g within
decreasing_by exact work_step_lt (by assumption)

/-- Searches from a vertex, unless it has been met. -/
def explore (g : Digraph) (within : List Nat) (s : ClassSearch) (root : Nat) : ClassSearch :=
  if s.numbers.contains root then s else (s.enter g within root).run g within

end ClassSearch

/-- The classes of vertices of a list that reach one another by edges inside the list, each in
ascending order. A class comes after all classes that its edges lead to. -/
def components (g : Digraph) (vertices : List Nat) : List (List Nat) :=
  let within := g.known vertices
  (within.foldl (ClassSearch.explore g within) .start).classes

end Digraph

end Recalc
