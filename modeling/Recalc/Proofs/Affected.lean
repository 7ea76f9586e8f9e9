import Recalc.Proofs.Marks
import Recalc.Proofs.Schedules
import Recalc.Proofs.Search
import Recalc.Proofs.Solution

/-!
# Affected formulas

Affected are the formulas from which dependencies lead to one that a mark touches
(`mem_affected_iff`). They are the least set that contains these seeds and the readers of its members,
and a cycle is affected as a whole or not at all (`affected_closure`). What is left reads no affected
formula, so an unforced pass works on a set that contains all readers of its members
(`sweeps_of_unforced`).
-/
namespace Recalc

/-- A path inside a set is a path. -/
theorem Digraph.Reaches.leads {g : Digraph} {within : List Nat} {v w : Nat}
    (path : g.Reaches within v w) : g.Leads v w :=
  path.lift id fun _ _ edge => (mem_nextWithin.mp edge).1

namespace DependencyGraph

variable {book : Workbook} {lib : Library}

/-- A path to readers is a path of dependencies walked backwards. -/
theorem leads_readers {v w : Nat} :
    (ofWorkbook book lib).readers.Leads v w ↔ (ofWorkbook book lib).dependencies.Leads w v := by
  have turned : (fun v w => w ∈ (ofWorkbook book lib).readers.next v) =
      Function.swap fun v w => w ∈ (ofWorkbook book lib).dependencies.next v := by
    funext v w
    exact propext mem_readers
  unfold Digraph.Leads
  rw [turned]
  exact Relation.reflTransGen_swap

theorem size_readers (book : Workbook) (lib : Library) :
    (ofWorkbook book lib).readers.size = (ofWorkbook book lib).size :=
  Digraph.size_reverse.trans (size_dependencies _)

theorem lt_size_of_leads {v w : Nat} (path : (ofWorkbook book lib).dependencies.Leads v w)
    (bounded : w < (ofWorkbook book lib).size) : v < (ofWorkbook book lib).size := by
  rcases Relation.ReflTransGen.cases_head path with rfl | ⟨u, edge, _⟩
  · exact bounded
  · obtain ⟨_, _, source, _⟩ := mem_next.mp edge
    exact lt_size source

end DependencyGraph

namespace DirtyMarks

open DependencyGraph

variable {m : DirtyMarks} {book : Workbook} {lib : Library}

theorem ascending_affected (m : DirtyMarks) (g : DependencyGraph) :
    (m.affected g).Pairwise (· < ·) :=
  List.pairwise_lt_range.filter _

theorem lt_size_of_mem_seeds {g : DependencyGraph} {s : Nat} (seed : s ∈ m.seeds g) : s < g.size := by
  obtain ⟨_, found, _⟩ := mem_seeds.mp seed
  exact lt_size found

/-- Affected are the formulas from which dependencies lead to a seed. -/
theorem mem_affected_iff {v : Nat} : v ∈ m.affected (ofWorkbook book lib) ↔
    ∃ s ∈ m.seeds (ofWorkbook book lib), (ofWorkbook book lib).dependencies.Leads v s := by
  rw [affected, Digraph.mem_reachable, size_readers]
  simp only [leads_readers]
  refine ⟨And.right, fun ⟨s, seed, path⟩ => ⟨?_, s, seed, path⟩⟩
  exact lt_size_of_leads path (lt_size_of_mem_seeds seed)

theorem mem_affected_of_leads {v w : Nat} (path : (ofWorkbook book lib).dependencies.Leads v w)
    (inside : w ∈ m.affected (ofWorkbook book lib)) : v ∈ m.affected (ofWorkbook book lib) := by
  obtain ⟨s, seed, further⟩ := mem_affected_iff.mp inside
  exact mem_affected_iff.mpr ⟨s, seed, path.trans further⟩

theorem mem_affected_of_touches {v : Nat} {x : Vertex}
    (found : (ofWorkbook book lib).vertex? v = some x) (touched : m.touches x = true) :
    v ∈ m.affected (ofWorkbook book lib) :=
  mem_affected_iff.mpr ⟨v, mem_seeds.mpr ⟨x, found, touched⟩, .refl⟩

/-- Readers of affected formulas are affected. -/
theorem affected_closed (m : DirtyMarks) (book : Workbook) (lib : Library) :
    (ofWorkbook book lib).ClosedUnderReaders
      ((ofWorkbook book lib).dependencies.known (m.affected (ofWorkbook book lib))) := by
  intro v w inside edge
  have affected := (Digraph.mem_known.mp inside).1
  exact Digraph.mem_known.mpr
    ⟨mem_affected_of_leads (.single edge) affected, Digraph.lt_size_of_mem_next edge⟩

/-! ### The closure under readers -/

/-- A set of formulas that contains the seeds and all readers of its members contains everything
affected. -/
theorem mem_of_mem_affected {set : Nat → Prop} (start : ∀ s ∈ m.seeds (ofWorkbook book lib), set s)
    (closed : ∀ v w, set v → v ∈ (ofWorkbook book lib).dependencies.next w → set w) {v : Nat}
    (inside : v ∈ m.affected (ofWorkbook book lib)) : set v := by
  obtain ⟨s, seed, path⟩ := mem_affected_iff.mp inside
  -- the path is followed back from the seed
  induction path using Relation.ReflTransGen.head_induction_on with
  | refl => exact start s seed
  | head edge further ih => exact closed _ _ (ih (mem_affected_iff.mpr ⟨s, seed, further⟩)) edge

/-- A component contains affected formulas only, or none. -/
theorem affected_component {c : List Nat}
    (component : (ofWorkbook book lib).dependencies.IsComponent (ofWorkbook book lib).all c) :
    (∀ v ∈ c, v ∈ m.affected (ofWorkbook book lib)) ∨
      ∀ v ∈ c, v ∉ m.affected (ofWorkbook book lib) := by
  obtain ⟨v, _, isClass⟩ := component
  by_cases affected : v ∈ m.affected (ofWorkbook book lib)
  · exact .inl fun w member => mem_affected_of_leads ((isClass w).mp member).2.leads affected
  · exact .inr fun w member inside =>
      affected (mem_affected_of_leads ((isClass w).mp member).1.leads inside)

/-- The affected formulas are listed in ascending order, and they are those from which a path of
dependencies leads to a seed. They contain the seeds and the readers of their members, every other set
that does so contains them, and no component of the graph is split by them. -/
theorem affected_closure (m : DirtyMarks) (book : Workbook) (lib : Library) :
    let g := ofWorkbook book lib
    (m.affected g).Pairwise (· < ·) ∧
    (∀ v, v ∈ m.affected g ↔ ∃ s ∈ m.seeds g, g.dependencies.Leads v s) ∧
    (∀ s ∈ m.seeds g, s ∈ m.affected g) ∧
    (∀ v ∈ m.affected g, ∀ w, v ∈ g.dependencies.next w → w ∈ m.affected g) ∧
    (∀ set : Nat → Prop, (∀ s ∈ m.seeds g, set s) →
      (∀ v w, set v → v ∈ g.dependencies.next w → set w) → ∀ v ∈ m.affected g, set v) ∧
    ∀ c, g.dependencies.IsComponent g.all c →
      (∀ v ∈ c, v ∈ m.affected g) ∨ ∀ v ∈ c, v ∉ m.affected g := by
  intro g
  refine ⟨ascending_affected m g, fun v => mem_affected_iff, fun s seed => ?seeds,
    fun v inside w edge => ?readers, fun set start closed v => mem_of_mem_affected start closed,
    fun c => affected_component⟩
  case seeds => exact mem_affected_iff.mpr ⟨s, seed, .refl⟩
  case readers => exact mem_affected_of_leads (.single edge) inside

end DirtyMarks

namespace Engine

variable {e : Engine} {book : Workbook} {q : Request}

theorem sweeps_of_unforced (unforced : q.forced = false) (plain : q.options.iterative = false)
    (e : Engine) (book : Workbook) :
    e.Sweeps book q ((q.marks e.config.recalcVolatile).affected (e.plan book q).1) where
  plain := plain
  schedule := by
    rw [plan_eq, Request.schedule, unforced]
    rfl
  closed := (q.marks e.config.recalcVolatile).affected_closed book e.library

end Engine

end Recalc
