import Recalc.Proofs.Graph
import Recalc.Proofs.Reading

/-!
# Exact edges

The formula cells of a workbook are numbered in the order of their addresses, and its graph has
exactly the edges that their regions ask for, in both directions (`graph_exact`). The regions that
are scanned for edges are never inverted (`ordered_of_mem_regions`).
-/
namespace Recalc

/-- The cells of a region are those of its sheet between its edges. -/
theorem Region.contains_iff {r : Region} {a : Address} : r.contains a = true ↔
    a.unit = r.unit ∧ a.sheet = r.sheet ∧
      (r.rectangle.startRow ≤ a.row ∧ a.row ≤ r.rectangle.endRow) ∧
      r.rectangle.startCol ≤ a.col ∧ a.col ≤ r.rectangle.endCol := by
  simp only [contains, Rectangle.contains, Bool.and_eq_true, beq_iff_eq, decide_eq_true_eq, and_assoc]
  rw [eq_comm (a := r.unit), eq_comm (a := r.sheet)]

namespace Reference

variable {ref : Reference} {book : Workbook} {home : Address}

theorem ordered_of_target? {place : Place} {rectangle : Rectangle}
    (target : ref.target? = some (place, rectangle)) : rectangle.Ordered := by
  cases ref with
  | cell place row col =>
    cases target
    exact ⟨Nat.le_refl row, Nat.le_refl col⟩
  | range place given =>
    simp only [target?] at target
    split at target
    next ordered =>
      cases target
      exact ordered
    next => cases target
  | name n => cases target

theorem ordered_of_region? {r : Region} (found : ref.region? book home = some r) :
    r.rectangle.Ordered := by
  unfold region? at found
  split at found
  next place rectangle target =>
    obtain ⟨s, _, rfl⟩ := Option.map_eq_some_iff.mp found
    exact ordered_of_target? target
  next => cases found

end Reference

theorem CellFormula.ordered_of_mem_regions {f : CellFormula} {book : Workbook} {home : Address}
    {r : Region} (read : r ∈ (f.precedents book home).regions) : r.rectangle.Ordered := by
  obtain ⟨_, _, found⟩ := List.mem_filterMap.mp (Region.mem_sortDistinct.mp read)
  exact Reference.ordered_of_region? found

namespace DependencyGraph

/-- The regions of a vertex are those that its formula reads in the workbook. -/
theorem ordered_of_vertex {book : Workbook} {lib : Library} {v : Nat} {x : Vertex}
    (found : (ofWorkbook book lib).vertex? v = some x) {r : Region} (read : r ∈ x.precedents.regions) :
    r.rectangle.Ordered := by
  rw [(eq_vertexAt found).2] at read
  exact CellFormula.ordered_of_mem_regions read

/-- The cells of the vertices are the formula cells of the workbook, in ascending order, and a cell is
found under its number. A region contains the cells that its edges enclose, which are listed by their
numbers. A formula cell reads another one exactly when that lies in one of its regions, and is then
entered as its reader. The edges of a vertex are in ascending order both ways. -/
theorem graph_exact (book : Workbook) (lib : Library) :
    let g := ofWorkbook book lib
    let cells := g.vertices.toList.map Vertex.address
    (cells.Pairwise (fun a b => compare a b = .lt) ∧
      ∀ a, a ∈ cells ↔ (book.formula? a).isSome = true) ∧
    (∀ a v, g.vertexOf? a = some v ↔ cells[v]? = some a) ∧
    (∀ r : Region, r.rectangle.Ordered → (g.formulasIn r).Pairwise (· < ·) ∧
      ∀ v, v ∈ g.formulasIn r ↔ ∃ a, cells[v]? = some a ∧ a.unit = r.unit ∧ a.sheet = r.sheet ∧
        (r.rectangle.startRow ≤ a.row ∧ a.row ≤ r.rectangle.endRow) ∧
        r.rectangle.startCol ≤ a.col ∧ a.col ≤ r.rectangle.endCol) ∧
    (∀ v x, g.vertex? v = some x → cells[v]? = some x.address ∧
      book.formula? x.address = some x.formula ∧
      x.precedents = x.formula.precedents book x.address ∧
      ∀ r ∈ x.precedents.regions, r.rectangle.Ordered) ∧
    (∀ v w, w ∈ g.dependencies.next v ↔ ∃ x b, g.vertex? v = some x ∧ cells[w]? = some b ∧
      ∃ r ∈ x.precedents.regions, r.contains b = true) ∧
    (∀ v w, w ∈ g.dependencies.next v ↔ v ∈ g.readers.next w) ∧
    ∀ v, (g.dependencies.next v).Pairwise (· < ·) ∧ (g.readers.next v).Pairwise (· < ·) := by
  intro g cells
  have listed : cells = book.formulaCells := map_address_vertices book lib
  -- the parts below are known for vertices and are carried over to their cells by this
  have number : ∀ {v a}, cells[v]? = some a ↔ ∃ x, g.vertex? v = some x ∧ x.address = a := by
    intro v a
    rw [listed]
    exact formulaCells_getElem?_eq_some_iff book lib
  refine ⟨⟨listed ▸ book.ascending_formulaCells, fun a => ?members⟩,
    fun a v => vertexOf?_eq_some_iff.trans number.symm,
    fun r _ => ⟨ascending_formulasIn r, fun v => ?region⟩,
    fun v x found => ?vertex, fun v w => ?edges, fun v w => mem_readers.symm,
    fun v => ⟨ascending_dependencies _ v, ascending_readers _ v⟩⟩
  case members => rw [listed, Workbook.mem_formulaCells, Option.isSome_iff_exists]
  case region =>
    rw [mem_formulasIn]
    simp only [number, ← Region.contains_iff]
    constructor
    · rintro ⟨x, found, inside⟩
      exact ⟨x.address, ⟨x, found, rfl⟩, inside⟩
    · rintro ⟨_, ⟨x, found, rfl⟩, inside⟩
      exact ⟨x, found, inside⟩
  case vertex =>
    obtain ⟨formula, built⟩ := eq_vertexAt found
    exact ⟨number.mpr ⟨x, found, rfl⟩, formula, congrArg Vertex.precedents built,
      fun r read => ordered_of_vertex found read⟩
  case edges =>
    rw [mem_next]
    simp only [number, Vertex.reads, List.any_eq_true]
    constructor
    · rintro ⟨x, y, source, target, r, read, inside⟩
      exact ⟨x, y.address, source, ⟨y, target, rfl⟩, r, read, inside⟩
    · rintro ⟨x, _, source, ⟨y, target, rfl⟩, r, read, inside⟩
      exact ⟨x, y, source, target, r, read, inside⟩

end DependencyGraph

end Recalc
