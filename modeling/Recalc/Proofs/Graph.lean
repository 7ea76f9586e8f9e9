import Mathlib.Data.List.Nodup
import Recalc.Dependency.Graph
import Recalc.Proofs.CellIndex
import Recalc.Proofs.Reversal

/-!
# The graph of a workbook

Its vertices are the formula cells (`eq_vertexAt`, `exists_vertexAt`), each under one number
(`vertex_unique`). The index finds a cell under its number (`vertexOf?_eq_some_iff`) and the cells of a
region in ascending order (`mem_formulasIn`, `ascending_formulasIn`), so an edge leads from a formula
cell to the formula cells that lie in the regions it reads (`mem_next`).
-/
namespace Recalc

/-! ### Formula cells -/

namespace Workbook

variable {book : Workbook} {a : Address}

theorem mem_formulaCells : a ∈ book.formulaCells ↔ ∃ f, book.formula? a = some f := by
  rw [formulaCells, Std.ExtTreeMap.mem_keys, formula?, Std.ExtTreeMap.mem_iff_isSome_getElem?,
    Option.isSome_iff_exists]

theorem notMem_formulaCells : a ∉ book.formulaCells ↔ book.formula? a = none := by
  rw [mem_formulaCells, not_exists, Option.eq_none_iff_forall_not_mem]
  exact Iff.rfl

theorem ascending_formulaCells (book : Workbook) :
    book.formulaCells.Pairwise fun a b => compare a b = .lt :=
  Std.ExtTreeMap.ordered_keys

theorem nodup_formulaCells (book : Workbook) : book.formulaCells.Nodup :=
  nodup_of_ascending book.ascending_formulaCells

end Workbook

namespace DependencyGraph

/-- The cells of vertices. -/
def addresses (g : DependencyGraph) (vertices : List Nat) : List Address :=
  (vertices.filterMap g.vertex?).map Vertex.address

theorem addresses_append (g : DependencyGraph) (vertices more : List Nat) :
    g.addresses (vertices ++ more) = g.addresses vertices ++ g.addresses more := by
  simp [addresses]

theorem exists_vertex {g : DependencyGraph} {v : Nat} (bounded : v < g.size) :
    ∃ x, g.vertex? v = some x :=
  ⟨_, Array.getElem?_eq_getElem bounded⟩

theorem lt_size {g : DependencyGraph} {v : Nat} {x : Vertex} (found : g.vertex? v = some x) :
    v < g.size :=
  (Array.getElem?_eq_some_iff.mp found).1

theorem mem_addresses {g : DependencyGraph} {vertices : List Nat} {a : Address} :
    a ∈ g.addresses vertices ↔ ∃ v ∈ vertices, ∃ x, g.vertex? v = some x ∧ x.address = a := by
  simp only [addresses, List.mem_map, List.mem_filterMap]
  constructor
  · rintro ⟨x, ⟨v, listed, found⟩, same⟩
    exact ⟨v, listed, x, found, same⟩
  · rintro ⟨v, listed, x, found, same⟩
    exact ⟨x, ⟨v, listed, found⟩, same⟩

theorem length_addresses {g : DependencyGraph} {vertices : List Nat}
    (bounded : ∀ v ∈ vertices, v < g.size) : (g.addresses vertices).length = vertices.length := by
  rw [addresses, List.length_map]
  induction vertices with
  | nil => rfl
  | cons v rest ih =>
    obtain ⟨x, found⟩ := exists_vertex (bounded v List.mem_cons_self)
    rw [List.filterMap_cons_some found, List.length_cons, List.length_cons,
      ih fun v member => bounded v (List.mem_cons_of_mem _ member)]

/-! ### Vertices -/

section Vertices

variable (book : Workbook) (lib : Library)

/-- The vertex of a formula cell. -/
def vertexAt (a : Address) (f : CellFormula) : Vertex :=
  ⟨a, f, f.isVolatile lib, f.precedents book a⟩

/-- The formula cells are numbered in ascending order as they are listed. -/
theorem ofWorkbook_eq : ofWorkbook book lib =
    ofVertices (book.formulas.toList.map fun x => vertexAt book lib x.1 x.2).toArray := by
  have listed : sortDistinct book.formulaCells = book.formulas.toList.map Prod.fst := by
    rw [sortDistinct_of_ascending book.ascending_formulaCells, Workbook.formulaCells,
      Std.ExtTreeMap.map_fst_toList_eq_keys]
  have found : ∀ x ∈ book.formulas.toList, (book.formula? x.1).map (vertexAt book lib x.1) =
      some (vertexAt book lib x.1 x.2) := by
    rintro ⟨a, f⟩ member
    rw [Workbook.formula?, Std.ExtTreeMap.mem_toList_iff_getElem?_eq_some.mp member]
    rfl
  have vertices : (sortDistinct book.formulaCells).filterMap (fun a =>
      (book.formula? a).map (vertexAt book lib a)) =
      book.formulas.toList.map fun x => vertexAt book lib x.1 x.2 := by
    rw [listed, List.filterMap_map, ← List.filterMap_eq_map']
    exact List.filterMap_congr found
  exact congrArg (fun vertices => ofVertices vertices.toArray) vertices

theorem vertex?_ofWorkbook (v : Nat) :
    (ofWorkbook book lib).vertex? v =
      (book.formulas.toList[v]?).map fun x => vertexAt book lib x.1 x.2 := by
  simp [ofWorkbook_eq, ofVertices, vertex?]

/-- The addresses of the vertices, in the order of their numbers. -/
theorem map_address_vertices :
    (ofWorkbook book lib).vertices.toList.map Vertex.address = book.formulaCells := by
  rw [ofWorkbook_eq, Workbook.formulaCells, ← Std.ExtTreeMap.map_fst_toList_eq_keys, ofVertices]
  simp only [List.map_map]
  rfl

theorem formulaCells_getElem?_eq_some_iff {a : Address} {v : Nat} : book.formulaCells[v]? = some a ↔
    ∃ x, (ofWorkbook book lib).vertex? v = some x ∧ x.address = a := by
  rw [← map_address_vertices book lib, List.getElem?_map, Array.getElem?_toList, Option.map_eq_some_iff]
  rfl

variable {book lib}

theorem eq_vertexAt {v : Nat} {x : Vertex} (found : (ofWorkbook book lib).vertex? v = some x) :
    book.formula? x.address = some x.formula ∧ x = vertexAt book lib x.address x.formula := by
  rw [vertex?_ofWorkbook] at found
  obtain ⟨⟨a, f⟩, listed, rfl⟩ := Option.map_eq_some_iff.mp found
  exact ⟨Std.ExtTreeMap.mem_toList_iff_getElem?_eq_some.mp (List.mem_of_getElem? listed), rfl⟩

theorem exists_vertexAt (lib : Library) {a : Address} {f : CellFormula}
    (formula : book.formula? a = some f) :
    ∃ v, (ofWorkbook book lib).vertex? v = some (vertexAt book lib a f) := by
  have listed : (a, f) ∈ book.formulas.toList :=
    Std.ExtTreeMap.mem_toList_iff_getElem?_eq_some.mpr formula
  obtain ⟨v, found⟩ := List.getElem?_of_mem listed
  exact ⟨v, by rw [vertex?_ofWorkbook, found]; rfl⟩

/-- A formula cell has one number. -/
theorem vertex_unique {v w : Nat} {x y : Vertex} (first : (ofWorkbook book lib).vertex? v = some x)
    (second : (ofWorkbook book lib).vertex? w = some y) (same : x.address = y.address) : v = w := by
  have here := (formulaCells_getElem?_eq_some_iff book lib).mpr ⟨x, first, same⟩
  have there := (formulaCells_getElem?_eq_some_iff book lib).mpr ⟨y, second, rfl⟩
  obtain ⟨bounded, _⟩ := List.getElem?_eq_some_iff.mp here
  exact (List.getElem?_inj bounded book.nodup_formulaCells).mp (here.trans there.symm)

theorem cells_ofWorkbook : (ofWorkbook book lib).cells = .ofList book.formulaCells := by
  rw [← map_address_vertices book lib]
  rfl

/-- The vertex of a cell is the one with its address. -/
theorem vertexOf?_eq_some_iff {a : Address} {v : Nat} :
    (ofWorkbook book lib).vertexOf? a = some v ↔
      ∃ x, (ofWorkbook book lib).vertex? v = some x ∧ x.address = a := by
  rw [vertexOf?, cells_ofWorkbook, CellIndex.find?_ofList book.nodup_formulaCells,
    formulaCells_getElem?_eq_some_iff]

/-- The formula cells in a region are those that a scan of it meets. -/
theorem mem_formulasIn {r : Region} {v : Nat} : v ∈ (ofWorkbook book lib).formulasIn r ↔
    ∃ x, (ofWorkbook book lib).vertex? v = some x ∧ r.contains x.address = true := by
  rw [formulasIn, CellIndex.mem_inRegion]
  constructor
  · rintro ⟨a, inside, found⟩
    obtain ⟨x, vertex, rfl⟩ := vertexOf?_eq_some_iff.mp found
    exact ⟨x, vertex, inside⟩
  · rintro ⟨x, vertex, inside⟩
    exact ⟨x.address, inside, vertexOf?_eq_some_iff.mpr ⟨x, vertex, rfl⟩⟩

theorem ascending_formulasIn (r : Region) :
    ((ofWorkbook book lib).formulasIn r).Pairwise (· < ·) := by
  rw [formulasIn, cells_ofWorkbook]
  exact CellIndex.ascending_inRegion_ofList book.ascending_formulaCells r

theorem nodup_addresses {vertices : List Nat} (nodup : vertices.Nodup) :
    ((ofWorkbook book lib).addresses vertices).Nodup := by
  rw [addresses, List.map_filterMap]
  refine nodup.filterMap fun v w a first second => ?_
  obtain ⟨x, vFound, rfl⟩ := Option.map_eq_some_iff.mp first
  obtain ⟨y, wFound, same⟩ := Option.map_eq_some_iff.mp second
  exact vertex_unique vFound wFound same.symm

end Vertices

/-! ### Edges -/

theorem size_dependencies (vertices : Array Vertex) :
    (ofVertices vertices).dependencies.size = (ofVertices vertices).size := by
  simp [ofVertices, Digraph.size, size]

theorem next_dependencies {vertices : Array Vertex} (v : Nat) :
    (ofVertices vertices).dependencies.next v =
      (((ofVertices vertices).vertex? v).map fun x => x.inputs (ofVertices vertices).cells).getD [] := by
  simp only [ofVertices, Digraph.next, vertex?, Array.getElem?_map]

/-- No edge is listed twice, although regions may overlap. -/
theorem ascending_dependencies (vertices : Array Vertex) (v : Nat) :
    ((ofVertices vertices).dependencies.next v).Pairwise (· < ·) := by
  rw [next_dependencies]
  cases (ofVertices vertices).vertex? v with
  | none => exact .nil
  | some x => exact (ascending_sortDistinct _).imp Nat.compare_eq_lt.mp

theorem ascending_readers (vertices : Array Vertex) (v : Nat) :
    ((ofVertices vertices).readers.next v).Pairwise (· < ·) :=
  Digraph.ascending_next_reverse fun v => (ascending_dependencies vertices v).imp Nat.ne_of_lt

section Edges

variable {book : Workbook} {lib : Library} {v w : Nat}

theorem mem_next : w ∈ (ofWorkbook book lib).dependencies.next v ↔
    ∃ x y, (ofWorkbook book lib).vertex? v = some x ∧ (ofWorkbook book lib).vertex? w = some y ∧
      x.reads y.address = true := by
  have edges : (ofWorkbook book lib).dependencies.next v =
      (((ofWorkbook book lib).vertex? v).map fun x => x.inputs (ofWorkbook book lib).cells).getD [] :=
    next_dependencies v
  rw [edges]
  cases (ofWorkbook book lib).vertex? v with
  | none => simp
  | some x =>
    have inputs : w ∈ x.inputs (ofWorkbook book lib).cells ↔
        ∃ r ∈ x.precedents.regions, w ∈ (ofWorkbook book lib).formulasIn r := by
      rw [Vertex.inputs, mem_sortDistinct, List.mem_flatMap]
      rfl
    simp only [Option.map_some, Option.getD_some, inputs, mem_formulasIn, Vertex.reads,
      List.any_eq_true, Option.some.injEq]
    constructor
    · rintro ⟨r, read, y, there, inside⟩
      exact ⟨x, y, rfl, there, r, read, inside⟩
    · rintro ⟨_, y, rfl, there, r, read, inside⟩
      exact ⟨r, read, y, there, inside⟩

theorem mem_readers : w ∈ (ofWorkbook book lib).readers.next v ↔
    v ∈ (ofWorkbook book lib).dependencies.next w := by
  have reversed : (ofWorkbook book lib).readers = (ofWorkbook book lib).dependencies.reverse := rfl
  rw [reversed, Digraph.mem_next_reverse]
  refine ⟨fun edge => edge.2.2, fun edge => ⟨?_, Digraph.lt_size_of_mem_next edge, edge⟩⟩
  obtain ⟨_, y, _, there, _⟩ := mem_next.mp edge
  exact (size_dependencies _).symm ▸ lt_size there

end Edges

end DependencyGraph

end Recalc
