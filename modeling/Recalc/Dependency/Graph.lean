import Recalc.Dependency.CellIndex
import Recalc.Dependency.Digraph

/-!
# The dependency graph of a workbook

Every formula cell is a vertex, numbered in the order of addresses. What a formula reads is kept as
regions, sheet names, defined names and features; an edge leads from a formula cell to each formula
cell that lies in a region it reads.
-/

namespace Recalc

/-- A sheet given by display name, with the id it stood for when the graph was built. -/
structure SheetNameUse where
  unit : String
  name : String
  sheet : Option String
deriving DecidableEq, Repr

structure Precedents where
  regions : List Region
  sheetNames : List SheetNameUse
  names : List Scoped
  features : List FeatureKey
deriving DecidableEq, Repr

/-- A formula cell with what it reads. -/
structure Vertex where
  address : Address
  formula : CellFormula
  isVolatile : Bool
  precedents : Precedents

namespace Reference

/-- The place and rectangle of a reference to cells; an inverted range has none. -/
def target? : Reference → Option (Place × Rectangle)
  | cell place row col => some (place, .ofPosition row col)
  | range place rectangle => if rectangle.Ordered then some (place, rectangle) else none
  | name _ => none

/-- What a name in a formula of `unit` stands for; other references stand for themselves. -/
def expand (ref : Reference) (book : Workbook) (unit : String) : List Reference :=
  match ref with
  | name n => (book.definedName? unit n).toList
  | ref => [ref]

/-- The display name through which a reference finds its sheet. -/
def sheetNameUse? (ref : Reference) (book : Workbook) (home : Address) : Option SheetNameUse :=
  match ref.target? with
  | some (⟨unit, some (.displayName n)⟩, _) =>
    let unit := unit.getD home.unit
    some ⟨unit, n, book.sheetId? unit n⟩
  | _ => none

/-- The region that a reference reads, unless its sheet is unknown. -/
def region? (ref : Reference) (book : Workbook) (home : Address) : Option Region :=
  match ref.target? with
  | some (place, rectangle) =>
    let unit := place.unit.getD home.unit
    let sheet := match place.sheet with
      | none => some home.sheet
      | some (.id s) => some s
      | some (.displayName n) => book.sheetId? unit n
    sheet.map fun s => ⟨unit, s, rectangle⟩
  | none => none

def scopedName? (ref : Reference) (unit : String) : Option Scoped :=
  match ref with
  | name n => some ⟨unit, Text.asciiUpper n⟩
  | _ => none

end Reference

namespace CellFormula

def precedents (f : CellFormula) (book : Workbook) (home : Address) : Precedents :=
  let refs := f.tree.references
  let targets := refs.flatMap fun r => r.expand book home.unit
  { regions := Region.sortDistinct (targets.filterMap fun r => r.region? book home)
    sheetNames := targets.filterMap fun r => r.sheetNameUse? book home
    names := refs.filterMap fun r => r.scopedName? home.unit
    features := f.features }

/-- Whether a formula calls a volatile function. -/
def isVolatile (f : CellFormula) (lib : Library) : Bool :=
  f.tree.functionNames.any lib.isVolatile

end CellFormula

namespace Vertex

/-- Whether a formula reads from some part of a region. -/
def readsFrom (v : Vertex) (g : Region) : Bool :=
  v.precedents.regions.any fun r => r.intersects g

/-- Whether a formula reads a cell. -/
def reads (v : Vertex) (a : Address) : Bool :=
  v.precedents.regions.any fun r => r.contains a

/-- The numbers of the formula cells in the regions that a formula reads, in ascending order and each
once. -/
def inputs (v : Vertex) (cells : CellIndex) : List Nat :=
  sortDistinct (v.precedents.regions.flatMap cells.inRegion)

end Vertex

/-- The formula cells of a workbook, their numbers by address, and the edges from each to the ones it
reads. -/
structure DependencyGraph where
  vertices : Array Vertex
  cells : CellIndex
  dependencies : Digraph
  readers : Digraph

namespace DependencyGraph

/-- The graph of vertices given in the order of their addresses. -/
def ofVertices (vertices : Array Vertex) : DependencyGraph :=
  let cells := CellIndex.ofList (vertices.toList.map Vertex.address)
  let dependencies : Digraph := ⟨vertices.map fun v => v.inputs cells⟩
  ⟨vertices, cells, dependencies, dependencies.reverse⟩

/-- The graph of a workbook whose formulas call functions of a library. -/
def ofWorkbook (book : Workbook) (lib : Library) : DependencyGraph :=
  let vertices := (sortDistinct book.formulaCells).filterMap fun a =>
    (book.formula? a).map fun f => (⟨a, f, f.isVolatile lib, f.precedents book a⟩ : Vertex)
  ofVertices vertices.toArray

def size (g : DependencyGraph) : Nat :=
  g.vertices.size

def vertex? (g : DependencyGraph) (v : Nat) : Option Vertex :=
  g.vertices[v]?

def all (g : DependencyGraph) : List Nat :=
  List.range g.size

/-- The vertices for which `p` holds, in ascending order. -/
def select (g : DependencyGraph) (p : Vertex → Bool) : List Nat :=
  g.all.filter fun v => (g.vertex? v).any p

/-- The formula cells inside a region, row by row. -/
def formulasIn (g : DependencyGraph) (r : Region) : List Nat :=
  g.cells.inRegion r

def vertexOf? (g : DependencyGraph) (a : Address) : Option Nat :=
  g.cells.find? a

end DependencyGraph

end Recalc
