import Recalc.Workbook

/-!
# Cells by sheet and position

An index finds numbered cells by their addresses. The cells of each sheet are kept row by row, so that
those of a rectangle lie between its corners, together with cells of the same rows in other columns.
-/

namespace Recalc

/-- A place on a sheet. Positions ascend row by row. -/
structure Position where
  row : Nat
  col : Nat
deriving DecidableEq, Repr

namespace Position

instance : Ord Position where
  compare := compareLex (compareOn row) (compareOn col)

instance : Std.TransOrd Position :=
  inferInstanceAs (Std.TransCmp (compareLex _ _))

instance : Std.LawfulEqOrd Position where
  eq_of_compare {a b} h := by
    obtain ⟨r, c⟩ := compareLex_eq_eq.mp h
    cases a
    cases b
    simp only [mk.injEq]
    exact ⟨Std.LawfulEqOrd.eq_of_compare r, Std.LawfulEqOrd.eq_of_compare c⟩

end Position

def Address.position (a : Address) : Position :=
  ⟨a.row, a.col⟩

/-- The numbers of cells, sheet by sheet. -/
structure CellIndex where
  sheets : SortedMap Scoped (SortedMap Position Nat)

namespace CellIndex

def insert (ix : CellIndex) (a : Address) (n : Nat) : CellIndex :=
  ⟨ix.sheets.update a.onSheet ∅ (·.insert a.position n)⟩

/-- The cells of a list under their places in it. -/
def ofList (cells : List Address) : CellIndex :=
  cells.zipIdx.foldl (fun ix (a, n) => ix.insert a n) ⟨∅⟩

def find? (ix : CellIndex) (a : Address) : Option Nat :=
  (ix.sheets[a.onSheet]?).bind (·[a.position]?)

/-- The cells of one sheet in a rectangle, row by row: of all cells from the first corner to the last
one, those in the columns of the rectangle. -/
def scan (cells : SortedMap Position Nat) (r : Rectangle) : List (Position × Nat) :=
  (cells.between ⟨r.startRow, r.startCol⟩ ⟨r.endRow, r.endCol⟩).filter fun (p, _) =>
    r.startCol ≤ p.col && p.col ≤ r.endCol

/-- The numbers of the cells in a region. -/
def inRegion (ix : CellIndex) (r : Region) : List Nat :=
  match ix.sheets[(⟨r.unit, r.sheet⟩ : Scoped)]? with
  | none => []
  | some cells => (scan cells r.rectangle).map Prod.snd

end CellIndex

end Recalc
