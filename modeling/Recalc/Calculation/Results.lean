import Recalc.Workbook

/-!
# Calculation results

The values that a calculation delivers, those of the units it was asked for apart from all others,
and the formula cells that have no value.
-/

namespace Recalc

structure SheetCells where
  rows : SortedMap Nat (SortedMap Nat Value)

namespace SheetCells

def empty : SheetCells :=
  ⟨∅⟩

def set (m : SheetCells) (row col : Nat) (v : Value) : SheetCells :=
  ⟨m.rows.update row ∅ fun cols => cols.insert col v⟩

def get? (m : SheetCells) (row col : Nat) : Option Value :=
  (m.rows[row]?).bind fun cols => cols[col]?

/-- The cells with their positions, row by row. -/
def toList (m : SheetCells) : List (Nat × Nat × Value) :=
  m.rows.toList.flatMap fun (row, cols) => cols.toList.map fun (col, v) => (row, col, v)

def size (m : SheetCells) : Nat :=
  m.toList.length

/-- Whether there is no row, not even one without cells. -/
def isEmpty (m : SheetCells) : Bool :=
  m.rows.isEmpty

end SheetCells

/-- Cells by unit and sheet id. -/
abbrev UnitCells := SortedMap String (SortedMap String SheetCells)

namespace UnitCells

def set (cells : UnitCells) (a : Address) (v : Value) : UnitCells :=
  cells.update a.unit ∅ fun sheets =>
    sheets.update a.sheet .empty fun m => m.set a.row a.col v

def get? (cells : UnitCells) (a : Address) : Option Value :=
  (cells[a.unit]?).bind fun sheets => (sheets[a.sheet]?).bind fun m => m.get? a.row a.col

/-- The cells with their values in ascending order. -/
def toList (cells : UnitCells) : List (Address × Value) :=
  Std.ExtTreeMap.toList cells |>.flatMap fun (unit, sheets) =>
    sheets.toList.flatMap fun (sheet, m) =>
      m.toList.map fun (row, col, v) => (⟨unit, sheet, row, col⟩, v)

def count (cells : UnitCells) : Nat :=
  cells.toList.length

end UnitCells

/-- A formula cell without a value, and why. -/
structure CellFault where
  address : Address
  message : String
deriving DecidableEq, Repr

structure Results where
  home : UnitCells
  other : UnitCells
  faults : List CellFault

namespace Results

def empty : Results :=
  ⟨∅, ∅, []⟩

def insert (r : Results) (isHome : Bool) (a : Address) (v : Value) : Results :=
  if isHome then { r with home := r.home.set a v } else { r with other := r.other.set a v }

/-- Adds a cell without a value. -/
def insertFault (r : Results) (a : Address) (message : String) : Results :=
  { r with faults := r.faults ++ [⟨a, message⟩] }

def value? (r : Results) (a : Address) : Option Value :=
  (r.home.get? a).or (r.other.get? a)

/-- All cells with their values, those of home units first. -/
def cells (r : Results) : List (Address × Value) :=
  r.home.toList ++ r.other.toList

/-- The number of cells with a value. -/
def count (r : Results) : Nat :=
  r.home.count + r.other.count

end Results

/-- Stores all values of a result. Cells without a value keep what they have. -/
def Workbook.applyResults (b : Workbook) (r : Results) : Workbook :=
  r.cells.foldl (fun b (a, v) => b.writeBack a v) b

end Recalc
