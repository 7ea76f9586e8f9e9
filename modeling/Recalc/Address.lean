import Recalc.SortedMap

/-!
# Addresses

A workbook is a *unit*; each unit holds sheets under stable ids. Rows and columns are counted from
zero. Rectangles include all four of their edges; one whose start lies after its end contains
nothing.
-/

namespace Recalc

/-- The letters of a column: `A` to `Z`, then `AA`, and so on. The letters form a numeral of base 26
with the digits one to twenty-six. -/
def columnLetters (col : Nat) : String :=
  String.ofList (go (col + 1) [])
where
  go (n : Nat) (acc : List Char) : List Char :=
    if h : n = 0 then acc
    else go ((n - 1) / 26) (Char.ofNat ('A'.toNat + (n - 1) % 26) :: acc)
  termination_by n

def positionText (row col : Nat) : String :=
  columnLetters col ++ toString (row + 1)

/-! ### Cells -/

/-- A cell of one sheet of one unit. -/
structure Address where
  unit : String
  sheet : String
  row : Nat
  col : Nat
deriving DecidableEq, Repr, Inhabited

namespace Address

instance : Ord Address where
  compare := compareLex (compareOn unit)
    (compareLex (compareOn sheet) (compareLex (compareOn row) (compareOn col)))

instance : Std.TransOrd Address :=
  inferInstanceAs (Std.TransCmp (compareLex _ (compareLex _ (compareLex _ _))))

instance : Std.LawfulEqOrd Address where
  eq_of_compare {a b} h := by
    obtain ⟨u, h⟩ := compareLex_eq_eq.mp h
    obtain ⟨s, h⟩ := compareLex_eq_eq.mp h
    obtain ⟨r, c⟩ := compareLex_eq_eq.mp h
    cases a
    cases b
    simp only [mk.injEq]
    exact ⟨Std.LawfulEqOrd.eq_of_compare u, Std.LawfulEqOrd.eq_of_compare s,
      Std.LawfulEqOrd.eq_of_compare r, Std.LawfulEqOrd.eq_of_compare c⟩

/-- The same sheet, at another position. -/
def sibling (a : Address) (row col : Nat) : Address :=
  { a with row, col }

def display (a : Address) : String :=
  "[" ++ a.unit ++ "]" ++ a.sheet ++ "!" ++ positionText a.row a.col

def sort (addresses : List Address) : List Address :=
  addresses.mergeSort fun a b => (compare a b).isLE

end Address

/-! ### Rectangles -/

/-- A rectangle of positions, all four edges included. -/
structure Rectangle where
  startRow : Nat
  startCol : Nat
  endRow : Nat
  endCol : Nat
deriving DecidableEq, Repr, Inhabited

/-- A rectangle whose start lies after its end. -/
structure InvertedRectangle where
  rectangle : Rectangle
deriving DecidableEq, Repr

def InvertedRectangle.message (e : InvertedRectangle) : String :=
  let r := e.rectangle
  s!"range start ({r.startRow},{r.startCol}) lies after end ({r.endRow},{r.endCol})"

namespace Rectangle

instance : Ord Rectangle where
  compare := compareLex (compareOn startRow)
    (compareLex (compareOn startCol) (compareLex (compareOn endRow) (compareOn endCol)))

/-- Whether the start does not lie after the end. -/
def Ordered (r : Rectangle) : Prop :=
  r.startRow ≤ r.endRow ∧ r.startCol ≤ r.endCol

instance (r : Rectangle) : Decidable r.Ordered :=
  inferInstanceAs (Decidable (_ ∧ _))

/-- The rectangle itself if its start does not lie after its end. -/
def check (r : Rectangle) : Except InvertedRectangle Rectangle :=
  if r.Ordered then .ok r else .error ⟨r⟩

def ofPosition (row col : Nat) : Rectangle :=
  ⟨row, col, row, col⟩

def height (r : Rectangle) : Nat :=
  r.endRow + 1 - r.startRow

def width (r : Rectangle) : Nat :=
  r.endCol + 1 - r.startCol

def contains (r : Rectangle) (row col : Nat) : Bool :=
  r.startRow ≤ row && row ≤ r.endRow && r.startCol ≤ col && col ≤ r.endCol

/-- Whether both corners of `other` lie in `r`. -/
def covers (r other : Rectangle) : Bool :=
  r.contains other.startRow other.startCol && r.contains other.endRow other.endCol

def intersects (r other : Rectangle) : Bool :=
  r.startRow ≤ other.endRow && other.startRow ≤ r.endRow
    && r.startCol ≤ other.endCol && other.startCol ≤ r.endCol

end Rectangle

/-! ### Regions -/

/-- A rectangle on one sheet of one unit. -/
structure Region where
  unit : String
  sheet : String
  rectangle : Rectangle
deriving DecidableEq, Repr, Inhabited

namespace Region

instance : Ord Region where
  compare := compareLex (compareOn unit) (compareLex (compareOn sheet) (compareOn rectangle))

def ofAddress (a : Address) : Region :=
  ⟨a.unit, a.sheet, .ofPosition a.row a.col⟩

def contains (g : Region) (a : Address) : Bool :=
  g.unit == a.unit && g.sheet == a.sheet && g.rectangle.contains a.row a.col

def intersects (g other : Region) : Bool :=
  g.unit == other.unit && g.sheet == other.sheet && g.rectangle.intersects other.rectangle

def covers (g other : Region) : Bool :=
  g.unit == other.unit && g.sheet == other.sheet && g.rectangle.covers other.rectangle

def sortDistinct (regions : List Region) : List Region :=
  (regions.mergeSort fun a b => (compare a b).isLE).eraseReps

end Region

end Recalc
