import Recalc.Evaluation
import Recalc.Function.Library

/-!
# Workbooks

A workbook holds the display names of sheets, the values and formulas of cells, and the defined
names of each unit. A formula cell keeps a stored value beside its formula, which is the last one
that was written back to it.
-/

namespace Recalc

/-- A sheet by unit and id, or a name by unit. -/
structure Scoped where
  unit : String
  name : String
deriving DecidableEq, Repr

namespace Scoped

instance : Ord Scoped where
  compare := compareLex (compareOn unit) (compareOn name)

instance : Std.TransOrd Scoped :=
  inferInstanceAs (Std.TransCmp (compareLex _ _))

instance : Std.LawfulEqOrd Scoped where
  eq_of_compare {a b} h := by
    obtain ⟨u, n⟩ := compareLex_eq_eq.mp h
    cases a
    cases b
    simp only [mk.injEq]
    exact ⟨Std.LawfulEqOrd.eq_of_compare u, Std.LawfulEqOrd.eq_of_compare n⟩

end Scoped

def Address.onSheet (a : Address) : Scoped :=
  ⟨a.unit, a.sheet⟩

/-- The display names of sheets, the contents of cells, and the defined names under their
upper-case spelling. Cells lie on sheets that are there. -/
structure Workbook where
  sheets : SortedMap Scoped String
  values : SortedMap Address Value
  formulas : SortedMap Address CellFormula
  names : SortedMap Scoped Reference
  values_onSheet : ∀ a ∈ values, a.onSheet ∈ sheets
  formulas_onSheet : ∀ a ∈ formulas, a.onSheet ∈ sheets

namespace Workbook

def empty : Workbook where
  sheets := ∅
  values := ∅
  formulas := ∅
  names := ∅
  values_onSheet _ member := absurd member Std.ExtTreeMap.not_mem_empty
  formulas_onSheet _ member := absurd member Std.ExtTreeMap.not_mem_empty

/-! ### Reading -/

def value (b : Workbook) (a : Address) : Value :=
  (b.values[a]?).getD .blank

def formula? (b : Workbook) (a : Address) : Option CellFormula :=
  b.formulas[a]?

/-- The cells with a formula, in ascending order. -/
def formulaCells (b : Workbook) : List Address :=
  b.formulas.keys

def sheetName? (b : Workbook) (unit sheet : String) : Option String :=
  b.sheets[(⟨unit, sheet⟩ : Scoped)]?

/-- The sheet with a display name, without regard to the case of ASCII letters; of several the first
in the order of their ids. -/
def sheetId? (b : Workbook) (unit name : String) : Option String :=
  (b.sheets.toList.find? fun (key, shown) =>
    key.unit == unit && Text.sameIgnoringCase shown name).map fun (key, _) => key.name

def definedName? (b : Workbook) (unit name : String) : Option Reference :=
  b.names[(⟨unit, Text.asciiUpper name⟩ : Scoped)]?

/-- The least rectangle that holds every cell of a sheet with a value or a formula. -/
def usedRegion? (b : Workbook) (unit sheet : String) : Option Region :=
  let cells := (b.values.keys ++ b.formulas.keys).filter fun a => a.unit == unit && a.sheet == sheet
  match cells with
  | [] => none
  | first :: rest =>
    let start := Rectangle.ofPosition first.row first.col
    let rectangle := rest.foldl (fun (r : Rectangle) a =>
      ⟨min r.startRow a.row, min r.startCol a.col, max r.endRow a.row, max r.endCol a.col⟩) start
    some ⟨unit, sheet, rectangle⟩

/-! ### Editing -/

/-- Adds a sheet under a display name, or renames it. -/
def addSheet (b : Workbook) (unit sheet name : String) : Workbook :=
  { b with
    sheets := b.sheets.insert ⟨unit, sheet⟩ name
    values_onSheet a member := Std.ExtTreeMap.mem_insert.mpr (.inr (b.values_onSheet a member))
    formulas_onSheet a member :=
      Std.ExtTreeMap.mem_insert.mpr (.inr (b.formulas_onSheet a member)) }

/-- Adds the sheet of a cell, named like its id, unless it is there. -/
def ensureSheet (b : Workbook) (a : Address) : Workbook :=
  { b with
    sheets := b.sheets.insertIfNew a.onSheet a.sheet
    values_onSheet c member :=
      Std.ExtTreeMap.mem_insertIfNew.mpr (.inr (b.values_onSheet c member))
    formulas_onSheet c member :=
      Std.ExtTreeMap.mem_insertIfNew.mpr (.inr (b.formulas_onSheet c member)) }

theorem onSheet_mem_ensureSheet (b : Workbook) (a : Address) :
    a.onSheet ∈ (b.ensureSheet a).sheets :=
  Std.ExtTreeMap.mem_insertIfNew_self

/-- A cell that is new, or was there, lies on a sheet that is there. -/
private theorem onSheet_of_insert {b : Workbook} {a c : Address} {α : Type} {m : SortedMap Address α}
    {x : α} (old : ∀ c ∈ m, c.onSheet ∈ b.sheets) (here : a.onSheet ∈ b.sheets)
    (member : c ∈ m.insert a x) : c.onSheet ∈ b.sheets := by
  rcases Std.ExtTreeMap.mem_insert.mp member with same | earlier
  · rwa [← Std.LawfulEqOrd.eq_of_compare same]
  · exact old c earlier

/-- Stores a value in place of any formula. A blank leaves the cell without a value. -/
def setValue (b : Workbook) (a : Address) (v : Value) : Workbook :=
  let here := b.onSheet_mem_ensureSheet a
  let b := b.ensureSheet a
  { b with
    formulas := b.formulas.erase a
    values := if v.isBlank then b.values.erase a else b.values.insert a v
    formulas_onSheet c member := b.formulas_onSheet c (Std.ExtTreeMap.mem_of_mem_erase member)
    values_onSheet c member := by
      split at member
      · exact b.values_onSheet c (Std.ExtTreeMap.mem_of_mem_erase member)
      · exact onSheet_of_insert b.values_onSheet here member }

/-- Stores a formula; the stored value stays until a result replaces it. -/
def setFormula (b : Workbook) (a : Address) (f : CellFormula) : Workbook :=
  let here := b.onSheet_mem_ensureSheet a
  let b := b.ensureSheet a
  { b with
    formulas := b.formulas.insert a f
    formulas_onSheet _ member := onSheet_of_insert b.formulas_onSheet here member }

def defineName (b : Workbook) (unit name : String) (target : Reference) : Workbook :=
  { b with names := b.names.insert ⟨unit, Text.asciiUpper name⟩ target }

def renameSheet (b : Workbook) (unit sheet name : String) : Workbook :=
  if b.sheets.contains ⟨unit, sheet⟩ then b.addSheet unit sheet name else b

def writeBack (b : Workbook) (a : Address) (v : Value) : Workbook :=
  let here := b.onSheet_mem_ensureSheet a
  let b := b.ensureSheet a
  { b with
    values := b.values.insert a v
    values_onSheet _ member := onSheet_of_insert b.values_onSheet here member }

/-! ### Evaluating over a workbook -/

/-- The view of a workbook in which cells have the given values. -/
def viewWith (b : Workbook) (value : Address → Value) (lib : Library) (now : Float)
    (seed : UInt64) : View where
  value
  sheetId? := b.sheetId?
  definedName? := b.definedName?
  function? := lib.get?
  now
  seed

/-- The view of a workbook as it is stored. -/
def view (b : Workbook) (lib : Library) (now : Float) (seed : UInt64) : View :=
  b.viewWith b.value lib now seed

end Workbook

end Recalc
