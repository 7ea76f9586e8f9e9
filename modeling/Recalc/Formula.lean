import Recalc.Address
import Recalc.Value

/-!
# Formulas

A formula is a tree of literals, references, operators, calls and array literals. A reference may
leave out its unit and its sheet, which are then those of the cell that holds the formula, and may
give a sheet by id or by display name.
-/

namespace Recalc

/-- How a reference gives its sheet. -/
inductive SheetRef where
  | id (sheet : String)
  | displayName (name : String)
deriving DecidableEq, Repr

/-- Where a reference points, relative to the cell that holds it. -/
structure Place where
  unit : Option String
  sheet : Option SheetRef
deriving DecidableEq, Repr

/-- A reference to a cell, to a range of cells or to a defined name. -/
inductive Reference where
  | cell (place : Place) (row col : Nat)
  | range (place : Place) (rectangle : Rectangle)
  | name (name : String)
deriving DecidableEq, Repr

def Place.display (p : Place) : String :=
  let unit := match p.unit with
    | some u => "[" ++ u ++ "]"
    | none => ""
  let sheet := match p.sheet with
    | some (.id s) => s ++ "!"
    | some (.displayName n) => "'" ++ n ++ "'!"
    | none => ""
  unit ++ sheet

def Reference.display : Reference → String
  | cell p row col => p.display ++ positionText row col
  | range p r =>
    p.display ++ positionText r.startRow r.startCol ++ ":" ++ positionText r.endRow r.endCol
  | name n => n

/-! ### Operators -/

inductive UnaryOp where
  | plus
  | minus
  | percent
deriving DecidableEq, Repr

inductive BinaryOp where
  | add
  | sub
  | mul
  | div
  | pow
  | concat
  | eq
  | ne
  | lt
  | le
  | gt
  | ge
deriving DecidableEq, Repr

def BinaryOp.sign : BinaryOp → String
  | add => "+"
  | sub => "-"
  | mul => "*"
  | div => "/"
  | pow => "^"
  | concat => "&"
  | eq => "="
  | ne => "<>"
  | lt => "<"
  | le => "<="
  | gt => ">"
  | ge => ">="

/-! ### Trees -/

inductive Formula where
  | literal (value : Value)
  | reference (ref : Reference)
  | unary (op : UnaryOp) (operand : Formula)
  | binary (op : BinaryOp) (left right : Formula)
  | call (function : String) (args : List Formula)
  | array (rows : List (List Formula))
deriving Inhabited

namespace Formula

mutual

/-- The tree and all trees inside it, each before its parts. -/
def subtrees : Formula → List Formula
  | literal v => [literal v]
  | reference r => [reference r]
  | unary op x => unary op x :: x.subtrees
  | binary op l r => binary op l r :: (l.subtrees ++ r.subtrees)
  | call f args => call f args :: subtreesOfList args
  | array rows => array rows :: subtreesOfRows rows

def subtreesOfList : List Formula → List Formula
  | [] => []
  | x :: rest => x.subtrees ++ subtreesOfList rest

def subtreesOfRows : List (List Formula) → List Formula
  | [] => []
  | row :: rest => subtreesOfList row ++ subtreesOfRows rest

end

/-- The references of a tree, in the order in which they are written. -/
def references (x : Formula) : List Reference :=
  x.subtrees.filterMap fun
    | reference r => some r
    | _ => none

/-- The names of the functions a tree calls, in the order in which they are written. -/
def functionNames (x : Formula) : List String :=
  x.subtrees.filterMap fun
    | call f _ => some f
    | _ => none

end Formula

/-! ### Formulas of cells -/

/-- A dependency on something other than cells, marked dirty under its key. -/
structure FeatureKey where
  unit : String
  sheet : String
  feature : String
deriving DecidableEq, Repr

/-- The formula of a cell, with the features it depends on beyond its references. -/
structure CellFormula where
  tree : Formula
  features : List FeatureKey
deriving Inhabited

namespace FeatureKey

instance : Ord FeatureKey where
  compare := compareLex (compareOn unit) (compareLex (compareOn sheet) (compareOn feature))

instance : Std.TransOrd FeatureKey :=
  inferInstanceAs (Std.TransCmp (compareLex _ (compareLex _ _)))

instance : Std.LawfulEqOrd FeatureKey where
  eq_of_compare {a b} h := by
    obtain ⟨u, h⟩ := compareLex_eq_eq.mp h
    obtain ⟨s, f⟩ := compareLex_eq_eq.mp h
    cases a
    cases b
    simp only [mk.injEq]
    exact ⟨Std.LawfulEqOrd.eq_of_compare u, Std.LawfulEqOrd.eq_of_compare s,
      Std.LawfulEqOrd.eq_of_compare f⟩

end FeatureKey

end Recalc
