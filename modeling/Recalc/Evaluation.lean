import Recalc.Broadcast
import Recalc.Formula
import Recalc.Function.Basic
import Recalc.Operator
import Recalc.RandomStream

/-!
# Evaluation of formulas

A formula is evaluated for the cell that holds it, over a view of everything it may read: cell
values, sheets by display name, defined names, functions, the clock and the random seed. The result
is a value or a fault; a fault says that the tree has no value at all, not even an error value.
-/

namespace Recalc

structure View where
  value : Address → Value
  sheetId? : String → String → Option String
  definedName? : String → String → Option Reference
  function? : String → Option Function
  now : Float
  seed : UInt64

/-- Why a formula has no value. -/
inductive Fault where
  | unknownFunction (name : String)
  | malformedArray (e : BlockError)
  | invalidRange (e : InvertedRectangle)
deriving DecidableEq, Repr

namespace Fault

def message : Fault → String
  | unknownFunction name => "unknown function `" ++ name ++ "`"
  | malformedArray e => "malformed array literal: " ++ e.message
  | invalidRange e => "invalid range reference: " ++ e.message

/-- The value that the readers of a formula with a fault see. -/
def marker (f : Fault) : Value :=
  Value.complain (.unevaluable f.message)

end Fault

/-- A computation that counts the random samples drawn and may end in a fault. -/
abbrev Evaluation (α : Type) :=
  StateT Nat (Except Fault) α

namespace Place

/-- The unit and sheet of a place, seen from a cell. -/
def locate (p : Place) (view : View) (home : Address) : Outcome (String × String) :=
  let unit := p.unit.getD home.unit
  match p.sheet with
  | none => .ok (unit, home.sheet)
  | some (.id sheet) => .ok (unit, sheet)
  | some (.displayName name) =>
    match view.sheetId? unit name with
    | some sheet => .ok (unit, sheet)
    | none => complain (.unknownSheet name)

end Place

namespace Region

/-- The values of a region, whose rectangle must not be inverted. -/
def values (g : Region) (value : Address → Value) : Block Value :=
  let r := g.rectangle
  Block.ofFn r.height r.width fun row col =>
    value ⟨g.unit, g.sheet, r.startRow + row, r.startCol + col⟩

end Region

namespace Reference

/-- The value of a reference to cells; `none` for a name. -/
def direct? (ref : Reference) (view : View) (home : Address) : Option (Except Fault Value) :=
  match ref with
  | .cell place row col =>
    some <| .ok <| match place.locate view home with
      | .ok (unit, sheet) => view.value ⟨unit, sheet, row, col⟩
      | .error e => .error e
  | .range place rectangle =>
    some <| match rectangle.check with
      | .error e => .error (.invalidRange e)
      | .ok r => .ok <| match place.locate view home with
        | .ok (unit, sheet) => .array (Region.values ⟨unit, sheet, r⟩ view.value)
        | .error e => .error e
  | .name _ => none

/-- The value of a reference. A name stands for cells; one that is unknown, or that stands for
another name, is an error. -/
def evaluate (ref : Reference) (view : View) (home : Address) : Except Fault Value :=
  match ref with
  | .name n =>
    let target := (view.definedName? home.unit n).bind fun target => target.direct? view home
    target.getD (.ok (Value.complain (.unknownName n)))
  | ref => (ref.direct? view home).getD (.ok .blank)

end Reference

namespace Formula

/-- What an element of an array literal contributes: blocks do not nest. -/
def arrayElement (v : Value) : Value :=
  match v.unwrapSingle with
  | .array _ => Value.complain .nestedArray
  | scalar => scalar

/-- The values of an array literal as a block. -/
def arrayOfRows (rows : List (List Value)) : Except Fault Value :=
  match Block.ofRows rows with
  | .ok b => .ok (.array b)
  | .error e => .error (.malformedArray e)

mutual

/-- The value of a tree. Operands and arguments are evaluated from left to right; a function is
looked up before its arguments are. -/
def evaluate (view : View) (home : Address) : Formula → Evaluation Value
  | literal v => return v
  | reference r => r.evaluate view home
  | unary op x => do
    let v ← x.evaluate view home
    return v.mapElements op.apply
  | binary op l r => do
    let a ← l.evaluate view home
    let b ← r.evaluate view home
    return Value.broadcast op.apply a b
  | call name args => do
    match view.function? name with
    | none => throw (.unknownFunction (Text.asciiUpper name))
    | some f =>
      let values ← evaluateList view home args
      let ambient : Ambient := ⟨view.now, RandomStream.sample view.seed home⟩
      modifyGet fun drawn => f.call ambient drawn values
  | array rows => do
    let values ← evaluateRows view home rows
    arrayOfRows values

def evaluateList (view : View) (home : Address) : List Formula → Evaluation (List Value)
  | [] => return []
  | x :: rest => do
    let v ← x.evaluate view home
    let vs ← evaluateList view home rest
    return v :: vs

def evaluateRows (view : View) (home : Address) :
    List (List Formula) → Evaluation (List (List Value))
  | [] => return []
  | row :: rest => do
    let vs ← evaluateList view home row
    let others ← evaluateRows view home rest
    return vs.map arrayElement :: others

end

/-- The value of a tree by itself. -/
def value (x : Formula) (view : View) (home : Address) : Except Fault Value :=
  (x.evaluate view home).run' 0

/-- The value that a cell takes from its formula. -/
def cellValue (x : Formula) (view : View) (home : Address) : Except Fault Value :=
  (x.value view home).map Value.toResult

end Formula

end Recalc
