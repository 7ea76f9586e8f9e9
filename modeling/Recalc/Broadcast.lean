import Recalc.Value

/-!
# Element-wise application

An operator applied to blocks works position by position. The result has the larger extent of the
operands along each axis; an operand of extent one repeats along that axis, and a position that an
operand does not reach is an error.
-/

namespace Recalc

structure Shape where
  rows : Nat
  cols : Nat
deriving DecidableEq, Repr

namespace Shape

def one : Shape :=
  ⟨1, 1⟩

def join (s t : Shape) : Shape :=
  ⟨max s.rows t.rows, max s.cols t.cols⟩

/-- The larger extent of all shapes along each axis, at least one. -/
def joinAll (shapes : List Shape) : Shape :=
  shapes.foldl join one

theorem pos_joinAll (shapes : List Shape) :
    0 < (joinAll shapes).rows ∧ 0 < (joinAll shapes).cols := by
  have grows : ∀ s : Shape, 0 < s.rows ∧ 0 < s.cols →
      0 < (shapes.foldl join s).rows ∧ 0 < (shapes.foldl join s).cols := by
    induction shapes with
    | nil => exact fun s pos => pos
    | cons t rest ih =>
      intro s pos
      refine ih (s.join t) ?_
      simp only [join]
      omega
  exact grows one ⟨Nat.one_pos, Nat.one_pos⟩

/-- The index of an operand of some extent for a position along one axis. -/
def projectAxis (extent index : Nat) : Option Nat :=
  if extent = 1 then some 0 else if index < extent then some index else none

/-- The position of an operand that stands for a position of the result. -/
def project? (s : Shape) (row col : Nat) : Option (Nat × Nat) :=
  match projectAxis s.rows row, projectAxis s.cols col with
  | some r, some c => some (r, c)
  | _, _ => none

end Shape

namespace Value

/-- The shape of a value, a scalar having one row and column. -/
def shape : Value → Shape
  | array b => ⟨b.rows, b.cols⟩
  | _ => .one

/-- What an operand contributes to a position of the result. -/
def contribution (v : Value) (row col : Nat) : Value :=
  match v.shape.project? row col, v with
  | some (r, c), array b => (b.get? r c).getD .blank
  | some _, scalar => scalar
  | none, _ => complain .incompatibleShapes

/-- Applies `f` unless an operand is an error; the left one goes first. -/
def applyUnlessError (f : Value → Value → Value) (l r : Value) : Value :=
  if l.isError then l else if r.isError then r else f l r

/-- Applies `f` to a scalar, or to every element of a block. -/
def mapElements (f : Value → Value) : Value → Value
  | array b => array (b.map f)
  | scalar => f scalar

/-- The block with `f` at each position. A block that `Block.ofShape` refuses is an error. -/
def tabulate (s : Shape) (f : Nat → Nat → Value) : Value :=
  match Block.ofShape s.rows s.cols (Block.ofFn s.rows s.cols f).cells with
  | .ok b => array b
  | .error e => error ⟨.value, some e.message⟩

/-- Applies `f` to two scalars, or position by position if an operand is a block. -/
def broadcast (f : Value → Value → Value) (l r : Value) : Value :=
  if l.isArray || r.isArray then
    tabulate (.joinAll [l.shape, r.shape]) fun row col =>
      applyUnlessError f (l.contribution row col) (r.contribution row col)
  else f l r

/-- Nothing is refused that has a row and a column. -/
theorem tabulate_eq {s : Shape} (rows : 0 < s.rows) (cols : 0 < s.cols) (f : Nat → Nat → Value) :
    tabulate s f = array (Block.ofFn s.rows s.cols f) := by
  simp [tabulate, Block.ofShape_ofFn rows cols]

theorem broadcast_eq (f : Value → Value → Value) (l r : Value) :
    broadcast f l r =
      if l.isArray || r.isArray then
        let s := Shape.joinAll [l.shape, r.shape]
        array (Block.ofFn s.rows s.cols fun row col =>
          applyUnlessError f (l.contribution row col) (r.contribution row col))
      else f l r := by
  have size := Shape.pos_joinAll [l.shape, r.shape]
  simp only [broadcast, tabulate_eq size.1 size.2]

end Value

end Recalc
