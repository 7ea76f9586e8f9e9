import Recalc.Evaluation
import Recalc.Proofs.Returns

/-!
# Operators on blocks

A binary operator of which an operand is a block makes a block, whose extents are the larger ones of
the operands. `Contributes` says what an operand has at a position and `Combines` what becomes of two
such contributions; the block holds at each position what these two say (`Formula.binary_pointwise`).
-/
namespace Recalc

namespace Block

variable {α : Type}

theorem get?_ofFn {rows cols row col : Nat} (low : row < rows) (left : col < cols)
    (f : Nat → Nat → α) : (ofFn rows cols f).get? row col = some (f row col) := by
  have wide : 0 < cols := Nat.zero_lt_of_lt left
  have inside : row * cols + col < rows * cols := calc
    row * cols + col < (row + 1) * cols := by rw [Nat.succ_mul]; omega
    _ ≤ rows * cols := Nat.mul_le_mul_right cols low
  have quotient : (row * cols + col) / cols = row := by
    rw [Nat.add_comm, Nat.add_mul_div_right _ _ wide, Nat.div_eq_of_lt left, Nat.zero_add]
  have remainder : (row * cols + col) % cols = col := by
    rw [Nat.mul_add_mod_self_right, Nat.mod_eq_of_lt left]
  simp [get?, ofFn, low, left, inside, quotient, remainder]

theorem WellShaped.exists_get? {b : Block α} (shaped : b.WellShaped) {row col : Nat}
    (low : row < b.rows) (left : col < b.cols) : ∃ x, b.get? row col = some x := by
  have inside : row * b.cols + col < b.cells.size := calc
    row * b.cols + col < (row + 1) * b.cols := by rw [Nat.succ_mul]; omega
    _ ≤ b.rows * b.cols := Nat.mul_le_mul_right b.cols low
    _ = b.cells.size := shaped.2.2.symm
  simp [get?, low, left, inside]

end Block

namespace Value

/-- Whether a value is single or a block with an element for every position. -/
def Rectangular (v : Value) : Prop :=
  ∀ b, v = array b → b.WellShaped

theorem rectangular_array {b : Block Value} (shaped : b.WellShaped) : (array b).Rectangular := by
  rintro _ ⟨⟩
  exact shaped

/-- The index of an operand for an index of the result: an operand of extent one repeats. -/
def repeated (extent index : Nat) : Nat :=
  if extent = 1 then 0 else index

/-- What an operand contributes to a position: a single value itself, a block its element there, and
`#VALUE!` if it does not reach so far. -/
inductive Contributes (row col : Nat) : Value → Value → Prop where
  | single {v : Value} (single : v.Single) : Contributes row col v v
  | element {b : Block Value} {x : Value}
    (found : b.get? (repeated b.rows row) (repeated b.cols col) = some x) :
    Contributes row col (array b) x
  | beyond {b : Block Value}
    (outside : b.rows ≤ repeated b.rows row ∨ b.cols ≤ repeated b.cols col) :
    Contributes row col (array b) (complain .incompatibleShapes)

/-- What becomes of two contributions: the left one if it is an error, else the right one if that is
one, else what `f` makes of both. -/
inductive Combines (f : Value → Value → Value) : Value → Value → Value → Prop where
  | left (e : CellError) (y : Value) : Combines f (error e) y (error e)
  | right {x : Value} (proper : x.isError = false) (e : CellError) :
    Combines f x (error e) (error e)
  | both {x y : Value} (proper : x.isError = false) (proper' : y.isError = false) :
    Combines f x y (f x y)

/-- An operand contributes one thing to a position. -/
theorem Contributes.unique {row col : Nat} {v p q : Value} (first : Contributes row col v p)
    (second : Contributes row col v q) : p = q := by
  have inside : ∀ {b : Block Value} {i j : Nat} {x : Value}, b.get? i j = some x →
      i < b.rows ∧ j < b.cols := by
    intro b i j x found
    unfold Block.get? at found
    split at found
    next inside => exact inside
    next => cases found
  cases first with
  | single single =>
    cases second with
    | single => rfl
    | element | beyond => cases single
  | element found =>
    cases second with
    | single single => cases single
    | element found' => exact Option.some.inj (found.symm.trans found')
    | beyond outside =>
      have := inside found
      omega
  | beyond outside =>
    cases second with
    | single single => cases single
    | element found =>
      have := inside found
      omega
    | beyond => rfl

theorem projectAxis_eq (extent index : Nat) :
    Shape.projectAxis extent index =
      if repeated extent index < extent then some (repeated extent index) else none := by
  by_cases one : extent = 1 <;> simp [Shape.projectAxis, repeated, one]

theorem contributes_contribution {v : Value} (rectangular : v.Rectangular) (row col : Nat) :
    Contributes row col v (v.contribution row col) := by
  cases v with
  | array b =>
    simp only [contribution, shape, Shape.project?, projectAxis_eq]
    by_cases low : repeated b.rows row < b.rows
    · by_cases left : repeated b.cols col < b.cols
      · obtain ⟨x, found⟩ := (rectangular b rfl).exists_get? low left
        simpa [low, left, found] using Contributes.element found
      · simpa [low, left] using Contributes.beyond (.inr (Nat.not_lt.mp left))
    · simpa [low] using Contributes.beyond (.inl (Nat.not_lt.mp low))
  | _ => exact .single rfl

theorem combines_applyUnlessError (f : Value → Value → Value) (x y : Value) :
    Combines f x y (applyUnlessError f x y) := by
  unfold applyUnlessError
  split
  next isError =>
    cases x with
    | error e => exact .left e y
    | _ => cases isError
  next proper =>
    split
    next isError =>
      cases y with
      | error e => exact .right (by simpa using proper) e
      | _ => cases isError
    next proper' => exact .both (by simpa using proper) (by simpa using proper')

theorem Rectangular.pos_shape {v : Value} (rectangular : v.Rectangular) :
    0 < v.shape.rows ∧ 0 < v.shape.cols := by
  cases v with
  | array b => exact ⟨(rectangular b rfl).1, (rectangular b rfl).2.1⟩
  | _ => exact ⟨Nat.one_pos, Nat.one_pos⟩

/-- No extent is smaller than that of a scalar, so only the operands count. -/
theorem joinAll_shapes {l r : Value} (rectangular : l.Rectangular) :
    Shape.joinAll [l.shape, r.shape] = l.shape.join r.shape := by
  have size := rectangular.pos_shape
  simp only [Shape.joinAll, Shape.join, Shape.one, List.foldl_cons, List.foldl_nil]
  rw [Nat.max_eq_right (Nat.succ_le_of_lt size.1), Nat.max_eq_right (Nat.succ_le_of_lt size.2)]

end Value

namespace Formula

open Value

variable {view : View} {home : Address} {x y : Formula} {l r : Value} {drawn first second : Nat}

theorem evaluate_binary (left : x.evaluate view home drawn = .ok (l, first))
    (right : y.evaluate view home first = .ok (r, second)) (op : BinaryOp) :
    (Formula.binary op x y).evaluate view home drawn =
      .ok (broadcast op.apply l r, second) := by
  simp only [evaluate, bind, StateT.bind, Except.bind, left, right]
  rfl

/-- The value of a binary operator. Two scalars give what the operator makes of them. If an operand is
a block, so is the result, which is never refused for its shape: it has the larger extents of both,
and at every position it holds what the operator makes of what the operands contribute to it. -/
theorem binary_pointwise (left : x.evaluate view home drawn = .ok (l, first))
    (right : y.evaluate view home first = .ok (r, second)) (rectangular : l.Rectangular)
    (rectangular' : r.Rectangular) (op : BinaryOp) :
    ∃ v, (Formula.binary op x y).evaluate view home drawn = .ok (v, second) ∧
      (l.isArray = false ∧ r.isArray = false → v = op.apply l r) ∧
      (l.isArray = true ∨ r.isArray = true → ∃ b, v = .array b ∧ b.WellShaped ∧
        b.rows = max l.shape.rows r.shape.rows ∧ b.cols = max l.shape.cols r.shape.cols ∧
        ∀ row < b.rows, ∀ col < b.cols, ∃ p q z, Contributes row col l p ∧ Contributes row col r q ∧
          Combines op.apply p q z ∧ b.get? row col = some z) := by
  refine ⟨broadcast op.apply l r, evaluate_binary left right op, fun scalars => ?_, fun block => ?_⟩
  · simp [broadcast_eq, scalars]
  · have size := rectangular.pos_shape
    have size' := rectangular'.pos_shape
    have any : (l.isArray || r.isArray) = true := by simpa using block
    refine ⟨_, by rw [broadcast_eq, if_pos any, joinAll_shapes rectangular], ?_, rfl, rfl, ?_⟩
    · refine Block.wellShaped_ofFn ?_ ?_ _ <;> simp only [Shape.join] <;> omega
    · intro row low col left
      exact ⟨_, _, _, contributes_contribution rectangular row col,
        contributes_contribution rectangular' row col, combines_applyUnlessError _ _ _,
        Block.get?_ofFn low left _⟩

/-- A square block, and a row that is longer than those of the square. -/
def square : Block Value :=
  ⟨2, 2, #[.number 1, .number 2, .number 3, .text "x"]⟩

def longRow : Block Value :=
  ⟨1, 3, #[.number 10, .blank, .number 30]⟩

/-- The row is added to both rows of the square, which has nothing in the third column. -/
theorem square_plus_row_pointwise :
    let view : View := ⟨fun _ => .blank, fun _ _ => none, fun _ _ => none, fun _ => none, 0, 0⟩
    ∃ b, (Formula.binary .add (.literal (.array square)) (.literal (.array longRow))).evaluate view
        ⟨"u", "s", 0, 0⟩ 0 = .ok (.array b, 0) ∧ b.rows = 2 ∧ b.cols = 3 ∧
      b.get? 1 2 = some (Value.complain .incompatibleShapes) := by
  intro view
  have shaped : square.WellShaped ∧ longRow.WellShaped := by decide
  have operand : ∀ v, (Formula.literal v).evaluate view ⟨"u", "s", 0, 0⟩ 0 = .ok (v, 0) :=
    fun _ => rfl
  obtain ⟨_, value, -, pointwise⟩ := binary_pointwise (operand (.array square))
    (operand (.array longRow)) (rectangular_array shaped.1) (rectangular_array shaped.2) .add
  obtain ⟨b, rfl, -, rows, cols, each⟩ := pointwise (.inl rfl)
  have rows : b.rows = 2 := rows
  have cols : b.cols = 3 := cols
  obtain ⟨p, q, z, left, -, combined, found⟩ := each 1 (by omega) 2 (by omega)
  obtain rfl := left.unique (.beyond (.inr (by decide)))
  refine ⟨b, value, rows, cols, ?_⟩
  cases combined with
  | left => exact found
  | right proper => cases proper
  | both proper => cases proper

end Formula

end Recalc
