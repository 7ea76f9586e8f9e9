/-!
# Rectangular blocks

A block holds elements in row-major order. `WellShaped` says that it has at least one row and one
column and exactly as many elements as its shape asks for; every constructor in this module keeps
it.
-/

namespace Recalc

/-- A rectangle of elements in row-major order. -/
structure Block (α : Type u) where
  rows : Nat
  cols : Nat
  cells : Array α
deriving Repr

inductive BlockError where
  | emptyBlock
  | ragged (row expected found : Nat)
  | shapeMismatch (rows cols count : Nat)
deriving DecidableEq, Repr

def BlockError.message : BlockError → String
  | emptyBlock => "array must have at least one row and column"
  | ragged row expected found => s!"row {row} has {found} columns, expected {expected}"
  | shapeMismatch rows cols count => s!"{count} cells cannot fill a {rows}x{cols} array"

namespace Block

variable {α : Type u} {β : Type v}

/-- At least one row and column, and an element for every position. -/
def WellShaped (b : Block α) : Prop :=
  0 < b.rows ∧ 0 < b.cols ∧ b.cells.size = b.rows * b.cols

instance (b : Block α) : Decidable b.WellShaped :=
  inferInstanceAs (Decidable (_ ∧ _ ∧ _))

/-- The first row whose length differs from `cols`, with its index. -/
def firstRagged (cols : Nat) : Nat → List (List α) → Option (Nat × Nat)
  | _, [] => none
  | i, row :: rest =>
    if row.length = cols then firstRagged cols (i + 1) rest else some (i, row.length)

/-- A block from its rows, which must be non-empty and equally long. -/
def ofRows (rows : List (List α)) : Except BlockError (Block α) :=
  let cols := (rows.headD []).length
  if cols = 0 then .error .emptyBlock
  else
    match firstRagged cols 0 rows with
    | some (row, found) => .error (.ragged row cols found)
    | none => .ok ⟨rows.length, cols, rows.flatten.toArray⟩

/-- A block from its shape and its elements in row-major order. -/
def ofShape (rows cols : Nat) (cells : Array α) : Except BlockError (Block α) :=
  if rows = 0 ∨ cols = 0 then .error .emptyBlock
  else if cells.size = rows * cols then .ok ⟨rows, cols, cells⟩
  else .error (.shapeMismatch rows cols cells.size)

/-- The block whose element at each position is given by `f`. -/
def ofFn (rows cols : Nat) (f : Nat → Nat → α) : Block α :=
  ⟨rows, cols, Array.ofFn fun k : Fin (rows * cols) => f (k / cols) (k % cols)⟩

def single (a : α) : Block α :=
  ⟨1, 1, #[a]⟩

def isSingle (b : Block α) : Bool :=
  b.rows == 1 && b.cols == 1

/-- The element at a position, counted from zero. -/
def get? (b : Block α) (row col : Nat) : Option α :=
  if row < b.rows ∧ col < b.cols then b.cells[row * b.cols + col]? else none

def only? (b : Block α) : Option α :=
  if b.isSingle then b.cells[0]? else none

def map (f : α → β) (b : Block α) : Block β :=
  ⟨b.rows, b.cols, b.cells.map f⟩

def toList (b : Block α) : List α :=
  b.cells.toList

/-- Cuts a row-major list into rows. -/
def chunks (cols : Nat) : Nat → List α → List (List α)
  | 0, _ => []
  | rows + 1, xs => xs.take cols :: chunks cols rows (xs.drop cols)

def toRows (b : Block α) : List (List α) :=
  chunks b.cols b.rows b.toList

theorem wellShaped_single (a : α) : (single a).WellShaped := by
  simp [WellShaped, single]

theorem WellShaped.map {b : Block α} (h : b.WellShaped) (f : α → β) : (b.map f).WellShaped := by
  simpa [WellShaped, Block.map] using h

theorem wellShaped_ofFn {rows cols : Nat} (hr : 0 < rows) (hc : 0 < cols) (f : Nat → Nat → α) :
    (ofFn rows cols f).WellShaped := by
  simp [WellShaped, ofFn, hr, hc]

theorem ofShape_ofFn {rows cols : Nat} (hr : 0 < rows) (hc : 0 < cols) (f : Nat → Nat → α) :
    ofShape rows cols (ofFn rows cols f).cells = .ok (ofFn rows cols f) := by
  simp [ofShape, ofFn, Nat.ne_of_gt hr, Nat.ne_of_gt hc]

theorem wellShaped_of_ofShape {rows cols : Nat} {cells : Array α} {b : Block α}
    (h : ofShape rows cols cells = .ok b) : b.WellShaped := by
  unfold ofShape at h
  split at h
  · cases h
  · next nonempty =>
    split at h
    · next fits =>
      cases h
      simp only [WellShaped]
      omega
    · cases h

end Block

end Recalc
