import Recalc.Proofs.Contents
import Recalc.Proofs.Kinds

/-!
# Finite numbers

A formula can meet a number that is not finite: the clock may be one, and operators and functions
overflow. None is ever delivered, not even inside a block, if none is stored or written in a formula
(`Session.finite_actAll`).
-/
namespace Recalc

namespace Value

mutual

/-- The numbers in a value, also those in blocks inside blocks. -/
def numbers : Value → List Float
  | number x => [x]
  | array ⟨_, _, ⟨cells⟩⟩ => numbersOfEach cells
  | _ => []

def numbersOfEach : List Value → List Float
  | [] => []
  | v :: rest => v.numbers ++ numbersOfEach rest

end

/-- Whether all numbers in a value are finite, at whatever depth. -/
def Finite (v : Value) : Prop :=
  ∀ x ∈ v.numbers, x.isFinite = true

theorem mem_numbersOfEach {x : Float} {vs : List Value} :
    x ∈ numbersOfEach vs ↔ ∃ v ∈ vs, x ∈ v.numbers := by
  induction vs with
  | nil => simp [numbersOfEach]
  | cons v rest ih => simp [numbersOfEach, ih]

theorem finite_array_iff (b : Block Value) : (array b).Finite ↔ ∀ v ∈ b.toList, v.Finite := by
  have inside : ∀ x, x ∈ (array b).numbers ↔ ∃ v ∈ b.toList, x ∈ v.numbers := fun x => by
    rw [numbers, mem_numbersOfEach]
    rfl
  simp only [Finite, inside]
  constructor
  · exact fun finite v listed x number => finite x ⟨v, listed, number⟩
  · rintro finite x ⟨v, listed, number⟩
    exact finite v listed x number

theorem Settled.finite {v : Value} (settled : v.Settled) : v.Finite := by
  cases v with
  | number x => simpa [Finite, numbers, Settled] using settled
  | array b => exact settled.elim
  | _ => simp [Finite, numbers]

end Value

/-- Values all of whose numbers are finite: a block is one if its elements are. -/
def ValueKind.finite : ValueKind where
  holds := Value.Finite
  element := Value.Finite
  array_iff := Value.finite_array_iff
  single_iff _ _ := Iff.rfl
  holds_of_element _ := id
  element_of_settled _ := Value.Settled.finite

/-- Formulas without an infinite literal compute finite numbers from finite numbers. -/
theorem Workbook.preserves_finite {b : Workbook}
    (literals : ∀ a f, b.formula? a = some f → ∀ v, .literal v ∈ f.tree.subtrees → v.Finite) :
    b.Preserves .standard fun _ v => v.Finite where
  error _ _ := Value.Settled.finite trivial
  computed a f formula value finite now seed v gives := by
    refine ValueKind.finite.holds_of_cellValue (fun _ _ => Library.makesNoBlock) ?_ finite ?_ gives
    · exact literals a f formula
    · exact fun _ _ c _ => finite c

namespace Session

/-- If all stored numbers and all numbers in literals are finite, so are all numbers that passes
deliver and all that are stored when results have been written back: with any clock, seed and
request, whether cycles are iterated or not, and wherever the passes are interrupted. -/
theorem finite_actAll (book : Workbook) (stored : ∀ a, (book.value a).Finite)
    (literals : ∀ a f, book.formula? a = some f → ∀ v, .literal v ∈ f.tree.subtrees → v.Finite)
    {actions : List Action} (recalculates : ∀ action ∈ actions, action.Recalculates .standard) :
    let s := (opened book).actAll actions
    (∀ r ∈ s.delivered, ∀ x ∈ r.cells, x.2.Finite) ∧ ∀ a, (s.book.value a).Finite := by
  intro s
  have held := holds_actAll (Workbook.preserves_finite literals) stored recalculates
  exact ⟨fun r given x listed => (held.delivered r given x listed).2, held.stored⟩

/-- A clock that shows no number, read inside a block: what the first pass delivers holds no such
number. The second pass is interrupted before it delivers anything. -/
theorem finite_of_broken_clock :
    let e : Engine := ⟨⟨false, 1, 256, 100, true, 0, 0.0 / 0.0⟩, .standard⟩
    let here : Address := ⟨"u", "s", 0, 0⟩
    let book := Workbook.empty.setFormula here ⟨.array [[.call "NOW" [], .literal (.boolean true)]], []⟩
    let s := (opened book).actAll [.calculate e .full [], .apply 0, .calculate e .empty [.stop]]
    s.delivered.map Results.count = [1, 0] ∧
      (∀ r ∈ s.delivered, ∀ x ∈ r.cells, x.2.Finite) ∧ ∀ a, (s.book.value a).Finite := by
  intro e here book
  refine ⟨by decide +kernel, ?_⟩
  refine finite_actAll book (fun a => ?_) (fun a f formula v written => ?_) ?_
  · simp [book, Workbook.value, Workbook.setFormula, Workbook.ensureSheet, Workbook.empty,
      Value.Finite, Value.numbers]
  · simp [book, Workbook.formula?, Workbook.setFormula, Workbook.ensureSheet, Workbook.empty,
      SortedMap.getElem?_insert] at formula
    obtain ⟨-, rfl⟩ := formula
    simp [Formula.subtrees, Formula.subtreesOfRows, Formula.subtreesOfList] at written
    exact written ▸ Value.Settled.finite trivial
  · simp [Action.Recalculates, e]

end Session

end Recalc
