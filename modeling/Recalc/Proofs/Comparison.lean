import Recalc.Proofs.Bare
import Recalc.Proofs.FloatOrder

/-!
# Comparison operators

Values that are neither errors nor blocks nor a NaN are compared by a key: numbers before texts before
Booleans, texts without their case. So the six operators answer with one order between them, and on
values other than the blank that order is a total preorder. A blank has no key of its own but takes
that of a zero (`BinaryOp.comparisons_coherent`).
-/
namespace Recalc

namespace Value

/-- Whether a value can be compared. -/
def Comparable : Value → Prop
  | number x => x.isNaN = false
  | error _ => False
  | array _ => False
  | _ => True

/-- Whether a value can be compared and is no blank. -/
def Ranked (v : Value) : Prop :=
  v.Comparable ∧ v ≠ .blank

/-- The zero value of the type of a value; the blank has that of numbers. -/
def zeroLike : Value → Value
  | text _ => text ""
  | boolean _ => boolean false
  | _ => number 0.0

/-- What the order of values reads, the kind of value first. -/
structure SortKey where
  kind : Nat
  number : Number.Standing
  text : String
  truth : Bool

namespace SortKey

instance : Ord SortKey where
  compare := compareLex (compareOn kind) (compareLex (compareOn number)
    (compareLex (compareOn text) (compareOn truth)))

instance : Std.TransOrd SortKey :=
  inferInstanceAs (Std.TransCmp (compareLex _ (compareLex _ (compareLex _ _))))

theorem compare_eq (a b : SortKey) : compare a b =
    (compare a.kind b.kind).then ((compare a.number b.number).then
      ((compare a.text b.text).then (compare a.truth b.truth))) :=
  rfl

end SortKey

def sortKey : Value → SortKey
  | number x => ⟨0, .of x, "", false⟩
  | text s => ⟨1, .of 0, Text.lower s, false⟩
  | boolean b => ⟨2, .of 0, "", b⟩
  | _ => ⟨0, .of 0, "", false⟩

theorem compareNumbers_eq {x y : Float} (number : x.isNaN = false) (number' : y.isNaN = false) :
    compareNumbers x y = compare (Number.Standing.of x) (Number.Standing.of y) := by
  have less := Number.Standing.lt_iff number number'
  have more := Number.Standing.lt_iff number' number
  rw [Std.OrientedOrd.eq_swap] at more
  simp only [compareNumbers, less, more]
  cases compare (Number.Standing.of x) (Number.Standing.of y) <;> simp

/-- Once blanks have been filled, values are in the order of their keys. -/
theorem order_eq {a b : Value} (comparable : a.Comparable) (comparable' : b.Comparable) :
    a.order b = compare (a.filledFor b).sortKey (b.filledFor a).sortKey := by
  have zero : (0.0 : Float).isNaN = false := by decide
  cases a <;> cases b <;>
    simp_all [Comparable, order, filledFor, sortKey, kindRank, SortKey.compare_eq, compareNumbers_eq]
  -- what is left are values of two kinds, and these are told apart by the kind alone
  all_goals rfl

theorem order_swap {a b : Value} (comparable : a.Comparable) (comparable' : b.Comparable) :
    a.order b = (b.order a).swap := by
  rw [order_eq comparable comparable', order_eq comparable' comparable, Std.OrientedOrd.eq_swap]

theorem Ranked.filledFor_eq {v : Value} (ranked : v.Ranked) (other : Value) :
    v.filledFor other = v := by
  cases v with
  | blank => exact absurd rfl ranked.2
  | _ => rfl

theorem Ranked.order_eq {a b : Value} (ranked : a.Ranked) (ranked' : b.Ranked) :
    a.order b = compare a.sortKey b.sortKey := by
  rw [Value.order_eq ranked.1 ranked'.1, ranked.filledFor_eq, ranked'.filledFor_eq]

end Value

namespace BinaryOp

open Value

/-- The operators that compare. -/
def comparisons : List BinaryOp :=
  [.eq, .ne, .lt, .le, .gt, .ge]

/-- Whether an operator answers TRUE. -/
def Holds (op : BinaryOp) (a b : Value) : Prop :=
  op.apply a b = .boolean true

/-- Which orders of its operands an operator accepts. -/
def accepts (op : BinaryOp) (o : Ordering) : Bool :=
  match op with
  | eq => o == .eq
  | ne => o != .eq
  | lt => o == .lt
  | le => o != .gt
  | gt => o == .gt
  | ge => o != .lt
  | _ => false

theorem apply_of_mem_comparisons {op : BinaryOp} (compares : op ∈ comparisons) {a b : Value}
    (comparable : a.Comparable) (comparable' : b.Comparable) :
    op.apply a b = .boolean (op.accepts (a.order b)) := by
  have proper : ∀ v : Value, v.Comparable → v.isError = false := by
    intro v comparable
    cases v <;> first | rfl | exact comparable.elim
  rw [apply_eq, applyUnlessError, proper a comparable, proper b comparable']
  cases op <;> first | rfl | exact absurd compares (by decide)

theorem holds_iff {op : BinaryOp} (compares : op ∈ comparisons) {a b : Value}
    (comparable : a.Comparable) (comparable' : b.Comparable) :
    op.Holds a b ↔ op.accepts (a.order b) = true := by
  simp [Holds, apply_of_mem_comparisons compares comparable comparable']

/-- How the answers of the operators for two values go together. -/
structure Coherent (a b : Value) : Prop where
  decided : ∀ op ∈ comparisons, ∃ p, op.apply a b = .boolean p
  one : ∃! op, op ∈ [lt, eq, gt] ∧ op.Holds a b
  ne_iff : ne.Holds a b ↔ ¬eq.Holds a b
  le_iff : le.Holds a b ↔ ¬gt.Holds a b
  ge_iff : ge.Holds a b ↔ ¬lt.Holds a b
  turned : lt.apply a b = gt.apply b a

theorem coherent_of_comparable {a b : Value} (comparable : a.Comparable)
    (comparable' : b.Comparable) : Coherent a b := by
  have answer : ∀ op ∈ comparisons, (op.Holds a b ↔ op.accepts (a.order b) = true) :=
    fun op compares => holds_iff compares comparable comparable'
  simp only [comparisons, List.forall_mem_cons] at answer
  obtain ⟨isEq, isNe, isLt, isLe, isGt, isGe, -⟩ := answer
  constructor
  case decided =>
    exact fun op compares => ⟨_, apply_of_mem_comparisons compares comparable comparable'⟩
  case one =>
    simp only [List.mem_cons, List.not_mem_nil, or_false]
    cases o : a.order b with
    | lt => exact ⟨lt, by simp [isLt, o, accepts], by simp [isLt, isEq, isGt, o, accepts]⟩
    | eq => exact ⟨eq, by simp [isEq, o, accepts], by simp [isLt, isEq, isGt, o, accepts]⟩
    | gt => exact ⟨gt, by simp [isGt, o, accepts], by simp [isLt, isEq, isGt, o, accepts]⟩
  case ne_iff => simp [isNe, isEq, accepts]
  case le_iff => simp [isLe, isGt, accepts]
  case ge_iff => simp [isGe, isLt, accepts]
  case turned =>
    rw [apply_of_mem_comparisons (by decide) comparable comparable',
      apply_of_mem_comparisons (by decide) comparable' comparable, order_swap comparable' comparable]
    cases a.order b <;> rfl

theorem le_holds_iff {a b : Value} (ranked : a.Ranked) (ranked' : b.Ranked) :
    le.Holds a b ↔ (compare a.sortKey b.sortKey).isLE = true := by
  rw [holds_iff (by decide) ranked.1 ranked'.1, ranked.order_eq ranked']
  cases compare a.sortKey b.sortKey <;> decide

/-- The comparison operators agree with one another on all values that can be compared; on those that
are no blank, `<=` is reflexive, total and transitive; and a blank is compared as the zero value of
the type of the other operand. -/
theorem comparisons_coherent :
    (∀ a b : Value, a.Comparable → b.Comparable → Coherent a b) ∧
      ((∀ a : Value, a.Ranked → le.Holds a a) ∧
        (∀ a b : Value, a.Ranked → b.Ranked → le.Holds a b ∨ le.Holds b a) ∧
        ∀ a b c : Value, a.Ranked → b.Ranked → c.Ranked → le.Holds a b → le.Holds b c →
          le.Holds a c) ∧
      ∀ op ∈ comparisons, ∀ v : Value, op.apply .blank v = op.apply v.zeroLike v ∧
        op.apply v .blank = op.apply v v.zeroLike := by
  refine ⟨fun a b => coherent_of_comparable, ⟨?reflexive, ?total, ?transitive⟩, ?blank⟩
  case reflexive =>
    intro a ranked
    rw [le_holds_iff ranked ranked]
    exact Std.ReflOrd.isLE_rfl
  case total =>
    intro a b ranked ranked'
    rw [le_holds_iff ranked ranked', le_holds_iff ranked' ranked, Std.OrientedOrd.eq_swap]
    cases compare b.sortKey a.sortKey <;> decide
  case transitive =>
    intro a b c first second third
    rw [le_holds_iff first second, le_holds_iff second third, le_holds_iff first third]
    exact Std.TransOrd.isLE_trans
  case blank =>
    intro op compares v
    cases op <;> first | exact absurd compares (by decide) | cases v <;> exact ⟨rfl, rfl⟩

/-- A number, and a text in two spellings that count as equal. -/
theorem spellings_in_order :
    Coherent (.text "aß") (.text "Aß") ∧ le.Holds (.number 2) (.text "Aß") := by
  obtain ⟨coherent, ⟨-, -, transitive⟩, -⟩ := comparisons_coherent
  have number : (Value.number 2).Ranked := ⟨(by decide : (2 : Float).isNaN = false), nofun⟩
  have text : ∀ s, (Value.text s).Ranked := fun s => ⟨trivial, nofun⟩
  have first : le.Holds (.number 2) (.text "aß") := rfl
  have second : le.Holds (.text "aß") (.text "Aß") := by
    rw [le_holds_iff (text _) (text _)]
    decide +kernel
  exact ⟨coherent _ _ trivial trivial, transitive _ _ _ number (text _) (text _) first second⟩

end BinaryOp

end Recalc
