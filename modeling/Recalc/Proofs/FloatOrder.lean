import Recalc.Proofs.Distance

/-!
# The order of floats

Floats that are no NaN stand in one row, the two zeros at the same place. The comparison of floats
reads their components in turn, so the row is that of `Standing`, where all laws of an order hold
because they hold of integers (`lt_iff`).
-/
namespace Recalc.Number

open Float.Model

/-- A place in the row of floats. Infinities and signs decide first, exponents and mantissas of
negative floats count backwards. -/
structure Standing where
  tier : Int
  exponent : Int
  mantissa : Int

namespace Standing

instance : Ord Standing where
  compare := compareLex (compareOn tier) (compareLex (compareOn exponent) (compareOn mantissa))

instance : Std.TransOrd Standing :=
  inferInstanceAs (Std.TransCmp (compareLex _ (compareLex _ _)))

theorem compare_eq (a b : Standing) : compare a b =
    (compare a.tier b.tier).then
      ((compare a.exponent b.exponent).then (compare a.mantissa b.mantissa)) :=
  rfl

theorem compare_neg (m n : Int) : compare (-m) (-n) = (compare m n).swap := by
  simp only [compare, compareOfLessAndEq, Ordering.swap]
  grind

theorem compare_natCast (m n : Nat) : compare (m : Int) n = compare m n := by
  simp only [compare, compareOfLessAndEq]
  grind

/-- The place of a float; a NaN has none and is put beside the zeros. -/
def ofUnpacked : UnpackedFloat → Standing
  | .infinity .negative => ⟨-2, 0, 0⟩
  | .finite .negative m e _ => ⟨-1, -e, -m⟩
  | .zero _ => ⟨0, 0, 0⟩
  | .finite .positive m e _ => ⟨1, e, m⟩
  | .infinity .positive => ⟨2, 0, 0⟩
  | .notANumber => ⟨0, 0, 0⟩

def of (x : Float) : Standing :=
  ofUnpacked x.toModel.unpack

theorem compare_ofUnpacked {u w : UnpackedFloat} (number : u.isNaN = false)
    (number' : w.isNaN = false) :
    u.compare w = some (compare (ofUnpacked u) (ofUnpacked w)) := by
  cases u with
  | notANumber => cases number
  | infinity s => cases w with
    | notANumber => cases number'
    | infinity t => cases s <;> cases t <;> rfl
    | zero t => cases s <;> rfl
    | finite t m e pos => cases s <;> cases t <;> rfl
  | zero s => cases w with
    | notANumber => cases number'
    | infinity t => cases t <;> rfl
    | zero t => rfl
    | finite t m e pos => cases t <;> rfl
  | finite s m e pos => cases w with
    | notANumber => cases number'
    | infinity t => cases s <;> cases t <;> rfl
    | zero t => cases s <;> rfl
    | finite t n f pos' =>
      cases s <;> cases t
      · simp [UnpackedFloat.compare, ofUnpacked, compare_eq, compare_neg, compare_natCast,
          Ordering.swap_then]
      · rfl
      · rfl
      · simp [UnpackedFloat.compare, ofUnpacked, compare_eq, compare_natCast]

/-- Floats compare as their places do. -/
theorem lt_iff {x y : Float} (number : x.isNaN = false) (number' : y.isNaN = false) :
    x < y ↔ compare (of x) (of y) = .lt := by
  have compares := compare_ofUnpacked (u := x.toModel.unpack) (w := y.toModel.unpack) number number'
  have same : x < y ↔ (x.toModel.unpack.compare y.toModel.unpack == some .lt) = true := by
    show decide (x.toModel < y.toModel) = true ↔ _
    rw [decide_eq_true_iff]
    rfl
  rw [same, compares]
  simp [of]

end Standing

end Recalc.Number
