import Mathlib.Algebra.Field.GeomSum
import Mathlib.Data.Rat.Floor
import Mathlib.Tactic.LinearCombination
import Recalc.Annuity

/-!
# Annuities over exact numbers

Over the rational numbers, a payment, a present and a future value are bound to each other by one
equation: the present value with its growth, the payments with theirs and the future value add up to
nothing (`Balanced`). Each of the three formulas treats loans without interest apart, and both cases
are one formula when the accumulation of payments is left as a sum. The formulas solve the equation
for one of its quantities each, so every one of them undoes the others (`values_invert`).
-/
namespace Recalc

/-- Exact arithmetic. Powers have whole exponents, others being rounded down to them. -/
instance : Quantity ℚ where
  zero := 0
  one := 1
  pow base exponent := base ^ ⌊exponent⌋
  less x y := x < y
  truncate x := if x < 0 then ⌈x⌉ else ⌊x⌋
  floor x := ⌊x⌋
  ceil x := ⌈x⌉

namespace Annuity

variable {rate amount present future : ℚ} {n : ℕ} {due : Due}

@[simp] theorem zero_eq : (Quantity.zero : ℚ) = 0 := rfl

@[simp] theorem one_eq : (Quantity.one : ℚ) = 1 := rfl

@[simp] theorem dueFactor_atEnd (rate : ℚ) : dueFactor rate .atEnd = 1 := by
  show 1 + rate * 0 = 1
  ring

@[simp] theorem dueFactor_atStart (rate : ℚ) : dueFactor rate .atStart = 1 + rate := by
  show 1 + rate * 1 = 1 + rate
  ring

theorem dueFactor_zero_rate (due : Due) : dueFactor (0 : ℚ) due = 1 := by
  cases due <;> simp

@[simp] theorem growth_natCast (rate : ℚ) (n : ℕ) : growth rate n = (1 + rate) ^ n := by
  show (1 + rate) ^ ⌊(n : ℚ)⌋ = (1 + rate) ^ n
  rw [Int.floor_natCast, zpow_natCast]

/-- What payments of one at the end of each period grow to. -/
def accumulation (rate : ℚ) (n : ℕ) : ℚ :=
  ∑ k ∈ Finset.range n, (1 + rate) ^ k

theorem accumulation_zero_rate (n : ℕ) : accumulation 0 n = n := by
  simp [accumulation]

theorem accumulation_of_ne_zero (accrues : rate ≠ 0) (n : ℕ) :
    accumulation rate n = ((1 + rate) ^ n - 1) / rate := by
  have base : 1 + rate ≠ 1 := by simpa using accrues
  rw [accumulation, geom_sum_eq base, add_sub_cancel_left]

theorem accumulation_ne_zero (pays : 1 ≤ n) (grows : rate ≠ 0 → (1 + rate) ^ n - 1 ≠ 0) :
    accumulation rate n ≠ 0 := by
  by_cases accrues : rate = 0
  · rw [accrues, accumulation_zero_rate]
    exact Nat.cast_ne_zero.mpr (Nat.ne_of_gt pays)
  · rw [accumulation_of_ne_zero accrues]
    exact div_ne_zero (grows accrues) accrues

/-! ### The formulas in one form -/

theorem futureValue_eq (rate amount present : ℚ) (n : ℕ) (due : Due) :
    futureValue rate n amount present due =
      -(present * (1 + rate) ^ n + amount * dueFactor rate due * accumulation rate n) := by
  by_cases accrues : rate = 0
  · simp [futureValue, accrues, accumulation_zero_rate, dueFactor_zero_rate]
  · simp only [futureValue, zero_eq, beq_iff_eq, accrues, if_false, growth_natCast, one_eq,
      accumulation_of_ne_zero accrues]
    ring

theorem presentValue_eq (rate amount future : ℚ) (n : ℕ) (due : Due) :
    presentValue rate n amount future due =
      -(future + amount * dueFactor rate due * accumulation rate n) / (1 + rate) ^ n := by
  by_cases accrues : rate = 0
  · simp [presentValue, accrues, accumulation_zero_rate, dueFactor_zero_rate]
  · simp only [presentValue, zero_eq, beq_iff_eq, accrues, if_false, growth_natCast, one_eq,
      accumulation_of_ne_zero accrues]
    ring

theorem payment_eq (rate present future : ℚ) (n : ℕ) (due : Due) :
    payment rate n present future due =
      -(present * (1 + rate) ^ n + future) / (dueFactor rate due * accumulation rate n) := by
  by_cases accrues : rate = 0
  · simp [payment, accrues, accumulation_zero_rate, dueFactor_zero_rate]
  · -- the rate stands in the numerator of the formula and in the divisor of the accumulation
    simp only [payment, zero_eq, beq_iff_eq, accrues, if_false, growth_natCast, one_eq,
      accumulation_of_ne_zero accrues]
    rw [mul_div_assoc', div_div_eq_mul_div]
    ring

/-! ### The equation of value -/

/-- Whether the present value, the payments and the future value cancel out after `n` periods. -/
def Balanced (rate : ℚ) (n : ℕ) (amount present future : ℚ) (due : Due) : Prop :=
  present * (1 + rate) ^ n + amount * dueFactor rate due * accumulation rate n + future = 0

theorem futureValue_eq_iff :
    futureValue rate n amount present due = future ↔ Balanced rate n amount present future due := by
  rw [futureValue_eq, Balanced, neg_eq_iff_add_eq_zero]

theorem presentValue_eq_iff (lasts : 1 + rate ≠ 0) :
    presentValue rate n amount future due = present ↔
      Balanced rate n amount present future due := by
  rw [presentValue_eq, Balanced, div_eq_iff (pow_ne_zero n lasts)]
  constructor <;> intro h <;> linear_combination -h

theorem payment_eq_iff (weighs : dueFactor rate due ≠ 0) (pays : 1 ≤ n)
    (grows : rate ≠ 0 → (1 + rate) ^ n - 1 ≠ 0) :
    payment rate n present future due = amount ↔ Balanced rate n amount present future due := by
  rw [payment_eq, Balanced, div_eq_iff (mul_ne_zero weighs (accumulation_ne_zero pays grows))]
  constructor <;> intro h <;> linear_combination -h

/-! ### Inverses -/

theorem futureValue_payment (weighs : dueFactor rate due ≠ 0) (pays : 1 ≤ n)
    (grows : rate ≠ 0 → (1 + rate) ^ n - 1 ≠ 0) (present future : ℚ) :
    futureValue rate n (payment rate n present future due) present due = future :=
  futureValue_eq_iff.mpr ((payment_eq_iff weighs pays grows).mp rfl)

/-- The payment, the present and the future value undo each other: put in the place of what it was
computed for, each of them gives back the others. -/
theorem values_invert (pays : 1 ≤ n) (lasts : 1 + rate ≠ 0) (weighs : dueFactor rate due ≠ 0)
    (grows : rate ≠ 0 → (1 + rate) ^ n - 1 ≠ 0) (amount present future : ℚ) :
    futureValue rate n (payment rate n present future due) present due = future ∧
    presentValue rate n (payment rate n present future due) future due = present ∧
    presentValue rate n amount (futureValue rate n amount present due) due = present ∧
    payment rate n present (futureValue rate n amount present due) due = amount := by
  have paid : Balanced rate n (payment rate n present future due) present future due :=
    (payment_eq_iff weighs pays grows).mp rfl
  have left : Balanced rate n amount present (futureValue rate n amount present due) due :=
    futureValue_eq_iff.mp rfl
  exact ⟨futureValue_payment weighs pays grows present future, (presentValue_eq_iff lasts).mpr paid,
    (presentValue_eq_iff lasts).mpr left, (payment_eq_iff weighs pays grows).mpr left⟩

/-- A loan of 100 at a rate of one, with two payments at the start of their periods. -/
theorem doubling_loan_inverts :
    payment (1 : ℚ) (2 : ℕ) 100 20 .atStart = -70 ∧
    futureValue (1 : ℚ) (2 : ℕ) (-70) 100 .atStart = 20 ∧
    presentValue (1 : ℚ) (2 : ℕ) (-70) 20 .atStart = 100 := by
  have amount : payment (1 : ℚ) (2 : ℕ) 100 20 .atStart = -70 :=
    (payment_eq_iff (by norm_num) (by decide) (by norm_num)).mpr
      (by norm_num [Balanced, accumulation, Finset.sum_range_succ])
  have inverse := @values_invert 1 2 .atStart (by decide) (by norm_num) (by norm_num) (by norm_num)
    (-70) 100 20
  rw [amount] at inverse
  exact ⟨amount, inverse.1, inverse.2.1⟩

end Annuity

end Recalc
