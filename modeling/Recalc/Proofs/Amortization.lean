import Mathlib.Algebra.Order.BigOperators.Group.Finset
import Mathlib.Tactic.FieldSimp
import Recalc.Proofs.Annuities

/-!
# Loans paid back

The ledger of a loan goes from payment to payment: the debt bears interest for a period and the
payment is taken off (`debt`). The formulas for the interest of one period and for spans of periods
skip over that history. They agree with it: each period is charged its interest in the ledger
(`interest_eq_charge`), the sums over spans are the sums of their periods (`spans_eq_sums`), and the
last payment leaves no debt (`debt_paid_off`).
-/
namespace Recalc.Annuity

variable {rate amount present future : ℚ} {due : Due} {n periods first last : ℕ}

/-! ### The ledger -/

/-- The interest on a debt after some payments. Nothing has accrued before a first payment at the
start of its period. -/
def charge (rate : ℚ) (due : Due) (paid : ℕ) (debt : ℚ) : ℚ :=
  if due = .atStart ∧ paid = 0 then 0 else debt * rate

/-- What is owed after some payments, as a negative amount. -/
def debt (rate amount present : ℚ) (due : Due) : ℕ → ℚ
  | 0 => -present
  | paid + 1 =>
    debt rate amount present due paid + charge rate due paid (debt rate amount present due paid)
      - amount

theorem futureValue_zero (rate amount present : ℚ) (due : Due) :
    futureValue rate (0 : ℕ) amount present due = -present := by
  rw [futureValue_eq]
  simp [accumulation]

/-- A period adds interest to what is left, and a payment with the interest that it bears. -/
theorem futureValue_succ (rate amount present : ℚ) (n : ℕ) (due : Due) :
    futureValue rate (n + 1 : ℕ) amount present due =
      futureValue rate n amount present due * (1 + rate) - amount * dueFactor rate due := by
  -- the term split off is the last payment, which bears no interest
  have grown : accumulation rate (n + 1) = accumulation rate n * (1 + rate) + 1 := by
    rw [accumulation, accumulation, Finset.sum_range_succ', Finset.sum_mul]
    simp [pow_succ]
  rw [futureValue_eq, futureValue_eq, grown]
  ring

theorem debt_atEnd (rate amount present : ℚ) (n : ℕ) :
    debt rate amount present .atEnd n = futureValue rate n amount present .atEnd := by
  induction n with
  | zero => rw [futureValue_zero, debt]
  | succ n ih =>
    rw [debt, ih, futureValue_succ, charge, if_neg (by simp), dueFactor_atEnd]
    ring

/-- At the start of a period, the debt is what the periods before have left less the payment. -/
theorem debt_atStart (rate amount present : ℚ) (n : ℕ) :
    debt rate amount present .atStart (n + 1) =
      futureValue rate n amount present .atStart - amount := by
  induction n with
  | zero => rw [debt, debt, charge, if_pos ⟨rfl, rfl⟩, futureValue_zero, add_zero]
  | succ n ih =>
    rw [debt, ih, futureValue_succ, charge, if_neg (by simp), dueFactor_atStart]
    ring

/-- The interest of a period is what the ledger charges in it. -/
theorem interest_eq_charge (rate present future : ℚ) (periods k : ℕ) (due : Due) :
    interest rate (k + 1 : ℕ) periods present future due =
      charge rate due k (debt rate (payment rate periods present future due) present due k) := by
  cases k with
  | zero => cases due <;> simp [interest, charge, debt]
  | succ k =>
    have later : ((k + 1 + 1 : ℕ) : ℚ) ≠ 1 := by norm_cast; omega
    rw [charge, if_neg (by simp)]
    simp only [interest, one_eq, beq_iff_eq, later, if_false]
    -- the debt is a future value of one period before, or of two with the payment made since
    cases due with
    | atEnd =>
      have before : ((k + 1 + 1 : ℕ) : ℚ) - 1 = (k + 1 : ℕ) := by push_cast; ring
      rw [debt_atEnd]
      simp only [before]
    | atStart =>
      have before : ((k + 1 + 1 : ℕ) : ℚ) - (1 + 1) = k := by push_cast; ring
      rw [debt_atStart]
      simp only [before]

/-- What a payment has beside interest takes off debt. -/
theorem payment_sub_interest (paid : amount = payment rate periods present future due) (k : ℕ) :
    amount - interest rate (k + 1 : ℕ) periods present future due =
      debt rate amount present due k - debt rate amount present due (k + 1) := by
  rw [interest_eq_charge, ← paid, debt]
  ring

theorem sum_payment_sub_interest (paid : amount = payment rate periods present future due) (n : ℕ) :
    ∑ k ∈ Finset.range n, (amount - interest rate (k + 1 : ℕ) periods present future due) =
      -present - debt rate amount present due n := by
  simp only [payment_sub_interest paid]
  exact Finset.sum_range_sub' _ n

/-- The payments of a loan leave no debt. -/
theorem debt_paid_off (pays : 1 ≤ n) (lasts : 1 + rate ≠ 0)
    (grows : rate ≠ 0 → (1 + rate) ^ n - 1 ≠ 0) :
    debt rate (payment rate n present 0 due) present due n = 0 := by
  cases due with
  | atEnd =>
    rw [debt_atEnd]
    exact futureValue_payment (by simp) pays grows present 0
  | atStart =>
    -- the last payment is made a period before the end, when nothing can be left to bear interest
    obtain ⟨m, rfl⟩ := Nat.exists_eq_add_of_le' pays
    have weighs : dueFactor rate .atStart ≠ 0 := by rwa [dueFactor_atStart]
    have ends := futureValue_payment weighs pays grows present 0
    rw [futureValue_succ, dueFactor_atStart, ← sub_mul] at ends
    rw [debt_atStart]
    exact (mul_eq_zero.mp ends).resolve_right lasts

/-! ### Spans of periods -/

theorem futureValueSum_eq_sum (accrues : rate ≠ 0) (start count : ℕ) (amount present : ℚ)
    (due : Due) : futureValueSum rate start count amount present due =
      ∑ k ∈ Finset.range count, futureValue rate (start + k : ℕ) amount present due := by
  induction count with
  | zero =>
    simp only [futureValueSum, growth_natCast, one_eq]
    simp
  | succ count ih =>
    rw [Finset.sum_range_succ, ← ih, futureValue_eq, accumulation_of_ne_zero accrues]
    simp only [futureValueSum, growth_natCast, one_eq]
    -- the divisions by the rate are all that keeps both sides from being polynomials
    field_simp
    push_cast
    ring

theorem periodCount_eq {first last : ℚ} (within : 0 ≤ last - first + 1) :
    periodCount first last = last - first + 1 := by
  have nonneg : Quantity.less (last - first + 1) 0 = false := decide_eq_false (not_lt.mpr within)
  simp only [periodCount, one_eq, zero_eq, nonneg, Bool.false_eq_true, if_false]

/-- Later payments than the first are all preceded by a period of interest. -/
theorem sum_interest (rate present future : ℚ) (periods start count : ℕ) (due : Due) :
    ∑ p ∈ Finset.Ico (start + 2) (start + 2 + count), interest rate p periods present future due =
      (∑ k ∈ Finset.range count,
        debt rate (payment rate periods present future due) present due (start + 1 + k)) * rate := by
  rw [Finset.sum_Ico_eq_sum_range, Nat.add_sub_cancel_left, Finset.sum_mul]
  refine Finset.sum_congr rfl fun k _ => ?_
  have place : start + 2 + k = start + 1 + k + 1 := by omega
  rw [place, interest_eq_charge, charge, if_neg (by omega)]

theorem futureValueSum_atEnd (accrues : rate ≠ 0) (start count : ℕ) (amount present : ℚ) :
    futureValueSum rate (start + 1 : ℕ) count amount present .atEnd =
      ∑ k ∈ Finset.range count, debt rate amount present .atEnd (start + 1 + k) := by
  simp only [futureValueSum_eq_sum accrues, debt_atEnd]

theorem futureValueSum_atStart (accrues : rate ≠ 0) (start count : ℕ) (amount present : ℚ) :
    futureValueSum rate start count amount present .atStart - count * amount =
      ∑ k ∈ Finset.range count, debt rate amount present .atStart (start + 1 + k) := by
  simp only [futureValueSum_eq_sum accrues, Nat.add_right_comm start 1, debt_atStart,
    Finset.sum_sub_distrib, Finset.sum_const, Finset.card_range, nsmul_eq_mul]

theorem cumulativeInterest_later (accrues : rate ≠ 0) (present : ℚ) (periods start count : ℕ)
    (due : Due) :
    cumulativeInterest rate periods present (start + 2 : ℕ) (start + 1 + count : ℕ) due =
      ∑ p ∈ Finset.Ico (start + 2) (start + 2 + count), interest rate p periods present 0 due := by
  have later : ((start + 2 : ℕ) : ℚ) ≠ 1 := by norm_cast; omega
  have counted : ((start + 1 + count : ℕ) : ℚ) - (start + 2 : ℕ) + 1 = count := by push_cast; ring
  rw [sum_interest]
  simp only [cumulativeInterest, one_eq, zero_eq, beq_iff_eq, later, if_false, zero_add,
    periodCount_eq (counted ▸ Nat.cast_nonneg count), counted]
  cases due with
  | atEnd =>
    have before : ((start + 2 : ℕ) : ℚ) - 1 = (start + 1 : ℕ) := by push_cast; ring
    simp only [before, futureValueSum_atEnd accrues]
  | atStart =>
    have before : ((start + 2 : ℕ) : ℚ) - (1 + 1) = start := by push_cast; ring
    simp only [before, futureValueSum_atStart accrues]

theorem cumulativeInterest_first (rate present last : ℚ) (periods : ℕ) (due : Due) :
    cumulativeInterest rate periods present 1 last due =
      interest rate 1 periods present 0 due +
        cumulativeInterest rate periods present 2 last due := by
  have later : (2 : ℚ) ≠ 1 := by norm_num
  simp only [cumulativeInterest, interest, one_eq, zero_eq, beq_iff_eq, one_add_one_eq_two, later,
    if_true, if_false]
  cases due <;> ring

/-- The interest of a span is that of its periods. -/
theorem cumulativeInterest_eq_sum (accrues : rate ≠ 0) (present : ℚ) (periods : ℕ) (due : Due)
    (counted : 1 ≤ first) (ordered : first ≤ last) :
    cumulativeInterest rate periods present first last due =
      ∑ p ∈ Finset.Icc first last, interest rate p periods present 0 due := by
  rw [← Finset.Ico_add_one_right_eq_Icc]
  rcases Nat.eq_or_lt_of_le counted with rfl | later
  · -- the first period of all has a term of its own, which leaves a span from the second
    obtain ⟨count, rfl⟩ := Nat.exists_eq_add_of_le ordered
    have rest := cumulativeInterest_later accrues present periods 0 count due
    have place : 1 + count + 1 = 0 + 2 + count := by omega
    rw [Finset.sum_eq_sum_Ico_succ_bot (by omega), Nat.cast_one, cumulativeInterest_first, place]
    rw [Nat.zero_add] at rest
    exact congrArg _ rest
  · obtain ⟨start, rfl⟩ := Nat.exists_eq_add_of_le' later
    obtain ⟨count, rfl⟩ := Nat.exists_eq_add_of_le ordered
    have rest := cumulativeInterest_later accrues present periods start (count + 1) due
    have place : start + 1 + (count + 1) = start + 2 + count := by omega
    rwa [place] at rest

/-- Interest and principal make up the payments of a span. -/
theorem cumulativeInterest_add_cumulativePrincipal (rate present : ℚ) (periods : ℕ) (due : Due)
    (ordered : first ≤ last) :
    cumulativeInterest rate periods present first last due +
        cumulativePrincipal rate periods present first last due =
      (last - first + 1) * payment rate periods present 0 due := by
  have within : (0 : ℚ) ≤ last - first := sub_nonneg.mpr (Nat.cast_le.mpr ordered)
  -- the sum of future values stands in both formulas with opposite signs
  by_cases opens : (first : ℚ) = 1
  · have shorter : (0 : ℚ) ≤ last - (1 + 1) + 1 := by linarith
    simp only [cumulativeInterest, cumulativePrincipal, one_eq, zero_eq, beq_iff_eq, opens, if_true,
      periodCount_eq shorter]
    cases due <;> ring
  · simp only [cumulativeInterest, cumulativePrincipal, one_eq, zero_eq, beq_iff_eq, opens, if_false,
      periodCount_eq (add_nonneg within zero_le_one)]
    cases due <;> ring

theorem cumulativePrincipal_eq_sum (accrues : rate ≠ 0) (present : ℚ) (periods : ℕ) (due : Due)
    (counted : 1 ≤ first) (ordered : first ≤ last) :
    cumulativePrincipal rate periods present first last due = ∑ p ∈ Finset.Icc first last,
      (payment rate periods present 0 due - interest rate p periods present 0 due) := by
  have count : ((last + 1 - first : ℕ) : ℚ) = last - first + 1 := by
    push_cast [Nat.cast_sub (Nat.le_succ_of_le ordered)]
    ring
  have whole := cumulativeInterest_add_cumulativePrincipal rate present periods due ordered
  rw [cumulativeInterest_eq_sum accrues present periods due counted ordered] at whole
  rw [Finset.sum_sub_distrib, Finset.sum_const, Nat.card_Icc, nsmul_eq_mul, count, ← whole]
  ring

/-- The principal of all periods is the loan. -/
theorem cumulativePrincipal_all (positive : 0 < rate) (present : ℚ) (due : Due) (pays : 1 ≤ n) :
    cumulativePrincipal rate n present (1 : ℕ) n due = -present := by
  have lasts : 1 + rate ≠ 0 := by positivity
  have grows : (1 + rate) ^ n - 1 ≠ 0 :=
    sub_ne_zero.mpr (one_lt_pow₀ (lt_add_of_pos_right 1 positive) (Nat.ne_of_gt pays)).ne'
  have repaid := sum_payment_sub_interest (rfl : payment rate n present 0 due = _) n
  rw [debt_paid_off pays lasts fun _ => grows, sub_zero] at repaid
  rw [cumulativePrincipal_eq_sum positive.ne' present n due (Nat.le_refl 1) pays, ← repaid,
    Finset.range_eq_Ico, Finset.sum_Ico_add' (fun p : ℕ =>
      payment rate n present 0 due - interest rate p n present 0 due) 0 n 1]
  rfl

/-! ### Whole periods -/

@[simp] theorem less_iff {x y : ℚ} : Quantity.less x y = true ↔ x < y :=
  decide_eq_true_iff

@[simp] theorem atMost_iff {x y : ℚ} : Quantity.atMost x y = true ↔ x ≤ y := by
  simp [Quantity.atMost, le_iff_lt_or_eq]

theorem isBroken_natCast (n : ℕ) : Quantity.isBroken (n : ℚ) = false := by
  have whole : Quantity.truncate (n : ℚ) = n := by
    show (if (n : ℚ) < 0 then ((⌈(n : ℚ)⌉ : ℤ) : ℚ) else (⌊(n : ℚ)⌋ : ℤ)) = n
    simp
  simp [Quantity.isBroken, whole]

/-- A formula is applied to whole periods as they are. -/
theorem evaluate?_natCast (positive : 0 < rate) (lent : 0 < present) (counted : 1 ≤ first)
    (ordered : first ≤ last) (lasts : last ≤ periods) (due : Due)
    (f : ℚ → ℚ → ℚ → ℚ → ℚ → Due → ℚ) :
    (⟨rate, periods, present, first, last, due⟩ : Span ℚ).evaluate? f =
      some (f rate periods present first last due) := by
  have inRange : (⟨rate, periods, present, first, last, due⟩ : Span ℚ).isOutOfRange = false := by
    rw [← Bool.not_eq_true]
    simp [Span.isOutOfRange, positive, lent, ordered, lasts]
    omega
  have up : Quantity.ceil (first : ℚ) = first := congrArg Int.cast (Int.ceil_natCast first)
  have down : Quantity.floor (last : ℚ) = last := congrArg Int.cast (Int.floor_natCast last)
  simp [Span.evaluate?, inRange, Span.isInsidePeriod, isBroken_natCast, up, down]

/-- For a loan at interest, what is computed for a span of periods without going through them is the
sum of what is computed for each. Interest and principal together are the payments, and the principal
of all periods pays the loan back. -/
theorem spans_eq_sums (positive : 0 < rate) (lent : 0 < present) (counted : 1 ≤ first)
    (ordered : first ≤ last) (lasts : last ≤ periods) (due : Due) :
    let amount := payment rate periods present 0 due
    let interestIn (p : ℕ) := interest rate p periods present 0 due
    let span : Span ℚ := ⟨rate, periods, present, first, last, due⟩
    let all : Span ℚ := ⟨rate, periods, present, (1 : ℕ), periods, due⟩
    ∃ paidInterest paidPrincipal,
      span.evaluate? cumulativeInterest = some paidInterest ∧
      span.evaluate? cumulativePrincipal = some paidPrincipal ∧
      paidInterest = ∑ p ∈ Finset.Icc first last, interestIn p ∧
      paidPrincipal = ∑ p ∈ Finset.Icc first last, (amount - interestIn p) ∧
      paidInterest + paidPrincipal = (last - first + 1) * amount ∧
      all.evaluate? cumulativePrincipal = some (-present) := by
  intro amount interestIn span all
  have pays : 1 ≤ periods := by omega
  refine ⟨_, _, evaluate?_natCast positive lent counted ordered lasts due _,
    evaluate?_natCast positive lent counted ordered lasts due _,
    cumulativeInterest_eq_sum positive.ne' present periods due counted ordered,
    cumulativePrincipal_eq_sum positive.ne' present periods due counted ordered,
    cumulativeInterest_add_cumulativePrincipal rate present periods due ordered, ?_⟩
  exact (evaluate?_natCast positive lent (Nat.le_refl 1) pays (Nat.le_refl periods) due _).trans
    (congrArg some (cumulativePrincipal_all positive present due pays))

/-- A loan of 7 at a rate of one over three periods. Its payments of 8 take off 1, 2 and 4. -/
theorem doubling_loan_spans :
    payment (1 : ℚ) (3 : ℕ) 7 0 .atEnd = -8 ∧
    let span : Span ℚ := ⟨1, (3 : ℕ), 7, (2 : ℕ), (3 : ℕ), .atEnd⟩
    let all : Span ℚ := ⟨1, (3 : ℕ), 7, (1 : ℕ), (3 : ℕ), .atEnd⟩
    span.evaluate? cumulativeInterest = some (-10) ∧
    span.evaluate? cumulativePrincipal = some (-6) ∧
    all.evaluate? cumulativePrincipal = some (-7) := by
  have amount : payment (1 : ℚ) (3 : ℕ) 7 0 .atEnd = -8 := by decide +kernel
  have second : interest (1 : ℚ) (2 : ℕ) (3 : ℕ) 7 0 .atEnd = -6 := by decide +kernel
  have third : interest (1 : ℚ) (3 : ℕ) (3 : ℕ) 7 0 .atEnd = -4 := by decide +kernel
  obtain ⟨paidInterest, paidPrincipal, interest, principal, interests, principals, -, all⟩ :=
    @spans_eq_sums 1 7 3 2 3 one_pos (by norm_num) (by decide) (by decide) (by decide) .atEnd
  simp only [Finset.sum_Icc_succ_top (Nat.le_succ 2), Finset.Icc_self, Finset.sum_singleton, amount,
    second, third] at interests principals
  refine ⟨amount, ?_, ?_, all⟩
  · rw [interest, interests]
    norm_num
  · rw [principal, principals]
    norm_num

end Recalc.Annuity
