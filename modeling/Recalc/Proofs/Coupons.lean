import Mathlib.Data.Set.Card
import Mathlib.Order.Bounds.Basic
import Recalc.Proofs.DateValues

/-!
# Coupon dates around settlement

Coupon dates get earlier with every step back from maturity, so a search that goes back as long as a
condition on late dates holds stops at the first date that fails it, and has passed all the others
(`exists_firstCoupon?`). The functions of bonds run two such searches, and what they find brackets
settlement (`Bonds.coupons_bracket_settlement`).
-/
namespace Recalc

namespace Bond

/-- Whether a date is one of the coupon dates. -/
def Pays (b : Bond) (d : Date) : Prop :=
  ∃ k, b.coupon? k = some d

/-- A bond whose coupon dates reach back to before its settlement. -/
structure Regular (b : Bond) : Prop where
  months : 1 ≤ b.months ∧ b.months ≤ 12
  earlier : b.settlement < b.maturity
  calendar : firstYear < b.settlement.year

variable {b : Bond} {d e : Date} {j k start steps stop : Nat}

/-! ### Steps back from maturity -/

theorem coupon?_zero (b : Bond) : b.coupon? 0 = some b.maturity := by
  simp only [coupon?, Nat.zero_mul, Int.natCast_zero, Int.neg_zero, Date.addMonths?_zero,
    Option.map_some]
  split
  next last => rw [Date.lastOfMonth_eq last]
  next => rfl

theorem monthIndex_of_coupon? (pays : b.coupon? k = some d) :
    d.monthIndex = b.maturity.monthIndex - (k * b.months : Nat) := by
  obtain ⟨shifted, moved, rfl⟩ := Option.map_eq_some_iff.mp pays
  have index := (Date.addMonths?_eq_some_iff.mp moved).1
  split <;> simpa [Date.monthIndex_lastOfMonth, Int.sub_eq_add_neg] using index

/-- The coupon dates of a bond that matures at the end of a month are month ends. -/
theorem isLastOfMonth_of_coupon? (last : b.maturity.isLastOfMonth = true)
    (pays : b.coupon? k = some d) : d.isLastOfMonth = true := by
  obtain ⟨shifted, -, rfl⟩ := Option.map_eq_some_iff.mp pays
  rw [if_pos last]
  exact Date.isLastOfMonth_lastOfMonth shifted

theorem exists_coupon? (low : 12 * firstYear ≤ b.maturity.monthIndex - (k * b.months : Nat)) :
    ∃ d, b.coupon? k = some d := by
  have years := b.maturity.year_bounds
  have months := b.maturity.month_bounds
  obtain ⟨shifted, moved⟩ := Date.exists_addMonths? (d := b.maturity)
    (n := -((k * b.months : Nat) : Int)) (by omega) (by unfold Date.monthIndex; omega)
  exact ⟨_, by rw [coupon?, moved]; rfl⟩

/-- Each step back leads to an earlier month. -/
theorem coupon?_lt (months : 1 ≤ b.months) (further : j < k) (pays : b.coupon? j = some d)
    (pays' : b.coupon? k = some e) : e < d := by
  have steps : j * b.months < k * b.months := Nat.mul_lt_mul_of_pos_right further months
  rw [Date.lt_iff_monthIndex, monthIndex_of_coupon? pays, monthIndex_of_coupon? pays']
  omega

theorem coupon?_le (months : 1 ≤ b.months) (further : j ≤ k) (pays : b.coupon? j = some d)
    (pays' : b.coupon? k = some e) : e ≤ d := by
  rw [Date.le_iff_dayNumber]
  rcases Nat.lt_or_eq_of_le further with more | rfl
  · have := Date.lt_iff_dayNumber.mp (coupon?_lt months more pays pays')
    omega
  · rw [Option.some.inj (pays.symm.trans pays')]

theorem coupon?_injective (months : 1 ≤ b.months) (pays : b.coupon? j = some d)
    (pays' : b.coupon? k = some d) : j = k := by
  have irreflexive : ¬ d < d := by simp [Date.lt_iff_dayNumber]
  rcases Nat.lt_trichotomy j k with less | same | more
  · exact absurd (coupon?_lt months less pays pays') irreflexive
  · exact same
  · exact absurd (coupon?_lt months more pays' pays) irreflexive

/-! ### Searches -/

/-- A search that meets a date which fails the condition stops at the first such date. -/
theorem firstCoupon?_isLeast {p : Date → Bool} (reached : ∀ j ≤ stop, ∃ d, b.coupon? j = some d)
    (fails : ∃ d, b.coupon? stop = some d ∧ p d = false) (ahead : start ≤ stop)
    (enough : stop < start + steps) : ∃ k, b.firstCoupon? p steps start = some k ∧
      IsLeast {k | start ≤ k ∧ ∃ d, b.coupon? k = some d ∧ p d = false} k := by
  -- a date that passes is not the one at the stop, so the search goes on ahead of it
  induction steps generalizing start with
  | zero => omega
  | succ steps ih =>
    obtain ⟨d, here⟩ := reached start ahead
    simp only [firstCoupon?, here]
    cases holds : p d with
    | false => exact ⟨start, rfl, ⟨Nat.le_refl _, d, here, holds⟩, fun k later => later.1⟩
    | true =>
      have passes : ∀ {k}, (∃ e, b.coupon? k = some e ∧ p e = false) → k ≠ start := by
        rintro _ ⟨e, there, failed⟩ rfl
        cases here.symm.trans there
        exact absurd (holds.symm.trans failed) Bool.true_eq_false.mp
      have beyond : start + 1 ≤ stop := Nat.lt_of_le_of_ne ahead (passes fails).symm
      obtain ⟨k, found, ⟨after, failed⟩, least⟩ := ih beyond (by omega)
      refine ⟨k, found, ⟨by omega, failed⟩, fun j later => least ⟨?_, later.2⟩⟩
      have := passes later.2
      have := later.1
      omega

/-- Some coupon date before the step limit lies before settlement, with all steps up to it in the
calendar. -/
theorem exists_before_settlement (regular : b.Regular) : ∃ stop < b.stepLimit,
    (∀ j ≤ stop, ∃ d, b.coupon? j = some d) ∧ ∃ d, b.coupon? stop = some d ∧ d < b.settlement := by
  obtain ⟨⟨least, most⟩, earlier, calendar⟩ := regular
  have apart : b.settlement.monthIndex ≤ b.maturity.monthIndex := by
    have := Date.lt_iff_monthIndex.mp earlier
    omega
  obtain ⟨span, spans⟩ := Int.eq_ofNat_of_zero_le (Int.sub_nonneg.mpr apart)
  -- one step more than fit between the two months
  have fit := Nat.div_add_mod span b.months
  have rest := Nat.mod_lt span least
  have fewer := Nat.div_le_self span b.months
  have back : (span / b.months + 1) * b.months = b.months * (span / b.months) + b.months := by
    rw [Nat.succ_mul, Nat.mul_comm]
  have settled := b.settlement.month_bounds
  have matured := b.maturity.month_bounds
  have first : 12 * firstYear + 12 ≤ b.settlement.monthIndex := by
    unfold Date.monthIndex
    omega
  have reached : ∀ j ≤ span / b.months + 1, ∃ d, b.coupon? j = some d := fun j within => by
    have nearer := Nat.mul_le_mul_right b.months within
    exact exists_coupon? (b := b) (k := j) (by omega)
  refine ⟨span / b.months + 1, ?_, reached, ?_⟩
  · unfold Date.monthIndex at spans
    unfold stepLimit
    omega
  · obtain ⟨d, pays⟩ := reached _ (Nat.le_refl _)
    refine ⟨d, pays, Date.lt_iff_monthIndex.mpr (.inl ?_)⟩
    rw [monthIndex_of_coupon? pays]
    omega

/-- A search for a condition that later dates satisfy if earlier ones do, and none before
settlement, stops at a date that fails it. The dates that it has passed are all that satisfy it. -/
theorem exists_firstCoupon? (regular : b.Regular) {p : Date → Bool}
    (upward : ∀ {d e}, d < e → p d = true → p e = true)
    (bounded : ∀ d, d < b.settlement → p d = false) :
    ∃ n d, b.firstCoupon? p b.stepLimit 0 = some n ∧ n < b.stepLimit ∧
      b.coupon? n = some d ∧ p d = false ∧
      {k | ∃ d, b.coupon? k = some d ∧ p d = true} = Set.Iio n := by
  obtain ⟨stop, enough, reached, low, there, before⟩ := exists_before_settlement regular
  have fails : ∃ d, b.coupon? stop = some d ∧ p d = false := ⟨low, there, bounded low before⟩
  have within : stop < 0 + b.stepLimit := by omega
  obtain ⟨n, found, ⟨-, d, pays, failed⟩, least⟩ :=
    firstCoupon?_isLeast reached fails (Nat.zero_le stop) within
  have near : n ≤ stop := least ⟨Nat.zero_le stop, fails⟩
  -- what is left to show is that the passed dates are those that satisfy the condition
  refine ⟨n, d, found, by omega, pays, failed, Set.ext fun k => ?_⟩
  constructor
  · rintro ⟨e, pays', holds⟩
    -- a date past the stop is no later than the one that failed
    by_contra far
    rcases Nat.lt_or_eq_of_le (Nat.not_lt.mp far) with more | rfl
    · have := upward (coupon?_lt regular.months.1 more pays pays') holds
      exact absurd (this.symm.trans failed) Bool.true_eq_false.mp
    · cases pays.symm.trans pays'
      exact absurd (holds.symm.trans failed) Bool.true_eq_false.mp
  · intro nearer
    obtain ⟨e, pays'⟩ := reached k (Nat.le_trans (Nat.le_of_lt nearer) near)
    refine ⟨e, pays', ?_⟩
    by_contra fails'
    exact Nat.not_le.mpr nearer (least ⟨Nat.zero_le k, e, pays', Bool.not_eq_true _ ▸ fails'⟩)

/-! ### Counting -/

/-- Coupon dates are as many as the steps that lead to them. -/
theorem encard_dates (months : 1 ≤ b.months) (P : Date → Prop) :
    {d | b.Pays d ∧ P d}.encard = {k | ∃ d, b.coupon? k = some d ∧ P d}.encard := by
  have dates : {d | b.Pays d ∧ P d} =
      (fun k => (b.coupon? k).getD b.maturity) '' {k | ∃ d, b.coupon? k = some d ∧ P d} := by
    ext d
    constructor
    · rintro ⟨⟨k, pays⟩, holds⟩
      exact ⟨k, ⟨d, pays, holds⟩, by simp [pays]⟩
    · rintro ⟨k, ⟨e, pays, holds⟩, same⟩
      obtain rfl : e = d := by simpa [pays] using same
      exact ⟨⟨k, pays⟩, holds⟩
  rw [dates]
  -- no date is reached by two numbers of steps
  refine Set.InjOn.encard_image ?_
  rintro j ⟨d, pays, -⟩ k ⟨e, pays', -⟩ same
  obtain rfl : d = e := by simpa [pays, pays'] using same
  exact coupon?_injective months pays pays'

/-- Beside settlement itself, the coupon dates from settlement on are those after it. -/
theorem encard_from_settlement (months : 1 ≤ b.months) :
    (b.Pays b.settlement → {k | ∃ d, b.coupon? k = some d ∧ b.settlement ≤ d}.encard =
      {d | b.Pays d ∧ b.settlement < d}.encard + 1) ∧
    (¬ b.Pays b.settlement → {k | ∃ d, b.coupon? k = some d ∧ b.settlement ≤ d}.encard =
      {d | b.Pays d ∧ b.settlement < d}.encard) := by
  rw [← encard_dates months]
  constructor
  · intro pays
    rw [← Set.encard_insert_of_notMem (a := b.settlement) (by simp [Date.lt_iff_dayNumber])]
    congr 1
    ext d
    rw [Set.mem_insert_iff, ← Date.dayNumber_inj]
    simp only [Set.mem_ofPred_eq, Date.le_iff_dayNumber, Date.lt_iff_dayNumber]
    constructor
    · rintro ⟨pays', from_settlement⟩
      by_cases same : d.dayNumber = b.settlement.dayNumber
      · exact .inl same
      · exact .inr ⟨pays', by omega⟩
    · rintro (same | ⟨pays', after⟩)
      · exact ⟨Date.dayNumber_inj.mp same ▸ pays, by omega⟩
      · exact ⟨pays', by omega⟩
  · intro unpaid
    congr 1
    ext d
    simp only [Set.mem_ofPred_eq, Date.le_iff_dayNumber, Date.lt_iff_dayNumber]
    refine and_congr_right fun pays => ?_
    have apart : d.dayNumber ≠ b.settlement.dayNumber := fun same =>
      unpaid (Date.dayNumber_inj.mp same ▸ pays)
    omega

/-! ### Around settlement -/

/-- Whether two coupon dates lie around settlement with none between them. -/
structure Brackets (b : Bond) (previous next : Date) : Prop where
  latest : IsGreatest {d | b.Pays d ∧ d ≤ b.settlement} previous
  earliest : IsLeast {d | b.Pays d ∧ b.settlement < d} next
  matures : next ≤ b.maturity
  consecutive : ∃ k, b.coupon? k = some next ∧ b.coupon? (k + 1) = some previous

/-- Whether a number counts the coupon dates from settlement on. -/
structure Counts (b : Bond) (n : Nat) : Prop where
  steps : {k | ∃ d, b.coupon? k = some d ∧ b.settlement ≤ d}.encard = n
  later : b.Pays b.settlement ∧ n = {d | b.Pays d ∧ b.settlement < d}.encard + 1 ∨
    ¬ b.Pays b.settlement ∧ n = {d | b.Pays d ∧ b.settlement < d}.encard

theorem exists_brackets (regular : b.Regular) : ∃ previous next,
    b.previousCoupon? = some previous ∧ b.nextCoupon? = some next ∧ b.Brackets previous next := by
  have months := regular.months.1
  obtain ⟨n, previous, found, -, pays, reaches, before⟩ := exists_firstCoupon? regular
    (p := fun d => b.settlement < d)
    (fun earlier after => by simp only [decide_eq_true_eq, Date.lt_iff_dayNumber] at *; omega)
    (fun d before => by simp only [decide_eq_false_iff_not, Date.lt_iff_dayNumber] at *; omega)
  simp only [decide_eq_true_eq, decide_eq_false_iff_not] at before reaches
  -- maturity lies after settlement, so the search takes a step at least
  obtain ⟨k, rfl⟩ : ∃ k, n = k + 1 := by
    have first : 0 ∈ Set.Iio n := before ▸ ⟨b.maturity, coupon?_zero b, regular.earlier⟩
    exact ⟨n - 1, (Nat.sub_add_cancel first).symm⟩
  obtain ⟨next, pays', after⟩ : k ∈ {k | ∃ d, b.coupon? k = some d ∧ b.settlement < d} :=
    before ▸ Nat.lt_succ_self k
  have latest : IsGreatest {d | b.Pays d ∧ d ≤ b.settlement} previous := by
    refine ⟨⟨⟨_, pays⟩, reaches⟩, ?_⟩
    rintro d ⟨⟨j, pays''⟩, early⟩
    refine coupon?_le months (Nat.not_lt.mp fun less => ?_) pays pays''
    obtain ⟨e, there, late⟩ : j ∈ {k | ∃ d, b.coupon? k = some d ∧ b.settlement < d} :=
      before ▸ less
    cases pays''.symm.trans there
    exact early late
  have earliest : IsLeast {d | b.Pays d ∧ b.settlement < d} next := by
    refine ⟨⟨⟨_, pays'⟩, after⟩, ?_⟩
    rintro d ⟨⟨j, pays''⟩, late⟩
    have less : j ∈ Set.Iio (k + 1) := before ▸ ⟨d, pays'', late⟩
    exact coupon?_le months (Nat.le_of_lt_succ less) pays'' pays'
  have steps : b.stepsToSettlement? = some (k + 1) := found
  refine ⟨previous, next, ?_, ?_, latest, earliest, ?_, k, pays', pays⟩
  · simpa [previousCoupon?, steps] using pays
  · simpa [nextCoupon?, steps] using pays'
  · exact coupon?_le months (Nat.zero_le k) (coupon?_zero b) pays'

theorem exists_counts (regular : b.Regular) :
    ∃ n < b.stepLimit, b.couponCount? = some n ∧ b.Counts n := by
  obtain ⟨n, -, found, small, -, -, before⟩ := exists_firstCoupon? regular
    (p := fun d => b.settlement ≤ d)
    (fun earlier later => by
      simp only [decide_eq_true_eq, Date.lt_iff_dayNumber, Date.le_iff_dayNumber] at *
      omega)
    (fun d before => by
      simp only [decide_eq_false_iff_not, Date.lt_iff_dayNumber, Date.le_iff_dayNumber] at *
      omega)
  simp only [decide_eq_true_eq] at before
  have count : (Set.Iio n).encard = n := by
    rw [← Finset.coe_range, Set.encard_coe_eq_coe_finsetCard, Finset.card_range]
  obtain ⟨paid, unpaid⟩ := encard_from_settlement (b := b) regular.months.1
  rw [before, count] at paid unpaid
  refine ⟨n, small, found, before ▸ count, ?_⟩
  by_cases pays : b.Pays b.settlement
  · exact .inl ⟨pays, paid pays⟩
  · exact .inr ⟨pays, unpaid pays⟩

end Bond

/-! ### The functions of bonds -/

namespace Bonds

variable {args : Arguments} {values : List Value} {settlement maturity : Date}
  {frequency basis : Int} {b : Bond}

theorem bond_of_arguments (settles : args.date 0 = .ok settlement)
    (matures : args.date 1 = .ok maturity) (pays : args.integer 2 = .ok frequency)
    (counts : args.integerOr 3 0 = .ok basis) (earlier : settlement < maturity)
    (regular : frequency = 1 ∨ frequency = 2 ∨ frequency = 4) (known : 0 ≤ basis ∧ basis ≤ 4) :
    bond args = .ok ⟨settlement, maturity, 12 / frequency.toNat⟩ := by
  obtain ⟨convention, coded⟩ : ∃ convention, Basis.ofCode basis = .ok convention := by
    have codes : basis = 0 ∨ basis = 1 ∨ basis = 2 ∨ basis = 3 ∨ basis = 4 := by omega
    rcases codes with rfl | rfl | rfl | rfl | rfl <;> exact ⟨_, rfl⟩
  simp only [bond, settles, matures, pays, counts, coded, bind, Except.bind, if_pos regular,
    if_pos earlier]
  rfl

theorem exists_arguments_of_bond (described : bond args = .ok b) :
    args.date 0 = .ok b.settlement ∧ args.date 1 = .ok b.maturity ∧ b.settlement < b.maturity ∧
      1 ≤ b.months ∧ b.months ≤ 12 := by
  obtain ⟨settlement, settles, described⟩ := Outcome.bind_eq_ok_iff.mp described
  obtain ⟨maturity, matures, described⟩ := Outcome.bind_eq_ok_iff.mp described
  obtain ⟨frequency, -, described⟩ := Outcome.bind_eq_ok_iff.mp described
  obtain ⟨basis, -, described⟩ := Outcome.bind_eq_ok_iff.mp described
  obtain ⟨convention, -, described⟩ := Outcome.bind_eq_ok_iff.mp described
  split at described
  next regular =>
    split at described
    next earlier =>
      cases described
      refine ⟨settles, matures, earlier, ?_⟩
      rcases regular with rfl | rfl | rfl <;> simp
    next => cases described
  next => cases described

/-- The bonds that arguments describe have coupon dates before settlement. -/
theorem regular_of_bond (described : bond args = .ok b) : b.Regular := by
  obtain ⟨settles, -, earlier, months⟩ := exists_arguments_of_bond described
  have year := Date.year_of_serial_nonneg (Arguments.inSystem_of_date settles).1
  exact ⟨months, earlier, by unfold firstYear; omega⟩

theorem callGives_ofBond {name : String} {f : Bond → Option Float} {x : Float}
    (listed : ofBond name f ∈ functions) (accepted : 3 ≤ values.length ∧ values.length ≤ 4)
    (passed : Arguments.check .reject values = .ok args) (described : bond args = .ok b)
    (computed : f b = some x) (finite : x.isFinite = true) :
    Library.CallGives name values (.number x) := by
  refine ⟨ofBond name f, Library.get?_of_dated (List.mem_append_right _ listed) rfl,
    fun ambient drawn => ?_⟩
  · rw [ofBond, Function.call_checked accepted passed, described]
    simp only [bind, Except.bind, computed]
    exact congrArg (·, drawn) (Function.toResult_number finite)

/-- For all arguments that describe a bond, the searches for its coupon dates end. The dates
returned are the coupon dates next to settlement, the number returned counts those from settlement
on, and month ends stay month ends. -/
theorem coupons_bracket_settlement (accepted : 3 ≤ values.length ∧ values.length ≤ 4)
    (passed : Arguments.check .reject values = .ok args) (settles : args.date 0 = .ok settlement)
    (matures : args.date 1 = .ok maturity) (pays : args.integer 2 = .ok frequency)
    (counts : args.integerOr 3 0 = .ok basis) (earlier : settlement < maturity)
    (regular : frequency = 1 ∨ frequency = 2 ∨ frequency = 4) (known : 0 ≤ basis ∧ basis ≤ 4) :
    let b : Bond := ⟨settlement, maturity, 12 / frequency.toNat⟩
    (∀ j k d e, j < k → b.coupon? j = some d → b.coupon? k = some e → e < d) ∧
    (maturity.isLastOfMonth = true → ∀ d, b.Pays d → d.isLastOfMonth = true) ∧
    ∃ previous next n, b.Brackets previous next ∧ b.Counts n ∧
      Library.CallGives "COUPPCD" values (.number previous.serialNumber) ∧
      Library.CallGives "COUPNCD" values (.number next.serialNumber) ∧
      Library.CallGives "COUPNUM" values (.number (Float.ofNat n)) := by
  intro b
  have described : bond args = .ok b :=
    bond_of_arguments settles matures pays counts earlier regular known
  have searchable := regular_of_bond described
  obtain ⟨previous, next, back, forth, brackets⟩ := Bond.exists_brackets searchable
  obtain ⟨n, small, found, count⟩ := Bond.exists_counts searchable
  have whole : (Float.ofNat n).isFinite = true := by
    -- there are far fewer months in the calendar than integers in a float
    have years := b.maturity.year_bounds
    unfold Bond.stepLimit at small
    unfold firstYear lastYear at *
    exact Number.isFinite_ofInt (z := n) (by omega)
  refine ⟨fun j k d e further => Bond.coupon?_lt searchable.months.1 further,
    fun last d ⟨k, listed⟩ => Bond.isLastOfMonth_of_coupon? last listed,
    previous, next, n, brackets, count, ?_, ?_, ?_⟩
  · refine callGives_ofBond (f := fun b => b.previousCoupon?.map Date.serialNumber) ?_ accepted
      passed described (by rw [back]; rfl) previous.isFinite_serialNumber
    simp [functions]
  · refine callGives_ofBond (f := fun b => b.nextCoupon?.map Date.serialNumber) ?_ accepted
      passed described (by rw [forth]; rfl) next.isFinite_serialNumber
    simp [functions]
  · refine callGives_ofBond (f := fun b => b.couponCount?.map Float.ofNat) ?_ accepted passed
      described (by rw [found]; rfl) whole
    simp [functions]

/-- A bond that matures at the end of August, settled on the leap day half a year before. -/
theorem leap_day_is_paid :
    let settlement : Date := ⟨2024, 2, 29, by decide, by decide, by decide⟩
    let maturity : Date := ⟨2024, 8, 31, by decide, by decide, by decide⟩
    let values := [.number settlement.serialNumber, .number maturity.serialNumber, .number 2.0]
    let b : Bond := ⟨settlement, maturity, 6⟩
    (∀ d, b.Pays d → d.isLastOfMonth = true) ∧
    ∃ previous next n, b.Brackets previous next ∧ b.Counts n ∧
      Library.CallGives "COUPPCD" values (.number previous.serialNumber) ∧
      Library.CallGives "COUPNCD" values (.number next.serialNumber) ∧
      Library.CallGives "COUPNUM" values (.number (Float.ofNat n)) := by
  intro settlement maturity values b
  have settles : Arguments.date ⟨values⟩ 0 = .ok settlement :=
    (Arguments.date_of_serialNumber rfl).trans (if_pos (by decide))
  have matures : Arguments.date ⟨values⟩ 1 = .ok maturity :=
    (Arguments.date_of_serialNumber rfl).trans (if_pos (by decide))
  have pays : Arguments.integer ⟨values⟩ 2 = .ok 2 := rfl
  have counts : Arguments.integerOr ⟨values⟩ 3 0 = .ok 0 := rfl
  have accepted : 3 ≤ values.length ∧ values.length ≤ 4 := by decide
  have results := coupons_bracket_settlement accepted rfl settles matures pays counts (by decide)
    (by decide) (by decide)
  exact ⟨results.2.1 (by decide), results.2.2⟩

end Bonds

end Recalc
