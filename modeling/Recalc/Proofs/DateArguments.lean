import Recalc.Proofs.DateResults
import Recalc.Proofs.Serials

/-!
# Date arguments

Functions that take dates look at the day of a date argument only (`OfDays`), so they do not tell a
serial from the whole serial of its day (`DatedFunction.call_of_day`). Times on the last day of the
date system are the exception: they are refused, although the day is not.
-/
namespace Recalc

open Number

variable {args args' : Arguments} {count i : Nat} {s t : Float} {v : Value}

/-- Whether a number is a time on the last day of the date system, later than its start. -/
def DuringLastDay (s : Float) : Prop :=
  Float.ofInt maxSerial < s ∧ s < Float.ofInt (maxSerial + 1)

instance : Decidable (DuringLastDay s) :=
  inferInstanceAs (Decidable (_ ∧ _))

/-! ### The day of a number -/

namespace Value

/-- The serial of the day that a value gives as a date. -/
def day (v : Value) : Outcome Float :=
  v.asDateSerial.map floor

theorem day_number (s : Float) : (number s).day =
    if s.isFinite then
      if s < 0.0 ∨ Float.ofInt maxSerial < s then Recalc.complain .serialOutOfRange
      else .ok (floor s)
    else refuse .number := by
  show (requireFinite s >>= fun x : Float => if x < 0.0 ∨ Float.ofInt maxSerial < x then
    Recalc.complain .serialOutOfRange else .ok x).map floor = _
  rw [requireFinite]
  cases s.isFinite with
  | false => rfl
  | true =>
    show (if s < 0.0 ∨ Float.ofInt maxSerial < s then
      Recalc.complain .serialOutOfRange else .ok s : Outcome Float).map floor = _
    split <;> simp only [*] <;> rfl

theorem lt_zero_iff (finite : s.isFinite = true) : s < 0.0 ↔ exact s < 0 := by
  have zero : exact 0.0 = 0 := by decide +kernel
  rw [lt_iff_exact finite (by decide +kernel), zero]

theorem maxSerial_lt_iff (finite : s.isFinite = true) :
    Float.ofInt maxSerial < s ↔ (maxSerial : ℚ) < exact s := by
  rw [lt_iff_exact (isFinite_ofInt (by decide)) finite, exact_ofInt (by decide)]

/-- Rounding down decides the bounds of the date system as the number itself does, unless it brings
a time on the last day back to it. -/
theorem day_floor (early : ¬ DuringLastDay s) : (number s).day = (number (floor s)).day := by
  cases finite : s.isFinite with
  | false =>
    have same : floor s = s := by simp only [floor, wholeBy, dyadic?_eq_none finite]
    rw [same]
  | true =>
    obtain ⟨finite', whole⟩ := exact_floor finite
    have low : exact s < 0 ↔ ((⌊exact s⌋ : ℤ) : ℚ) < 0 := by
      rw [← not_le, ← not_le, Int.cast_nonneg_iff, Int.floor_nonneg]
    have bound := exact_ofInt (z := maxSerial + 1) (by decide)
    have high : (maxSerial : ℚ) < exact s ↔ (maxSerial : ℚ) < (⌊exact s⌋ : ℤ) := by
      rw [DuringLastDay, maxSerial_lt_iff finite, lt_iff_exact finite (isFinite_ofInt (by decide)),
        bound, not_and, not_lt] at early
      rw [Int.cast_lt, ← Int.add_one_le_iff, Int.le_floor]
      exact ⟨early, fun le => lt_of_lt_of_le (by push_cast; linarith) le⟩
    simp only [day_number, finite, finite', lt_zero_iff finite, lt_zero_iff finite',
      maxSerial_lt_iff finite, maxSerial_lt_iff finite', whole, ← low, ← high, floor_floor]

/-- A time on the last day is refused like the days after it. -/
theorem day_of_duringLastDay (late : DuringLastDay s) :
    (number s).day = (number (Float.ofInt (maxSerial + 1))).day := by
  have finite := isFinite_of_between (isFinite_ofInt (z := maxSerial) (by decide))
    (Number.le_of_lt late.1) late.2
  have beyond : Float.ofInt maxSerial < Float.ofInt (maxSerial + 1) := by decide +kernel
  have finite' : (Float.ofInt (maxSerial + 1)).isFinite = true := isFinite_ofInt (by decide)
  rw [day_number, day_number, if_pos finite, if_pos (.inr late.1), if_pos finite',
    if_pos (.inr beyond)]

end Value

/-! ### Arguments that give the same days -/

namespace Arguments

theorem daySerial_of_get? (given : args.get? i = some v) : args.daySerial i = v.day := by
  simp only [daySerial, required, given]
  rfl

/-- Whether arguments differ at most in how they write the days of the first `count` of them. -/
structure SameDays (count : Nat) (args args' : Arguments) : Prop where
  days : ∀ i < count, args.daySerial i = args'.daySerial i
  others : ∀ i, count ≤ i → args.get? i = args'.get? i

/-- Whether a computation looks at the days only of its first `count` arguments. -/
def OfDays (count : Nat) (g : Arguments → Outcome Value) : Prop :=
  ∀ args args', SameDays count args args' → g args = g args'

namespace SameDays

variable (same : SameDays count args args')
include same

theorem date (before : i < count) : args.date i = args'.date i := by
  rw [Arguments.date, Arguments.date, same.days i before]

variable (after : count ≤ i)
include after

theorem required : args.required i = args'.required i := by
  rw [Arguments.required, Arguments.required, same.others i after]

theorem isSupplied : args.isSupplied i = args'.isSupplied i := by
  rw [Arguments.isSupplied, Arguments.isSupplied, same.others i after]

theorem number : args.number i = args'.number i := by
  rw [Arguments.number, Arguments.number, same.required after]

theorem integer : args.integer i = args'.integer i := by
  rw [Arguments.integer, Arguments.integer, same.required after]

theorem integerOr (default : Int) : args.integerOr i default = args'.integerOr i default := by
  rw [Arguments.integerOr, Arguments.integerOr, same.isSupplied after, same.integer after]

theorem boolean : args.boolean i = args'.boolean i := by
  rw [Arguments.boolean, Arguments.boolean, same.required after]

end SameDays

/-! ### Arguments with a number put in -/

/-- Numbers pass the check of arguments as they are. -/
theorem checkFrom_set (policy : BooleanPolicy) (position : Nat) (values : List Value) (i : Nat)
    (s : Float) : checkFrom policy position (values.set i (.number s)) =
      (checkFrom policy position (values.set i .blank)).map (·.set i (.number s)) := by
  induction values generalizing position i with
  | nil => rfl
  | cons v rest ih =>
    cases i with
    | zero =>
      show (checkFrom policy (position + 1) rest >>= fun others => .ok (.number s :: others)) =
        (checkFrom policy (position + 1) rest >>= fun others => .ok (.blank :: others)).map _
      cases checkFrom policy (position + 1) rest <;> rfl
    | succ i =>
      simp only [List.set_cons_succ, checkFrom, ih]
      cases checkOne policy position v with
      | error e => rfl
      | ok first => cases checkFrom policy (position + 1) (rest.set i .blank) <;> rfl

theorem sameDays_set (values : List Value) (before : i < count)
    (same : (Value.number s).day = (Value.number t).day) :
    SameDays count ⟨values.set i (.number s)⟩ ⟨values.set i (.number t)⟩ where
  days j _ := by
    by_cases there : i = j ∧ i < values.length
    · obtain ⟨rfl, inside⟩ := there
      have given : ∀ x, get? ⟨values.set i (.number x)⟩ i = some (.number x) := fun x =>
        List.getElem?_set_self inside
      rw [daySerial_of_get? (given s), daySerial_of_get? (given t), same]
    · have untouched : ∀ x, get? ⟨values.set i (.number x)⟩ j = get? ⟨values⟩ j := fun x => by
        simp only [get?, List.getElem?_set]
        split
        next here =>
          subst here
          simp only [true_and, not_lt] at there
          simp [there]
        next => rfl
      rw [daySerial, daySerial, Arguments.required, Arguments.required, untouched, untouched]
  others j after := by
    simp only [get?]
    rw [List.getElem?_set_ne (by omega), List.getElem?_set_ne (by omega)]

end Arguments

/-- A number may be replaced by one of the same day where a checked function expects a date. -/
theorem Function.call_checked_of_day {name : String} {least greatest : Nat} {policy : BooleanPolicy}
    {g : Arguments → Outcome Value} (ofDays : Arguments.OfDays count g) (before : i < count)
    (same : (Value.number s).day = (Value.number t).day) (ambient : Ambient) (drawn : Nat)
    (values : List Value) :
    (checked name least greatest policy g).call ambient drawn (values.set i (.number s)) =
      (checked name least greatest policy g).call ambient drawn (values.set i (.number t)) := by
  have computes : (Arguments.check policy (values.set i (.number s)) >>= g) =
      (Arguments.check policy (values.set i (.number t)) >>= g) := by
    simp only [Arguments.check, Arguments.checkFrom_set policy 1 values i]
    cases Arguments.checkFrom policy 1 (values.set i .blank) with
    | error e => rfl
    | ok passed => exact ofDays _ _ (Arguments.sameDays_set passed before same)
  simp only [call, checked, between, List.length_set, computes]

/-! ### Parts of dates -/

namespace Dates

variable {name : String} {f : Date → Int} (listed : part name f ∈ functions)
include listed

/-- The part of a date is computed from the date that the argument gives. -/
theorem callGives_part_of_outcome {v : Value}
    (computed : Outcome.toValue (((Arguments.date ⟨[.number s]⟩ 0).map fun d =>
      Value.number (Float.ofInt (f d))).map Value.toResult) = v) :
    Library.CallGives name [.number s] v := by
  have accepted : 1 ≤ [Value.number s].length ∧ [Value.number s].length ≤ 1 := ⟨le_rfl, le_rfl⟩
  refine ⟨_, Library.get?_of_dated (List.mem_append_left _ listed) rfl, fun ambient drawn => ?_⟩
  rw [part, Function.call_checked accepted rfl, ← computed]
  cases Arguments.date ⟨[.number s]⟩ 0 <;> rfl

theorem callGives_part {d : Date} (dated : Arguments.date ⟨[.number s]⟩ 0 = .ok d)
    (small : (f d).natAbs < 2 ^ 53) :
    Library.CallGives name [.number s] (.number (Float.ofInt (f d))) := by
  refine callGives_part_of_outcome listed ?_
  rw [dated]
  exact Function.toResult_number (isFinite_ofInt small)

end Dates

/-! ### The functions that take dates -/

/-- The functions that take dates. -/
inductive DatedFunction where
  | year
  | month
  | day
  | days
  | days360
  | edate
  | eomonth
  | yearfrac
  | coupnum
  | couppcd
  | coupncd
deriving DecidableEq

namespace DatedFunction

def name : DatedFunction → String
  | year => "YEAR"
  | month => "MONTH"
  | day => "DAY"
  | days => "DAYS"
  | days360 => "DAYS360"
  | edate => "EDATE"
  | eomonth => "EOMONTH"
  | yearfrac => "YEARFRAC"
  | coupnum => "COUPNUM"
  | couppcd => "COUPPCD"
  | coupncd => "COUPNCD"

/-- How many arguments are dates. They stand before all others. -/
def dates : DatedFunction → Nat
  | year | month | day | edate | eomonth => 1
  | days | days360 | yearfrac | coupnum | couppcd | coupncd => 2

open Arguments

theorem ofDays_part (part : Date → Int) :
    OfDays 1 (fun args => do return .number (Float.ofInt (part (← args.date 0)))) :=
  fun _ _ same => by simp only [same.date (i := 0) (by decide)]

theorem ofDays_days : OfDays 2 Dates.days := fun _ _ same => by
  simp only [Dates.days, same.days 0 (by decide), same.days 1 (by decide)]

theorem ofDays_days360 : OfDays 2 Dates.days360 := fun _ _ same => by
  simp only [Dates.days360, same.date (i := 0) (by decide), same.date (i := 1) (by decide),
    same.isSupplied (le_refl 2), same.boolean (le_refl 2)]

theorem ofDays_shifted (deliver : Date → Outcome Value) :
    OfDays 1 (fun args => do deliver (← Dates.shifted args)) := fun _ _ same => by
  simp only [Dates.shifted, same.date (i := 0) (by decide), same.number (le_refl 1)]

theorem ofDays_yearFraction : OfDays 2 Dates.yearFraction := fun _ _ same => by
  simp only [Dates.yearFraction, same.date (i := 0) (by decide), same.date (i := 1) (by decide),
    same.integerOr (le_refl 2)]

theorem ofDays_bond (f : Bond → Option Float) :
    OfDays 2 (fun args => do
      match f (← Bonds.bond args) with
      | some x => return .number x
      | none => complain .couponOutOfRange) := fun _ _ same => by
  simp only [Bonds.bond, same.date (i := 0) (by decide), same.date (i := 1) (by decide),
    same.integer (le_refl 2), same.integerOr (show 2 ≤ 3 by decide)]

/-- Each of the functions is found under its name, and looks at the days only of its dates. -/
theorem exists_checked_ofDays (f : DatedFunction) : ∃ least greatest policy g,
    Library.standard.get? f.name = some (.checked f.name least greatest policy g) ∧
      OfDays f.dates g := by
  cases f with
  | year =>
    refine ⟨1, 1, .coerce, _, Library.get?_of_dated ?_ rfl, ofDays_part Date.year⟩
    show Dates.part "YEAR" Date.year ∈ _
    simp [Dates.functions]
  | month =>
    refine ⟨1, 1, .coerce, _, Library.get?_of_dated ?_ rfl, ofDays_part fun d => d.month⟩
    show (Dates.part "MONTH" fun d => d.month) ∈ _
    simp [Dates.functions]
  | day =>
    refine ⟨1, 1, .coerce, _, Library.get?_of_dated ?_ rfl, ofDays_part fun d => d.day⟩
    show (Dates.part "DAY" fun d => d.day) ∈ _
    simp [Dates.functions]
  | days =>
    refine ⟨2, 2, .coerce, _, Library.get?_of_dated ?_ rfl, ofDays_days⟩
    simp [Dates.functions, name]
  | days360 =>
    refine ⟨2, 3, .coerce, _, Library.get?_of_dated ?_ rfl, ofDays_days360⟩
    simp [Dates.functions, name]
  | edate =>
    refine ⟨2, 2, .coerce, _, Library.get?_of_dated ?_ rfl, ofDays_shifted Dates.serialOf⟩
    simp [Dates.functions, name]
  | eomonth =>
    refine ⟨2, 2, .coerce, _, Library.get?_of_dated ?_ rfl,
      ofDays_shifted fun d => Dates.serialOf d.lastOfMonth⟩
    simp [Dates.functions, name]
  | yearfrac =>
    refine ⟨2, 3, .reject, _, Library.get?_of_dated ?_ rfl, ofDays_yearFraction⟩
    simp [Dates.functions, name]
  | coupnum =>
    refine ⟨3, 4, .reject, _, Library.get?_of_dated ?_ rfl, ofDays_bond fun b =>
      b.couponCount?.map Float.ofNat⟩
    show Bonds.ofBond "COUPNUM" (fun b => b.couponCount?.map Float.ofNat) ∈ _
    simp [Bonds.functions]
  | couppcd =>
    refine ⟨3, 4, .reject, _, Library.get?_of_dated ?_ rfl, ofDays_bond fun b =>
      b.previousCoupon?.map Date.serialNumber⟩
    show Bonds.ofBond "COUPPCD" (fun b => b.previousCoupon?.map Date.serialNumber) ∈ _
    simp [Bonds.functions]
  | coupncd =>
    refine ⟨3, 4, .reject, _, Library.get?_of_dated ?_ rfl, ofDays_bond fun b =>
      b.nextCoupon?.map Date.serialNumber⟩
    show Bonds.ofBond "COUPNCD" (fun b => b.nextCoupon?.map Date.serialNumber) ∈ _
    simp [Bonds.functions]

/-- The time of a date argument makes no difference to any function and any other arguments, unless
it is a time on the last day of the date system. Such a time stands for the day after it, which the
date system does not have. -/
theorem call_of_day (f : DatedFunction) : ∃ fn, Library.standard.get? f.name = some fn ∧
    ∀ i < f.dates, ∀ (ambient : Ambient) (drawn : Nat) (values : List Value) (s : Float),
      (¬ DuringLastDay s → fn.call ambient drawn (values.set i (.number s)) =
        fn.call ambient drawn (values.set i (.number (floor s)))) ∧
      (DuringLastDay s → fn.call ambient drawn (values.set i (.number s)) =
        fn.call ambient drawn (values.set i (.number (Float.ofInt (maxSerial + 1))))) := by
  obtain ⟨least, greatest, policy, g, found, ofDays⟩ := exists_checked_ofDays f
  refine ⟨_, found, fun i before ambient drawn values s => ⟨fun early => ?_, fun late => ?_⟩⟩
  · exact Function.call_checked_of_day ofDays before (Value.day_floor early) ambient drawn values
  · exact Function.call_checked_of_day ofDays before (Value.day_of_duringLastDay late) ambient drawn
      values

/-- In the evening of most days the year is that of the day. -/
theorem year_of_evening : ∃ fn, Library.standard.get? year.name = some fn ∧
    (¬ DuringLastDay 45292.75 ∧ ∀ ambient drawn, fn.call ambient drawn [.number 45292.75] =
      fn.call ambient drawn [.number (floor 45292.75)]) ∧
    (DuringLastDay 2958465.75 ∧ ∀ ambient drawn, fn.call ambient drawn [.number 2958465.75] =
      fn.call ambient drawn [.number (Float.ofInt (maxSerial + 1))]) := by
  obtain ⟨fn, found, same⟩ := call_of_day year
  have ordinary : ¬ DuringLastDay 45292.75 := by decide +kernel
  have last : DuringLastDay 2958465.75 := by decide +kernel
  exact ⟨fn, found,
    ⟨ordinary, fun ambient drawn => (same 0 (by decide) ambient drawn [.blank] _).1 ordinary⟩,
    ⟨last, fun ambient drawn => (same 0 (by decide) ambient drawn [.blank] _).2 last⟩⟩

/-- The last day has a year, but a time on it does not. -/
theorem no_year_of_last_evening : floor 2958465.5 = 2958465.0 ∧
    Library.CallGives "YEAR" [.number 2958465.0] (.number 9999.0) ∧
    Library.CallGives "YEAR" [.number 2958465.5] (Value.complain .serialOutOfRange) := by
  have listed : Dates.part "YEAR" Date.year ∈ Dates.functions := by simp [Dates.functions]
  have start : Date.lastInSystem.serialNumber = 2958465.0 := by decide +kernel
  have year : Float.ofInt Date.lastInSystem.year = 9999.0 := by decide +kernel
  refine ⟨by decide +kernel, ?_, ?_⟩
  · rw [← start, ← year]
    refine Dates.callGives_part listed ?_ (by decide)
    exact (Arguments.date_of_serialNumber rfl).trans (if_pos (by decide))
  · refine Dates.callGives_part_of_outcome listed ?_
    rw [Arguments.date, Arguments.daySerial_of_get? rfl, Value.day_number,
      if_pos (by decide +kernel), if_pos (by decide +kernel)]
    rfl

end DatedFunction

end Recalc
