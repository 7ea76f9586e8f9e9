import Recalc.Calendar.DayCount
import Recalc.Proofs.DateValues

/-!
# Months of thirty days

Counted with months of thirty days, a span is the distance of two places on one scale, on which a
later date never stands before an earlier one (`us_mono`, `european_mono`). The count of a worksheet
keeps to that scale, because an end that rolls into the next month stays where it was. It lacks one
rule of the US count: a span from the last of February to itself comes out negative
(`worksheet_neg_iff`).
-/
namespace Recalc.DayCount

variable {start stop later : Date} {byEuropean : Bool}

/-- Where a day of the month of a date stands if all months have thirty days. -/
def place (d : Date) (day : Nat) : Int :=
  30 * d.monthIndex + day

theorem thirtyDayMonths_eq (start stop : Date) (startDay stopDay : Nat) :
    thirtyDayMonths start.year start.month startDay stop.year stop.month stopDay =
      place stop stopDay - place start startDay := by
  have := start.month_bounds
  have := stop.month_bounds
  unfold thirtyDayMonths place Date.monthIndex
  omega

/-- Days from the first to the 31st stand in the order of the dates. -/
theorem place_le_place (ordered : start ≤ stop) {day day' : Nat} (early : day ≤ 31)
    (late : 1 ≤ day')
    (within : start.monthIndex = stop.monthIndex → start.day ≤ stop.day → day ≤ day') :
    place start day ≤ place stop day' := by
  have order : ¬ stop < start := ordered
  rw [Date.lt_iff_monthIndex] at order
  unfold place
  by_cases same : start.monthIndex = stop.monthIndex
  · have := within same (by omega)
    omega
  · -- the 31st of a month stands where the first of the next one does
    omega

/-! ### The European count -/

theorem european_eq (start stop : Date) :
    european start stop = place stop (min stop.day 30) - place start (min start.day 30) :=
  thirtyDayMonths_eq ..

theorem european_self (d : Date) : european d d = 0 := by
  rw [european_eq, Int.sub_self]

theorem european_mono (start : Date) (ordered : stop ≤ later) :
    european start stop ≤ european start later := by
  have := stop.day_bounds
  have := later.day_bounds
  have places : place stop (min stop.day 30) ≤ place later (min later.day 30) :=
    place_le_place ordered (by omega) (by omega) (by omega)
  rw [european_eq, european_eq]
  omega

/-! ### The US count -/

/-- The day that the US count starts from. -/
def usStartDay (d : Date) : Nat :=
  if d.isLastOfFebruary ∨ d.day = 31 then 30 else d.day

/-- The day that the US count ends on. -/
def usStopDay (start stop : Date) : Nat :=
  if start.isLastOfFebruary ∧ stop.isLastOfFebruary ∨ stop.day = 31 ∧ 30 ≤ usStartDay start then 30
  else stop.day

theorem isLastOfFebruary_iff {d : Date} :
    d.isLastOfFebruary = true ↔ d.month = 2 ∧ d.day = daysInMonth d.year 2 := by
  simp only [Date.isLastOfFebruary, Date.isLastOfMonth, Bool.and_eq_true, beq_iff_eq]
  exact and_congr_right fun february => by rw [february]

theorem daysInMonth_two (year : Int) : 28 ≤ daysInMonth year 2 ∧ daysInMonth year 2 ≤ 29 := by
  unfold daysInMonth
  split <;> simp

/-- The last of February is not the 31st, so no day is moved twice. -/
theorem day_lt_of_isLastOfFebruary {d : Date} (last : d.isLastOfFebruary = true) : d.day < 30 := by
  have := daysInMonth_two d.year
  have := isLastOfFebruary_iff.mp last
  omega

theorem us_eq (start stop : Date) :
    us start stop = place stop (usStopDay start stop) - place start (usStartDay start) := by
  rw [← thirtyDayMonths_eq]
  -- a day that was moved from the last of February does not stand on the 31st
  have moved := @day_lt_of_isLastOfFebruary start
  have moved' := @day_lt_of_isLastOfFebruary stop
  simp only [us, usStopDay, usStartDay]
  congr 1 <;> grind

theorem us_self (d : Date) : us d d = 0 := by
  have same : usStopDay d d = usStartDay d := by
    grind [usStopDay, usStartDay]
  rw [us_eq, same, Int.sub_self]

theorem usStopDay_le_usStopDay (month : stop.monthIndex = later.monthIndex)
    (days : stop.day ≤ later.day) : usStopDay start stop ≤ usStopDay start later := by
  have := stop.day_le
  have := stop.month_bounds
  have := later.month_bounds
  have := later.day_bounds
  obtain ⟨year, month⟩ : stop.year = later.year ∧ stop.month = later.month := by
    unfold Date.monthIndex at month
    omega
  have := @day_lt_of_isLastOfFebruary later
  -- within its month, nothing comes after the last of February
  have stays : stop.isLastOfFebruary = true → later.isLastOfFebruary = true := by
    simp only [isLastOfFebruary_iff]
    grind
  unfold usStopDay
  grind

theorem us_mono (start : Date) (ordered : stop ≤ later) : us start stop ≤ us start later := by
  have := stop.day_le
  have := later.day_bounds
  have places : place stop (usStopDay start stop) ≤ place later (usStopDay start later) :=
    place_le_place ordered (by grind [usStopDay]) (by grind [usStopDay]) usStopDay_le_usStopDay
  rw [us_eq, us_eq]
  omega

/-! ### The count of a worksheet -/

/-- An end that rolls into the next month stands on the 31st all the same. -/
theorem usRolling_eq (start stop : Date) : usRolling start stop =
    place stop (if stop.day = 31 ∧ 30 ≤ usStartDay start then 30 else stop.day)
      - place start (usStartDay start) := by
  have startDay : (if start.day = 31 ∨ start.isLastOfFebruary then 30 else start.day) =
      usStartDay start := by
    simp only [usStartDay, or_comm]
  rw [← thirtyDayMonths_eq, usRolling, startDay]
  -- to roll into the next month, or into January, adds thirty days and takes thirty off
  unfold thirtyDayMonths
  grind

/-- The US rule on two ends of February is what the count of a worksheet lacks. -/
theorem usRolling_eq_us (start stop : Date) : usRolling start stop = us start stop -
    if start.isLastOfFebruary ∧ stop.isLastOfFebruary then 30 - (stop.day : Int) else 0 := by
  have moved := @day_lt_of_isLastOfFebruary stop
  rw [usRolling_eq, us_eq]
  unfold usStopDay place
  grind

theorem worksheet_self (d : Date) (byEuropean : Bool) : worksheet d d byEuropean =
    if byEuropean = false ∧ d.isLastOfFebruary = true then (d.day : Int) - 30 else 0 := by
  cases byEuropean with
  | true => exact european_self d
  | false =>
    show usRolling d d = _
    rw [usRolling_eq_us, us_self]
    grind

/-- The ends of February of different years are years apart. -/
theorem us_february (ordered : start < stop) (last : start.isLastOfFebruary = true)
    (last' : stop.isLastOfFebruary = true) : 360 ≤ us start stop := by
  have starts := isLastOfFebruary_iff.mp last
  have stops := isLastOfFebruary_iff.mp last'
  rw [us_eq]
  -- both ends are moved to the 30th of February, so that only the years differ
  unfold place usStartDay usStopDay Date.monthIndex
  grind [Date.lt_iff]

/-- A span forward in time is negative for one pair of dates only: the last of February twice. -/
theorem worksheet_neg_iff (ordered : start ≤ stop) : worksheet start stop byEuropean < 0 ↔
    byEuropean = false ∧ start = stop ∧ start.isLastOfFebruary = true := by
  constructor
  · intro negative
    cases byEuropean with
    | true =>
      have nonneg := european_mono start ordered
      rw [european_self] at nonneg
      exact absurd negative (Int.not_lt.mpr nonneg)
    | false =>
      have nonneg := us_mono start ordered
      rw [us_self] at nonneg
      change usRolling start stop < 0 at negative
      rw [usRolling_eq_us] at negative
      by_cases ends : start.isLastOfFebruary ∧ stop.isLastOfFebruary
      · rw [if_pos ends] at negative
        refine ⟨rfl, ?_, ends.1⟩
        rcases Date.lt_trichotomy start stop with before | same | after
        · have years := us_february before ends.1 ends.2
          omega
        · exact same
        · exact absurd after ordered
      · rw [if_neg ends] at negative
        omega
  · rintro ⟨rfl, rfl, last⟩
    have := day_lt_of_isLastOfFebruary last
    rw [worksheet_self, if_pos ⟨rfl, last⟩]
    omega

theorem natAbs_place_lt (d : Date) (day : Nat) (within : day ≤ 31) :
    (place d day).natAbs < 2 ^ 52 := by
  obtain ⟨years, years'⟩ := d.year_bounds
  obtain ⟨months, months'⟩ := d.month_bounds
  unfold firstYear lastYear at *
  unfold place Date.monthIndex
  omega

/-- All counts are small numbers. -/
theorem natAbs_worksheet_lt (start stop : Date) (byEuropean : Bool) :
    (worksheet start stop byEuropean).natAbs < 2 ^ 53 := by
  have := start.day_le
  have := stop.day_le
  cases byEuropean with
  | true =>
    have first := natAbs_place_lt start (min start.day 30) (by omega)
    have last := natAbs_place_lt stop (min stop.day 30) (by omega)
    show (european start stop).natAbs < _
    rw [european_eq]
    omega
  | false =>
    have first := natAbs_place_lt start (usStartDay start) (by grind [usStartDay])
    have last := natAbs_place_lt stop
      (if stop.day = 31 ∧ 30 ≤ usStartDay start then 30 else stop.day) (by grind)
    show (usRolling start stop).natAbs < _
    rw [usRolling_eq]
    omega

end Recalc.DayCount

namespace Recalc.Dates

variable {args : Arguments} {values : List Value} {start stop : Date} {byEuropean : Bool}

theorem days360_of_arguments (starts : args.date 0 = .ok start) (stops : args.date 1 = .ok stop)
    (method : (if args.isSupplied 2 then args.boolean 2 else .ok false) = .ok byEuropean) :
    days360 args = .ok (.number (Float.ofInt (DayCount.worksheet start stop byEuropean))) := by
  simp only [days360, starts, stops, bind, Except.bind]
  split at method
  next supplied =>
    rw [if_pos supplied, method]
    rfl
  next left_out =>
    cases method
    rw [if_neg left_out]
    rfl

theorem callGives_days360 (accepted : 2 ≤ values.length ∧ values.length ≤ 3)
    (passed : Arguments.check .coerce values = .ok args) (starts : args.date 0 = .ok start)
    (stops : args.date 1 = .ok stop)
    (method : (if args.isSupplied 2 then args.boolean 2 else .ok false) = .ok byEuropean) :
    Library.CallGives "DAYS360" values
      (.number (Float.ofInt (DayCount.worksheet start stop byEuropean))) := by
  let f := Function.checked "DAYS360" 2 3 .coerce days360
  refine ⟨f, Library.get?_standard (f := f) ?_, fun ambient drawn => ?_⟩
  · simp only [Library.standardFunctions, List.mem_append]
    simp [f, functions]
  · rw [Function.call_checked accepted passed, days360_of_arguments starts stops method]
    exact congrArg (·, drawn) (Function.toResult_number
      (Number.isFinite_ofInt (DayCount.natAbs_worksheet_lt start stop byEuropean)))

/-- For all arguments that are dates in order, either method counts a number of days. It is not
negative, and zero if the dates are equal, unless the US method counts from the last of February to
itself: that comes out as the days by which this month falls short of thirty, below zero. -/
theorem days360_counts (accepted : 2 ≤ values.length ∧ values.length ≤ 3)
    (passed : Arguments.check .coerce values = .ok args) (starts : args.date 0 = .ok start)
    (stops : args.date 1 = .ok stop)
    (method : (if args.isSupplied 2 then args.boolean 2 else .ok false) = .ok byEuropean)
    (ordered : start ≤ stop) :
    ∃ days : Int, Library.CallGives "DAYS360" values (.number (Float.ofInt days)) ∧
      (days < 0 ↔ byEuropean = false ∧ start = stop ∧ start.isLastOfFebruary = true) ∧
      (start = stop → days =
        if byEuropean = false ∧ start.isLastOfFebruary = true then (start.day : Int) - 30 else 0) :=
  ⟨_, callGives_days360 accepted passed starts stops method, DayCount.worksheet_neg_iff ordered,
    fun same => same ▸ DayCount.worksheet_self start byEuropean⟩

/-- By the European method, there is no day from the last of February to itself. -/
theorem european_last_of_february :
    let d : Date := ⟨2011, 2, 28, by decide, by decide, by decide⟩
    Library.CallGives "DAYS360" [.number d.serialNumber, .number d.serialNumber, .boolean true]
      (.number (Float.ofInt 0)) := by
  intro d
  let values : List Value := [.number d.serialNumber, .number d.serialNumber, .boolean true]
  have first : Arguments.date ⟨values⟩ 0 = .ok d :=
    (Arguments.date_of_serialNumber rfl).trans (if_pos (by decide))
  have second : Arguments.date ⟨values⟩ 1 = .ok d :=
    (Arguments.date_of_serialNumber rfl).trans (if_pos (by decide))
  have method : (if Arguments.isSupplied ⟨values⟩ 2 then Arguments.boolean ⟨values⟩ 2
    else .ok false) = .ok true := rfl
  obtain ⟨days, gives, -, zero⟩ :=
    days360_counts (by decide) (rfl : Arguments.check .coerce values = _) first second method
      (by decide)
  obtain rfl : days = 0 := zero rfl
  exact gives

/-- By the US method, the last of February lies two days before itself. -/
theorem us_last_of_february :
    let d : Date := ⟨2011, 2, 28, by decide, by decide, by decide⟩
    d ≤ d ∧ d.serial = 40602 ∧
      Library.CallGives "DAYS360" [.number (Float.ofInt 40602), .number (Float.ofInt 40602)]
        (.number (Float.ofInt (-2))) := by
  intro d
  have serial : d.serial = 40602 := by decide
  let values : List Value := [.number d.serialNumber, .number d.serialNumber]
  have first : Arguments.date ⟨values⟩ 0 = .ok d :=
    (Arguments.date_of_serialNumber rfl).trans (if_pos (by decide))
  have second : Arguments.date ⟨values⟩ 1 = .ok d :=
    (Arguments.date_of_serialNumber rfl).trans (if_pos (by decide))
  have count : DayCount.worksheet d d false = -2 := by decide
  have method : (if Arguments.isSupplied ⟨values⟩ 2 then Arguments.boolean ⟨values⟩ 2
    else .ok false) = .ok false := rfl
  have gives :=
    callGives_days360 (by decide) (rfl : Arguments.check .coerce values = _) first second method
  simp only [values, count, Date.serialNumber, serial] at gives
  exact ⟨by decide, serial, gives⟩

end Recalc.Dates
