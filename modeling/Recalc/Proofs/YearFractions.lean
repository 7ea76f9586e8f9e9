import Mathlib.Algebra.Order.Field.Basic
import Mathlib.Algebra.Order.Ring.Rat
import Mathlib.Tactic.GCongr
import Mathlib.Tactic.Linarith
import Recalc.Proofs.ThirtyDayMonths

/-!
# Fractions of a year

Read over the rational numbers, the fraction of a year between two dates is nothing from a date to
itself and grows with the later date, on every basis (`yearFraction_grows`). With a year of fixed
length it grows as the days do. By actual days and years the year gets longer when a span takes in a
leap day or another leap year, but never by more than the span itself: up to a year a span fits into
the year that it is divided by (`daysBetween_le_shortSpanYear`), beyond one it reaches the mean year
(`yearDays_le`), and a mean year grows by less than a day for each year that is added.
-/
namespace Recalc

/-! ### Years with and without a leap day -/

namespace Date

variable {a b d : Date}

theorem daysInYear_bounds (year : Int) : 365 ≤ daysInYear year ∧ daysInYear year ≤ 366 := by
  unfold daysInYear
  split <;> decide

theorem daysBeforeYear_bounds {year year' : Int} (le : year ≤ year') :
    daysBeforeYear year + 365 * (year' - year) ≤ daysBeforeYear year' ∧
      daysBeforeYear year' ≤ daysBeforeYear year + 366 * (year' - year) := by
  induction year', le using Int.leInduction with
  | base => omega
  | succ year' le ih =>
    have length := daysInYear_bounds year'
    rw [daysBeforeYear_succ]
    omega

/-- The months from March on come a day later in leap years. -/
theorem daysBeforeMonth_eq (year : Int) (month : Nat) : daysBeforeMonth year month =
    daysBeforeMonth 1 month + if isLeapYear year = true ∧ 3 ≤ month then 1 else 0 := by
  induction month with
  | zero => simp [daysBeforeMonth]
  | succ month ih =>
    cases month with
    | zero => simp [daysBeforeMonth]
    | succ month =>
      rw [daysBeforeMonth, daysBeforeMonth, ih]
      have common : isLeapYear 1 = false := rfl
      grind [daysInMonth]

/-- The number of days of a year without a leap day before the month and day of a date. -/
def commonDayOfYear (d : Date) : Nat :=
  daysBeforeMonth 1 d.month + (d.day - 1)

/-- One from March on in a leap year, else zero. -/
def leapDaysBefore (d : Date) : Nat :=
  if isLeapYear d.year = true ∧ 3 ≤ d.month then 1 else 0

def isLeapDay (d : Date) : Prop :=
  d.month = 2 ∧ d.day = 29

theorem dayOfYear_eq (d : Date) : d.dayOfYear = d.commonDayOfYear + d.leapDaysBefore := by
  unfold dayOfYear commonDayOfYear leapDaysBefore
  rw [daysBeforeMonth_eq d.year]
  omega

theorem isLeapYear_of_isLeapDay (leapDay : d.isLeapDay) : isLeapYear d.year = true := by
  have := d.day_bounds
  obtain ⟨month, day⟩ := leapDay
  grind [daysInMonth]

/-- Every other day of a month is in the month of all years. -/
theorem day_le_common (common : ¬ d.isLeapDay) : d.day ≤ daysInMonth 1 d.month := by
  have := d.day_bounds
  have short : isLeapYear 1 = false := rfl
  unfold isLeapDay at common
  unfold daysInMonth at *
  grind

/-- Months that are over have passed all their days, and the leap day counts as the next one. -/
theorem commonDayOfYear_of_month_lt (earlier : a.month < b.month) :
    a.commonDayOfYear ≤ b.commonDayOfYear ∧
      (¬ a.isLeapDay → a.commonDayOfYear < b.commonDayOfYear) := by
  have next := daysBeforeMonth_mono 1 (Nat.le_add_left 1 a.month) earlier
  rw [daysBeforeMonth_succ 1 a.month_bounds.1] at next
  have first := a.day_bounds.1
  unfold commonDayOfYear
  by_cases leapDay : a.isLeapDay
  · refine ⟨?_, absurd leapDay⟩
    have february : daysInMonth 1 2 = 28 := rfl
    rw [leapDay.1, february] at next
    rw [leapDay.1, leapDay.2]
    omega
  · have := day_le_common leapDay
    omega

end Date

namespace DayCount

variable {start stop later : Date} {basis : Basis}

theorem daysBetween_eq (start stop : Date) : start.daysBetween stop =
    Date.daysBeforeYear stop.year + (stop.commonDayOfYear + stop.leapDaysBefore : Nat) -
      (Date.daysBeforeYear start.year + (start.commonDayOfYear + start.leapDaysBefore : Nat)) := by
  rw [Date.daysBetween, Date.dayNumber_eq, Date.dayNumber_eq, Date.dayOfYear_eq, Date.dayOfYear_eq]

theorem withinOneYear_iff : withinOneYear start stop = true ↔ start.year = stop.year ∨
    start.year + 1 = stop.year ∧
      (stop.month < start.month ∨ start.month = stop.month ∧ stop.day ≤ start.day) := by
  simp only [withinOneYear, Bool.or_eq_true, Bool.and_eq_true, beq_iff_eq, decide_eq_true_eq]

theorem withinOneYear_of_le (ordered : start ≤ stop) (further : stop ≤ later)
    (within : withinOneYear start later = true) : withinOneYear start stop = true := by
  rw [Date.le_iff] at ordered further
  rw [withinOneYear_iff] at within ⊢
  omega

/-! ### Spans of at most one year -/

theorem holdsLeapDay_of_leap {year : Int} (leap : isLeapYear year = true)
    (outer : year = start.year ∨ year = stop.year)
    (after : start.year < year ∨ start.year = year ∧ start.month ≤ 2)
    (before : year < stop.year ∨ year = stop.year ∧ 3 ≤ stop.month) :
    holdsLeapDay start stop = true := by
  have years : firstYear ≤ year ∧ year ≤ lastYear := by
    rcases outer with rfl | rfl
    · exact start.year_bounds
    · exact stop.year_bounds
  have length : daysInMonth year 2 = 29 := if_pos ⟨rfl, leap⟩
  obtain ⟨leapDay, made⟩ := Date.exists_ofParts? years (by decide : 1 ≤ 2 ∧ 2 ≤ 12)
    (by omega : 1 ≤ 29 ∧ 29 ≤ daysInMonth year 2)
  obtain ⟨rfl, month, day⟩ := Date.ofParts?_eq_some_iff.mp made
  have starts : start ≤ leapDay := by
    have := start.day_bounds
    rw [Date.le_iff]
    grind
  have stops : leapDay ≤ stop := by
    rw [Date.le_iff]
    omega
  simp only [holdsLeapDay, List.any_eq_true]
  refine ⟨leapDay.year, by simpa using outer, ?_⟩
  simp [made, starts, stops]

theorem shortSpanYear_cases (start stop : Date) :
    shortSpanYear start stop = 365 ∨ shortSpanYear start stop = 366 := by
  unfold shortSpanYear
  grind

/-- Up to a year, a span fits into the year that it is divided by. -/
theorem daysBetween_le_shortSpanYear (within : withinOneYear start stop = true) :
    start.daysBetween stop ≤ shortSpanYear start stop := by
  rcases withinOneYear_iff.mp within with same | ⟨next, earlier⟩
  · have year := Date.dayNumber_lt_daysBeforeYear stop
    have begins := Date.dayNumber_eq start
    rw [Date.daysBeforeYear_succ, ← same] at year
    have length : daysInYear start.year ≤ shortSpanYear start stop := by
      grind [daysInYear, shortSpanYear]
    unfold Date.daysBetween
    omega
  · have days : stop.commonDayOfYear ≤ start.commonDayOfYear := by
      rcases earlier with months | ⟨month, days⟩
      · exact (Date.commonDayOfYear_of_month_lt months).1
      · rw [Date.commonDayOfYear, Date.commonDayOfYear, month]
        omega
    rw [daysBetween_eq, ← next, Date.daysBeforeYear_succ]
    -- a leap day of either year that the span passes is in the year length
    have passed := @holdsLeapDay_of_leap start stop
    have lengths := shortSpanYear_cases start stop
    have length : holdsLeapDay start stop = true → shortSpanYear start stop = 366 := by
      grind [shortSpanYear]
    unfold Date.leapDaysBefore daysInYear
    grind

/-! ### Spans of more than a year -/

/-- The number of years that a span touches. -/
def yearCount (start stop : Date) : Int :=
  stop.year + 1 - start.year

/-- The days of the years that a span touches. -/
def yearDays (start stop : Date) : Int :=
  Date.daysBeforeYear (stop.year + 1) - Date.daysBeforeYear start.year

theorem year_le (ordered : start ≤ stop) : start.year ≤ stop.year := by
  rw [Date.le_iff] at ordered
  omega

theorem yearDays_bounds (ordered : start ≤ stop) :
    365 * yearCount start stop ≤ yearDays start stop := by
  have years := year_le ordered
  have bounds := Date.daysBeforeYear_bounds (Int.le_add_one years)
  unfold yearCount yearDays
  omega

/-- Another year adds at most 366 days. -/
theorem yearDays_le_add (further : stop ≤ later) :
    yearDays start later ≤ yearDays start stop + 366 * (later.year - stop.year) := by
  have bounds := Date.daysBeforeYear_bounds (Int.add_le_add_right (year_le further) 1)
  unfold yearDays
  omega

theorem daysBetween_le_yearDays (start stop : Date) :
    start.daysBetween stop ≤ yearDays start stop := by
  have := Date.dayNumber_eq start
  have := Date.dayNumber_lt_daysBeforeYear stop
  unfold Date.daysBetween yearDays
  omega

/-- Another year adds a day at least. -/
theorem daysBetween_add_le (start : Date) (further : stop ≤ later) :
    start.daysBetween stop + (later.year - stop.year) ≤ start.daysBetween later := by
  have years := year_le further
  rw [Date.le_iff_dayNumber] at further
  rcases Int.lt_or_eq_of_le years with next | same
  · have bounds := Date.daysBeforeYear_bounds (Int.add_one_le_of_lt next)
    have := Date.dayNumber_lt_daysBeforeYear stop
    have := Date.dayNumber_eq later
    unfold Date.daysBetween
    omega
  · unfold Date.daysBetween
    omega

/-- Past the anniversary of its start, a span ends later in a common year as well. A leap day counts
as the first of March there, which the end may share. -/
theorem commonDayOfYear_of_beyond (next : start.year + 1 = stop.year)
    (beyond : withinOneYear start stop = false) :
    start.commonDayOfYear < stop.commonDayOfYear ∨ start.month = 2 ∧
      isLeapYear start.year = true ∧ start.commonDayOfYear ≤ stop.commonDayOfYear := by
  have later : ¬ withinOneYear start stop = true := by simp [beyond]
  rw [withinOneYear_iff] at later
  by_cases months : start.month < stop.month
  · obtain ⟨le, lt⟩ := Date.commonDayOfYear_of_month_lt months
    by_cases leapDay : start.isLeapDay
    · exact .inr ⟨leapDay.1, Date.isLeapYear_of_isLeapDay leapDay, le⟩
    · exact .inl (lt leapDay)
  · have month : start.month = stop.month := by omega
    have := start.day_bounds
    left
    unfold Date.commonDayOfYear
    rw [month]
    omega

/-- A span that passes the anniversary of its start reaches the mean of two years. -/
theorem yearDays_le_of_next (next : start.year + 1 = stop.year)
    (beyond : withinOneYear start stop = false) :
    yearDays start stop ≤ start.daysBetween stop * 2 := by
  have days := commonDayOfYear_of_beyond next beyond
  -- the day past the anniversary counts twice, which covers a leap day in each of the two years
  rw [yearDays, daysBetween_eq, ← next, Date.daysBeforeYear_succ, Date.daysBeforeYear_succ]
  unfold Date.leapDaysBefore daysInYear
  grind

/-- The whole years between the first and the last are long enough for a mean year. -/
theorem yearDays_le_of_apart (apart : start.year + 1 < stop.year) :
    yearDays start stop ≤ start.daysBetween stop * yearCount start stop := by
  let inner := Date.daysBeforeYear stop.year - Date.daysBeforeYear (start.year + 1)
  have long : 365 ≤ inner := by
    have bounds := Date.daysBeforeYear_bounds (Int.le_of_lt apart)
    omega
  have total : yearDays start stop ≤ inner + 732 := by
    have first := Date.daysInYear_bounds start.year
    have last := Date.daysInYear_bounds stop.year
    rw [yearDays, Date.daysBeforeYear_succ]
    simp only [inner, Date.daysBeforeYear_succ]
    omega
  have days : inner + 1 ≤ start.daysBetween stop := by
    have := Date.dayNumber_eq stop
    have := Date.dayNumber_lt_daysBeforeYear start
    unfold Date.daysBetween
    omega
  have count : 3 ≤ yearCount start stop := by
    unfold yearCount
    omega
  calc yearDays start stop ≤ inner + 732 := total
    _ ≤ (inner + 1) * 3 := by omega
    _ ≤ start.daysBetween stop * yearCount start stop := by gcongr; omega

/-- Beyond a year, a span reaches the mean of the years that it touches. -/
theorem yearDays_le (ordered : start ≤ stop) (beyond : withinOneYear start stop = false) :
    yearDays start stop ≤ start.daysBetween stop * yearCount start stop := by
  have years := year_le ordered
  have other : start.year ≠ stop.year := fun same => by simp [withinOneYear, same] at beyond
  by_cases next : start.year + 1 = stop.year
  · have count : yearCount start stop = 2 := by
      unfold yearCount
      omega
    rw [count]
    exact yearDays_le_of_next next beyond
  · exact yearDays_le_of_apart (by omega)

/-- The days of a span, none more than those of its years, grow faster than the mean of the years if
each further year brings a day and no more than 366 days to the years. -/
private theorem mul_mean_le {days days' years added total total' : Int} (nonneg : 0 ≤ days)
    (pos : 0 < years) (more : 0 ≤ added) (least : 365 * years ≤ total) (fits : days ≤ total)
    (longer : days + added ≤ days') (length : total' ≤ total + 366 * added) :
    days * years * total' ≤ days' * (years + added) * total := by
  have positive : 0 ≤ total := nonneg.trans fits
  have excess : 365 * years * (days * added) ≤ total * (days * added) := by gcongr
  have share : days * (years * added) ≤ total * (years * added) := by gcongr
  have rest : 0 ≤ added * added * total := by positivity
  calc days * years * total'
      ≤ days * years * (total + 366 * added) := by gcongr
    _ = days * years * total + 365 * years * (days * added) + days * (years * added) := by ring
    _ ≤ days * years * total + total * (days * added) + total * (years * added)
          + added * added * total := by omega
    _ = (days + added) * (years + added) * total := by ring
    _ ≤ days' * (years + added) * total := by gcongr

theorem daysBetween_nonneg (ordered : start ≤ stop) : 0 ≤ start.daysBetween stop := by
  rw [Date.le_iff_dayNumber] at ordered
  unfold Date.daysBetween
  omega

/-- From one span to a longer one, the days grow faster than the mean year. -/
theorem mean_le_mean (ordered : start ≤ stop) (further : stop ≤ later) :
    start.daysBetween stop * yearCount start stop * yearDays start later ≤
      start.daysBetween later * yearCount start later * yearDays start stop := by
  have years := year_le ordered
  have years' := year_le further
  have count : yearCount start later = yearCount start stop + (later.year - stop.year) := by
    unfold yearCount
    omega
  rw [count]
  exact mul_mean_le (daysBetween_nonneg ordered) (by unfold yearCount; omega) (by omega)
    (yearDays_bounds ordered) (daysBetween_le_yearDays start stop) (daysBetween_add_le start further)
    (yearDays_le_add further)

/-! ### Days and years of a basis -/

theorem foldl_daysInYear (first : Int) (n : Nat) :
    ((((List.range n).map fun (i : Nat) => first + i).foldl
      (fun days year => days + daysInYear year) 0 : Nat) : Int) =
      Date.daysBeforeYear (first + n) - Date.daysBeforeYear first := by
  induction n with
  | zero => simp
  | succ n ih =>
    rw [List.range_succ, List.map_append, List.foldl_append, List.map_singleton, List.foldl_cons,
      List.foldl_nil, Int.natCast_add, ih, Int.natCast_succ, ← Int.add_assoc,
      Date.daysBeforeYear_succ]
    omega

theorem daysAndYear_within (within : withinOneYear start stop = true) :
    daysAndYear start stop .actualActual =
      (start.daysBetween stop, .ofDays (shortSpanYear start stop)) :=
  if_pos within

theorem exists_daysAndYear_beyond (ordered : start ≤ stop)
    (beyond : withinOneYear start stop = false) :
    ∃ year : YearLength, daysAndYear start stop .actualActual = (start.daysBetween stop, year) ∧
      year.days = yearDays start stop ∧ year.years = yearCount start stop := by
  have years := year_le ordered
  refine ⟨_, if_neg (by simp [beyond]), ?_, ?_⟩
  · rw [yearsFrom, foldl_daysInYear, yearDays]
    congr 2
    omega
  · show (((yearsFrom start.year stop.year).length : Nat) : Int) = _
    rw [yearsFrom, List.length_map, List.length_range, yearCount]
    omega

/-- Whether one count of days and years is at most another, compared without dividing. -/
def AtMost (counted counted' : Int × YearLength) : Prop :=
  counted.1 * counted.2.years * counted'.2.days ≤ counted'.1 * counted'.2.years * counted.2.days

/-- In years of one fixed length, more days are at least as many years. -/
theorem atMost_ofDays {days days' : Int} (more : days ≤ days') (length : Nat) :
    AtMost (days, .ofDays length) (days', .ofDays length) := by
  show days * 1 * (length : Int) ≤ days' * 1 * (length : Int)
  rw [Int.mul_one, Int.mul_one]
  gcongr

theorem daysAndYear_pos (ordered : start ≤ stop) (basis : Basis) :
    0 < (daysAndYear start stop basis).2.days ∧ 0 < (daysAndYear start stop basis).2.years := by
  cases basis with
  | actualActual =>
    cases within : withinOneYear start stop with
    | true =>
      have := shortSpanYear_cases start stop
      rw [daysAndYear_within within]
      exact ⟨by show 0 < shortSpanYear start stop; omega, Nat.one_pos⟩
    | false =>
      obtain ⟨year, counted, days, years⟩ := exists_daysAndYear_beyond ordered within
      have := year_le ordered
      have := yearDays_bounds ordered
      rw [counted]
      unfold yearCount at *
      dsimp only
      omega
  | us30360 | european30360 | actual360 | actual365 => exact ⟨Nat.succ_pos _, Nat.one_pos⟩

/-- Within a year, the year is longer at most by the leap day that the span has taken in. -/
theorem atMost_within (ordered : start ≤ stop) (further : stop ≤ later)
    (within : withinOneYear start later = true) :
    AtMost (daysAndYear start stop .actualActual) (daysAndYear start later .actualActual) := by
  have within' := withinOneYear_of_le ordered further within
  have longer := daysBetween_add_le start further
  have years := year_le further
  have nonneg := daysBetween_nonneg ordered
  have fits := daysBetween_le_shortSpanYear within'
  have lengths := shortSpanYear_cases start stop
  have lengths' := shortSpanYear_cases start later
  have apart : shortSpanYear start stop ≠ shortSpanYear start later →
      start.daysBetween stop ≠ start.daysBetween later := fun differ same => by
    unfold Date.daysBetween at same
    obtain rfl : stop = later := Date.dayNumber_inj.mp (by omega)
    exact differ rfl
  rw [daysAndYear_within within', daysAndYear_within within]
  show start.daysBetween stop * 1 * (shortSpanYear start later : Int) ≤
    start.daysBetween later * 1 * (shortSpanYear start stop : Int)
  rcases lengths with length | length <;> rcases lengths' with length' | length' <;>
    simp only [length, length'] at fits apart ⊢ <;> omega

/-- A span is at most a whole year before the border of one year, at least a mean year after. -/
theorem atMost_across (ordered : start ≤ stop) (further : stop ≤ later)
    (within : withinOneYear start stop = true) (beyond : withinOneYear start later = false) :
    AtMost (daysAndYear start stop .actualActual) (daysAndYear start later .actualActual) := by
  have ordered' := Date.le_trans ordered further
  obtain ⟨year, counted, days, years⟩ := exists_daysAndYear_beyond ordered' beyond
  have fits := daysBetween_le_shortSpanYear within
  have reaches := yearDays_le ordered' beyond
  have least := yearDays_bounds ordered'
  have := year_le ordered'
  rw [daysAndYear_within within, counted]
  show start.daysBetween stop * 1 * (year.days : Int) ≤
    start.daysBetween later * (year.years : Int) * (shortSpanYear start stop : Int)
  rw [days, years, Int.mul_one, Int.mul_comm _ (shortSpanYear start stop : Int)]
  exact Int.mul_le_mul fits reaches (by unfold yearCount at *; omega) (by omega)

theorem atMost_beyond (ordered : start ≤ stop) (further : stop ≤ later)
    (beyond : withinOneYear start stop = false) (beyond' : withinOneYear start later = false) :
    AtMost (daysAndYear start stop .actualActual) (daysAndYear start later .actualActual) := by
  obtain ⟨year, counted, days, years⟩ := exists_daysAndYear_beyond ordered beyond
  obtain ⟨year', counted', days', years'⟩ :=
    exists_daysAndYear_beyond (Date.le_trans ordered further) beyond'
  rw [counted, counted']
  show start.daysBetween stop * (year.years : Int) * (year'.days : Int) ≤
    start.daysBetween later * (year'.years : Int) * (year.days : Int)
  rw [days, years, days', years']
  exact mean_le_mean ordered further

theorem daysAndYear_atMost (ordered : start ≤ stop) (further : stop ≤ later) (basis : Basis) :
    AtMost (daysAndYear start stop basis) (daysAndYear start later basis) := by
  have actual : start.daysBetween stop ≤ start.daysBetween later := by
    have := daysBetween_add_le start further
    have := year_le further
    omega
  -- years of fixed length cancel out
  cases basis with
  | us30360 => exact atMost_ofDays (us_mono start further) 360
  | european30360 => exact atMost_ofDays (european_mono start further) 360
  | actual360 => exact atMost_ofDays actual 360
  | actual365 => exact atMost_ofDays actual 365
  | actualActual =>
    cases beyond' : withinOneYear start later with
    | true => exact atMost_within ordered further beyond'
    | false =>
      cases beyond : withinOneYear start stop with
      | true => exact atMost_across ordered further beyond beyond'
      | false => exact atMost_beyond ordered further beyond beyond'

/-! ### Fractions -/

theorem yearFraction_of_le (ordered : start ≤ stop) (basis : Basis) :
    (yearFraction start stop basis : ℚ) =
      (daysAndYear start stop basis).1 / (daysAndYear start stop basis).2.quotient := by
  rw [yearFraction, DayCount.ordered, if_pos ordered]

theorem quotient_le_quotient {counted counted' : Int × YearLength}
    (atMost : AtMost counted counted')
    (pos : 0 < counted.2.days ∧ 0 < counted.2.years)
    (pos' : 0 < counted'.2.days ∧ 0 < counted'.2.years) :
    (counted.1 / counted.2.quotient : ℚ) ≤ counted'.1 / counted'.2.quotient := by
  have days : (0 : ℚ) < (counted.2.days : Int) := by exact_mod_cast pos.1
  have days' : (0 : ℚ) < (counted'.2.days : Int) := by exact_mod_cast pos'.1
  rw [YearLength.quotient, YearLength.quotient, div_div_eq_mul_div, div_div_eq_mul_div,
    div_le_div_iff₀ days days']
  exact_mod_cast atMost

theorem yearFraction_self (d : Date) (basis : Basis) : (yearFraction d d basis : ℚ) = 0 := by
  have none : d.daysBetween d = 0 := Int.sub_self _
  have nothing : (daysAndYear d d basis).1 = 0 := by
    cases basis with
    | us30360 => exact us_self d
    | european30360 => exact european_self d
    | actual360 | actual365 => exact none
    | actualActual =>
      rw [daysAndYear_within (withinOneYear_iff.mpr (.inl rfl))]
      exact none
  rw [yearFraction_of_le (Date.le_iff.mpr (by omega)), nothing, Int.cast_zero, zero_div]

theorem yearFraction_mono (ordered : start ≤ stop) (further : stop ≤ later) (basis : Basis) :
    (yearFraction start stop basis : ℚ) ≤ yearFraction start later basis := by
  have ordered' := Date.le_trans ordered further
  rw [yearFraction_of_le ordered, yearFraction_of_le ordered']
  exact quotient_le_quotient (daysAndYear_atMost ordered further basis)
    (daysAndYear_pos ordered basis) (daysAndYear_pos ordered' basis)

/-- On every basis, the fraction of a year from a date to itself is nothing, to a later date it is
not negative, and it does not fall when the later date moves on. -/
theorem yearFraction_grows (basis : Basis) (ordered : start ≤ stop) (further : stop ≤ later) :
    (yearFraction start start basis : ℚ) = 0 ∧ (0 : ℚ) ≤ yearFraction start stop basis ∧
      (yearFraction start stop basis : ℚ) ≤ yearFraction start later basis := by
  have begins : start ≤ start := Date.le_iff.mpr (by omega)
  refine ⟨yearFraction_self start basis, ?_, yearFraction_mono ordered further basis⟩
  rw [← yearFraction_self start basis]
  exact yearFraction_mono begins ordered basis

/-- By actual days and years, the year gets longer on the leap day that a span takes in. -/
theorem year_grows_on_leap_day :
    let start : Date := ⟨2011, 7, 1, by decide, by decide, by decide⟩
    let stop : Date := ⟨2012, 2, 28, by decide, by decide, by decide⟩
    let later : Date := ⟨2012, 2, 29, by decide, by decide, by decide⟩
    daysAndYear start stop .actualActual = (242, ⟨365, 1⟩) ∧
      daysAndYear start later .actualActual = (243, ⟨366, 1⟩) ∧
      (yearFraction start stop .actualActual : ℚ) ≤ yearFraction start later .actualActual := by
  intro start stop later
  exact ⟨by decide, by decide, (yearFraction_grows .actualActual (by decide) (by decide)).2.2⟩

end DayCount

end Recalc
