import Recalc.Calendar.Date
import Recalc.ErrorValue

/-!
# Day counts

The conventions that turn a span of dates into days and a year length. Both are whole numbers or
quotients of whole numbers, and they are divided in any kind of number that has the integers, so that
a fraction of a year can be read exactly as well as rounded.
-/

namespace Recalc

instance instIntCastFloat : IntCast Float where
  intCast := Float.ofInt

/-- A convention for counting days and the length of a year. -/
inductive Basis where
  | us30360
  | actualActual
  | actual360
  | actual365
  | european30360
deriving DecidableEq, Repr

/-- The basis of a code from zero to four. -/
def Basis.ofCode (code : Int) : Except CellError Basis :=
  match code with
  | 0 => .ok us30360
  | 1 => .ok actualActual
  | 2 => .ok actual360
  | 3 => .ok actual365
  | 4 => .ok european30360
  | _ => .error (Complaint.unknownBasis code).error

namespace DayCount

/-- The days between two dates given by their parts, with months of thirty days. -/
def thirtyDayMonths (startYear : Int) (startMonth startDay : Nat)
    (stopYear : Int) (stopMonth stopDay : Nat) : Int :=
  360 * (stopYear - startYear) + 30 * ((stopMonth : Int) - startMonth)
    + ((stopDay : Int) - startDay)

/-- The US count of thirty-day months: the last of February and the 31st count as the 30th, the end
day only if the start day has moved or stands on the 30th. -/
def us (start stop : Date) : Int :=
  let february := start.isLastOfFebruary
  let startDay := if february then 30 else start.day
  let stopDay := if february && stop.isLastOfFebruary then 30 else stop.day
  let stopDay := if stopDay = 31 ∧ 30 ≤ startDay then 30 else stopDay
  let startDay := if startDay = 31 then 30 else startDay
  thirtyDayMonths start.year start.month startDay stop.year stop.month stopDay

/-- The European count of thirty-day months: the 31st counts as the 30th. -/
def european (start stop : Date) : Int :=
  thirtyDayMonths start.year start.month (min start.day 30) stop.year stop.month (min stop.day 30)

/-- The US count in which an end on the 31st rolls into the next month if the start lies before the
30th. -/
def usRolling (start stop : Date) : Int :=
  let startDay := if start.day = 31 ∨ start.isLastOfFebruary then 30 else start.day
  if stop.day = 31 then
    if startDay < 30 then
      if stop.month = 12 then
        thirtyDayMonths start.year start.month startDay (stop.year + 1) 1 1
      else thirtyDayMonths start.year start.month startDay stop.year (stop.month + 1) 1
    else thirtyDayMonths start.year start.month startDay stop.year stop.month 30
  else thirtyDayMonths start.year start.month startDay stop.year stop.month stop.day

/-- The count of thirty-day months of a worksheet, by either method. -/
def worksheet (start stop : Date) (byEuropean : Bool) : Int :=
  if byEuropean then european start stop else usRolling start stop

/-- The mean length of some years: their days over their number. -/
structure YearLength where
  days : Nat
  years : Nat
deriving DecidableEq, Repr

def YearLength.ofDays (days : Nat) : YearLength :=
  ⟨days, 1⟩

/-- The length as a number. -/
def YearLength.quotient {α : Type} [IntCast α] [Div α] (y : YearLength) : α :=
  ((y.days : Int) : α) / ((y.years : Int) : α)

def YearLength.toFloat (y : YearLength) : Float :=
  y.quotient

/-- Whether a 29th of February of the first or the last year lies in a span. -/
def holdsLeapDay (start stop : Date) : Bool :=
  [start.year, stop.year].any fun year =>
    match Date.ofParts? year 2 29 with
    | some leapDay => start ≤ leapDay && leapDay ≤ stop
    | none => false

/-- The length of the year of a span of at most one year. -/
def shortSpanYear (start stop : Date) : Nat :=
  if start.year = stop.year ∧ isLeapYear start.year then 366
  else if holdsLeapDay start stop ∨ (stop.month = 2 ∧ stop.day = 29) then 366
  else 365

/-- Whether a span lies in one year, or ends in the next year on or before the day it starts on. -/
def withinOneYear (start stop : Date) : Bool :=
  start.year == stop.year
    || (start.year + 1 == stop.year
      && (stop.month < start.month || (start.month == stop.month && stop.day ≤ start.day)))

/-- The years from `first` to `last`. -/
def yearsFrom (first last : Int) : List Int :=
  (List.range (last + 1 - first).toNat).map fun (i : Nat) => first + i

/-- The days of a span and the year length that go with a basis. -/
def daysAndYear (start stop : Date) (basis : Basis) : Int × YearLength :=
  let actual := start.daysBetween stop
  match basis with
  | .us30360 => (us start stop, .ofDays 360)
  | .european30360 => (european start stop, .ofDays 360)
  | .actual360 => (actual, .ofDays 360)
  | .actual365 => (actual, .ofDays 365)
  | .actualActual =>
    if withinOneYear start stop then (actual, .ofDays (shortSpanYear start stop))
    else
      let years := yearsFrom start.year stop.year
      (actual, ⟨years.foldl (fun days year => days + daysInYear year) 0, years.length⟩)

/-- The span of two dates, the earlier one first. -/
def ordered (a b : Date) : Date × Date :=
  if a ≤ b then (a, b) else (b, a)

/-- The part of a year between two dates, in either order. -/
def yearFraction {α : Type} [IntCast α] [Div α] (a b : Date) (basis : Basis) : α :=
  let (start, stop) := ordered a b
  let (days, year) := daysAndYear start stop basis
  (days : α) / year.quotient

end DayCount

end Recalc
