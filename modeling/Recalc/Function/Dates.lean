import Recalc.Calendar.DayCount
import Recalc.Function.Basic

/-!
# Date functions

Computed dates must have a serial within the date system; all others are `#NUM!`.
-/

namespace Recalc.Dates

def serialOf (d : Date) : Outcome Value :=
  if 0 ≤ d.serial ∧ d.serial ≤ maxSerial then .ok (.number d.serialNumber)
  else complain .dateOutOfRange

/-- A year argument: those before 1900 count from there. -/
def fullYear (year : Int) : Outcome Int :=
  let year := if 0 ≤ year ∧ year < 1900 then year + 1900 else year
  if 1900 ≤ year ∧ year ≤ 9999 then .ok year else complain .yearOutOfRange

/-- The date `months - 1` months and `days - 1` days after the start of a year. -/
def dateOfParts? (year months days : Int) : Option Date := do
  let start ← Date.ofParts? year 1 1
  let month ← start.addMonths? (months - 1)
  month.addDays? (days - 1)

def date (args : Arguments) : Outcome Value := do
  let year ← args.integer 0
  let month ← args.integer 1
  let day ← args.integer 2
  let year ← fullYear year
  match dateOfParts? year month day with
  | some d => serialOf d
  | none => complain .dateOutOfRange

/-- A date argument shifted by a month argument that is rounded toward zero. -/
def shifted (args : Arguments) : Outcome Date := do
  let start ← args.date 0
  let months ← args.number 1
  match start.addMonths? (Number.toInt64 months) with
  | some d => return d
  | none => refuse .number

/-- A part of a date argument. -/
def part (name : String) (f : Date → Int) : Function :=
  .checked name 1 1 .coerce fun args => do return .number (Float.ofInt (f (← args.date 0)))

def days (args : Arguments) : Outcome Value := do
  let stop ← args.daySerial 0
  let start ← args.daySerial 1
  return .number (stop - start)

def days360 (args : Arguments) : Outcome Value := do
  let start ← args.date 0
  let stop ← args.date 1
  let byEuropean ← if args.isSupplied 2 then args.boolean 2 else .ok false
  return .number (Float.ofInt (DayCount.worksheet start stop byEuropean))

def yearFraction (args : Arguments) : Outcome Value := do
  let start ← args.date 0
  let stop ← args.date 1
  let basis ← Basis.ofCode (← args.integerOr 2 0)
  return .number (DayCount.yearFraction start stop basis)

def functions : List Function := [
  .checked "DATE" 3 3 .coerce date,
  part "YEAR" Date.year,
  part "MONTH" fun d => d.month,
  part "DAY" fun d => d.day,
  .checked "DAYS" 2 2 .coerce days,
  .checked "DAYS360" 2 3 .coerce days360,
  .checked "EDATE" 2 2 .coerce fun args => do serialOf (← shifted args),
  .checked "EOMONTH" 2 2 .coerce fun args => do serialOf (← shifted args).lastOfMonth,
  .checked "YEARFRAC" 2 3 .reject yearFraction,
  ⟨"TODAY", 0, some 0, .ofClock fun now => .ok (.number (Number.floor now))⟩,
  ⟨"NOW", 0, some 0, .ofClock fun now => .ok (.number now)⟩]

end Recalc.Dates
