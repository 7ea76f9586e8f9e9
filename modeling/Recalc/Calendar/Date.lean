/-!
# Calendar dates

Dates of the proleptic Gregorian calendar between two bounding years. Days are numbered from the
first of January of the year one, and dates order as their day numbers do.
-/

namespace Recalc

/-- Whether a year has a 29th of February. -/
def isLeapYear (year : Int) : Bool :=
  (year % 4 == 0 && year % 100 != 0) || year % 400 == 0

/-- The length of a month counted from one; numbers that name no month count as a short February. -/
def daysInMonth (year : Int) (month : Nat) : Nat :=
  if month = 2 ∧ isLeapYear year then 29
  else if month = 4 ∨ month = 6 ∨ month = 9 ∨ month = 11 then 30
  else if month = 1 ∨ month = 3 ∨ month = 5 ∨ month = 7 ∨ month = 8 ∨ month = 10 ∨ month = 12 then 31
  else 28

def daysInYear (year : Int) : Nat :=
  if isLeapYear year then 366 else 365

/-- The first and the last year that dates may have. -/
def firstYear : Int := -262143

def lastYear : Int := 262142

/-- A date of the proleptic Gregorian calendar. -/
structure Date where
  year : Int
  month : Nat
  day : Nat
  year_bounds : firstYear ≤ year ∧ year ≤ lastYear
  month_bounds : 1 ≤ month ∧ month ≤ 12
  day_bounds : 1 ≤ day ∧ day ≤ daysInMonth year month
deriving DecidableEq, Repr

theorem one_le_daysInMonth (year : Int) (month : Nat) : 1 ≤ daysInMonth year month := by
  grind [daysInMonth]

namespace Date

/-- The date of a year, month and day, if there is one. -/
def ofParts? (year : Int) (month day : Nat) : Option Date :=
  if h : (firstYear ≤ year ∧ year ≤ lastYear) ∧ (1 ≤ month ∧ month ≤ 12)
      ∧ (1 ≤ day ∧ day ≤ daysInMonth year month) then
    some ⟨year, month, day, h.1, h.2.1, h.2.2⟩
  else none

instance : LT Date where
  lt a b := a.year < b.year ∨ (a.year = b.year ∧
    (a.month < b.month ∨ (a.month = b.month ∧ a.day < b.day)))

instance (a b : Date) : Decidable (a < b) :=
  inferInstanceAs (Decidable (_ ∨ _))

instance : LE Date where
  le a b := ¬ b < a

instance (a b : Date) : Decidable (a ≤ b) :=
  inferInstanceAs (Decidable (¬ _))

/-! ### Day numbers -/

/-- The number of days from the first of January of the year one to that of `year`. -/
def daysBeforeYear (year : Int) : Int :=
  365 * (year - 1) + (year - 1) / 4 - (year - 1) / 100 + (year - 1) / 400

/-- The number of days of `year` before a month counted from one. -/
def daysBeforeMonth (year : Int) : Nat → Nat
  | 0 => 0
  | 1 => 0
  | month + 2 => daysBeforeMonth year (month + 1) + daysInMonth year (month + 1)

/-- The number of days from the first of January of the year one to the date. -/
def dayNumber (d : Date) : Int :=
  daysBeforeYear d.year + daysBeforeMonth d.year d.month + (d.day - 1 : Nat)

/-- The year of a day number. The mean length of a year gives it up to one. -/
def yearOfDayNumber (n : Int) : Int :=
  let guess := 400 * n / 146097 + 1
  if n < daysBeforeYear guess then guess - 1
  else if daysBeforeYear (guess + 1) ≤ n then guess + 1
  else guess

/-- The month and day of the day of a year counted from zero, searched from `month` on. -/
def monthAndDay (year : Int) : Nat → Nat → Nat → Nat × Nat
  | 0, month, offset => (month, offset + 1)
  | months + 1, month, offset =>
    let length := daysInMonth year month
    if offset < length then (month, offset + 1)
    else monthAndDay year months (month + 1) (offset - length)

/-- The date of a day number, if its year is within bounds. -/
def ofDayNumber? (n : Int) : Option Date :=
  let year := yearOfDayNumber n
  let (month, day) := monthAndDay year 11 1 (n - daysBeforeYear year).toNat
  ofParts? year month day

/-- The date `n` days later. -/
def addDays? (d : Date) (n : Int) : Option Date :=
  ofDayNumber? (d.dayNumber + n)

/-- The number of days from `start` to `stop`. -/
def daysBetween (start stop : Date) : Int :=
  stop.dayNumber - start.dayNumber

/-! ### Months -/

/-- The date `n` months later, with its day cut down to the length of the month it falls in. -/
def addMonths? (d : Date) (n : Int) : Option Date :=
  let months := 12 * d.year + (d.month - 1 : Nat) + n
  let year := months / 12
  let month := (months % 12).toNat + 1
  ofParts? year month (min d.day (daysInMonth year month))

def isLastOfMonth (d : Date) : Bool :=
  d.day == daysInMonth d.year d.month

def isLastOfFebruary (d : Date) : Bool :=
  d.month == 2 && d.isLastOfMonth

/-- The last day of the month of a date. -/
def lastOfMonth (d : Date) : Date :=
  { d with
    day := daysInMonth d.year d.month
    day_bounds := ⟨one_le_daysInMonth d.year d.month, Nat.le_refl _⟩ }

end Date

end Recalc
