import Recalc.Proofs.DateArguments

/-!
# Dates from their parts

A date is computed by going months from the start of a year and days from the start of a month, both
in either direction (`dateOfParts?_eq_some_iff`). Years are therefore worth twelve months, and the
parts of a date give it back (`dateOfParts?_self`).
-/
namespace Recalc

open Number

variable {args : Arguments} {i : Nat} {y m d k z : ℤ} {a b e : Date} {v : Value} {x : Float}

theorem Arguments.integer_ofInt (given : args.get? i = some (.number (Float.ofInt z)))
    (small : z.natAbs < 2 ^ 53) : args.integer i = .ok z := by
  simp only [integer, required, given]
  show (requireFinite (Float.ofInt z) >>= fun x => .ok (toInt64 (floor x))) = _
  rw [requireFinite, if_pos (isFinite_ofInt small)]
  show Except.ok (toInt64 (floor (Float.ofInt z))) = _
  rw [floor_ofInt small, toInt64_ofInt small]

namespace Dates

/-! ### Months and days added to a year -/

theorem exists_firstOfMonth {month : ℕ} (years : firstYear ≤ y ∧ y ≤ lastYear) (low : 1 ≤ month)
    (high : month ≤ 12) : ∃ start, Date.ofParts? y month 1 = some start ∧
      start.year = y ∧ start.month = month ∧ start.day = 1 := by
  obtain ⟨start, made⟩ :=
    Date.exists_ofParts? years ⟨low, high⟩ ⟨le_refl 1, one_le_daysInMonth y month⟩
  exact ⟨start, made, Date.ofParts?_eq_some_iff.mp made⟩

/-- The start of the month, and from there the day. -/
theorem dateOfParts?_eq_some_iff (years : firstYear ≤ y ∧ y ≤ lastYear) :
    dateOfParts? y m d = some e ↔ ∃ b : Date, b.monthIndex = 12 * y + (m - 1) ∧ b.day = 1 ∧
      e.dayNumber = b.dayNumber + (d - 1) := by
  obtain ⟨start, made, year, month, day⟩ := exists_firstOfMonth years (le_refl 1) (by decide)
  have index : start.monthIndex = 12 * y := by simp [Date.monthIndex, year, month]
  simp only [dateOfParts?, made, Option.bind_eq_bind, Option.bind_some, Option.bind_eq_some_iff,
    Date.addMonths?_eq_some_iff, Date.addDays?, Date.ofDayNumber?_eq_some_iff, index, day,
    Nat.min_eq_left (one_le_daysInMonth _ _), and_assoc]

/-- Twelve months are a year. -/
theorem dateOfParts?_add_years (years : firstYear ≤ y ∧ y ≤ lastYear)
    (years' : firstYear ≤ y + k ∧ y + k ≤ lastYear) :
    dateOfParts? y (m + 12 * k) d = dateOfParts? (y + k) m d := by
  refine Option.ext fun e => ?_
  rw [dateOfParts?_eq_some_iff years, dateOfParts?_eq_some_iff years']
  have index : 12 * y + (m + 12 * k - 1) = 12 * (y + k) + (m - 1) := by ring
  rw [index]

theorem dateOfParts?_self (e : Date) : dateOfParts? e.year e.month e.day = some e := by
  obtain ⟨start, -, year, month, day⟩ :=
    exists_firstOfMonth e.year_bounds e.month_bounds.1 e.month_bounds.2
  have := e.month_bounds
  have := e.day_bounds
  refine (dateOfParts?_eq_some_iff e.year_bounds).mpr ⟨start, ?_, day, ?_⟩
  · rw [Date.monthIndex, year, month]
    omega
  · rw [Date.dayNumber, Date.dayNumber, year, month, day]
    omega

/-- One day more is the next day. -/
theorem dayNumber_of_next (years : firstYear ≤ y ∧ y ≤ lastYear)
    (first : dateOfParts? y m d = some a) (next : dateOfParts? y m (d + 1) = some b) :
    b.dayNumber = a.dayNumber + 1 := by
  obtain ⟨start, index, day, number⟩ := (dateOfParts?_eq_some_iff years).mp first
  obtain ⟨start', index', day', number'⟩ := (dateOfParts?_eq_some_iff years).mp next
  obtain rfl : start = start' := by
    rcases Date.lt_trichotomy start start' with less | same | more
    · rw [Date.lt_iff_monthIndex] at less
      omega
    · exact same
    · rw [Date.lt_iff_monthIndex] at more
      omega
  omega

/-! ### Serials of consecutive days -/

/-- The last of February 1900, which the missing day follows. -/
def beforeMissingDay : Date :=
  ⟨1900, 2, 28, by decide, by decide, by decide⟩

theorem serial_of_next (next : b.dayNumber = a.dayNumber + 1) :
    b.serial = a.serial + if a = beforeMissingDay then 2 else 1 := by
  have number : beforeMissingDay.dayNumber = Date.serialOrigin + 59 := by decide
  have same : a = beforeMissingDay ↔ a.dayNumber = Date.serialOrigin + 59 := by
    rw [← Date.dayNumber_inj, number]
  simp only [same, Date.serial_eq, next, missingDaySerial]
  omega

/-! ### Calls -/

/-- Whether `DATE` of three integers gives a value. -/
def DateGives (y m d : ℤ) (v : Value) : Prop :=
  Library.CallGives "DATE"
    [.number (Float.ofInt y), .number (Float.ofInt m), .number (Float.ofInt d)] v

/-- What `DATE` gives for three integers. -/
def dateOf (y m d : ℤ) : Outcome Value := do
  DateFunction.date.deliver (dateOfParts? (← fullYear y) m d)

theorem dateOf_of_year {year : ℤ} (full : fullYear y = .ok year) :
    dateOf y m d = DateFunction.date.deliver (dateOfParts? year m d) := by
  rw [dateOf, full]
  rfl

/-- Serials are finite, so that nothing is done to them. -/
theorem toResult_deliver (found : Option Date) :
    (DateFunction.date.deliver found).map Value.toResult = DateFunction.date.deliver found := by
  cases found with
  | none => rfl
  | some e =>
    show (serialOf e).map Value.toResult = serialOf e
    unfold serialOf
    split
    · exact congrArg Except.ok (Function.toResult_number e.isFinite_serialNumber)
    · rfl

theorem toResult_dateOf (y m d : ℤ) : (dateOf y m d).map Value.toResult = dateOf y m d := by
  cases full : fullYear y with
  | error => rw [dateOf, full]; rfl
  | ok year => rw [dateOf_of_year full, toResult_deliver]

theorem fullYear_eq_ok_iff {year : ℤ} : fullYear y = .ok year ↔
    year = (if 0 ≤ y ∧ y < 1900 then y + 1900 else y) ∧ 1900 ≤ year ∧ year ≤ 9999 := by
  unfold fullYear
  dsimp only
  generalize (if 0 ≤ y ∧ y < 1900 then y + 1900 else y) = full
  split
  next within => exact ⟨fun same => by cases same; exact ⟨rfl, within⟩, fun same => by rw [same.1]⟩
  next outside =>
    refine ⟨nofun, ?_⟩
    rintro ⟨rfl, within⟩
    exact absurd within outside

/-- Years of the date system are taken as they are. -/
theorem fullYear_self (low : 1900 ≤ y) (high : y ≤ 9999) : fullYear y = .ok y :=
  fullYear_eq_ok_iff.mpr ⟨(if_neg (by omega)).symm, low, high⟩

variable (small_year : y.natAbs < 2 ^ 53) (small_month : m.natAbs < 2 ^ 53)
  (small_day : d.natAbs < 2 ^ 53)
include small_year small_month small_day

theorem date_ofInt : Dates.date ⟨[.number (Float.ofInt y), .number (Float.ofInt m),
    .number (Float.ofInt d)]⟩ = dateOf y m d := by
  rw [DateFunction.date_runs, DateFunction.computed, Arguments.integer_ofInt rfl small_year,
    Arguments.integer_ofInt rfl small_month, Arguments.integer_ofInt rfl small_day, dateOf]
  show (fullYear y >>= fun year => .ok (dateOfParts? year m d)) >>= _ = _
  cases fullYear y <;> rfl

theorem dateGives_iff : DateGives y m d v ↔ v = (dateOf y m d).toValue := by
  have found : Library.standard.get? "DATE" = some (.checked "DATE" 3 3 .coerce Dates.date) :=
    Library.get?_of_dated (by simp [functions]) rfl
  have call : ∀ ambient drawn, (Function.checked "DATE" 3 3 .coerce Dates.date).call ambient drawn
      [.number (Float.ofInt y), .number (Float.ofInt m), .number (Float.ofInt d)] =
      ((dateOf y m d).toValue, drawn) := fun ambient drawn => by
    rw [Function.call_checked ⟨le_refl 3, le_refl 3⟩ rfl,
      date_ofInt small_year small_month small_day, toResult_dateOf]
  constructor
  · rintro ⟨f, found', given⟩
    obtain rfl := Option.some.inj (found.symm.trans found')
    have same := (given ⟨0, fun _ => 0⟩ 0).symm.trans (call ⟨0, fun _ => 0⟩ 0)
    exact congrArg Prod.fst same
  · rintro rfl
    exact ⟨_, found, call⟩

/-- The number that `DATE` gives is the serial of a date of the date system. -/
theorem exists_date_of_dateGives (given : DateGives y m d (.number x)) :
    ∃ year e, fullYear y = .ok year ∧ dateOfParts? year m d = some e ∧ e.InSystem ∧
      x = e.serialNumber := by
  have computed := (dateGives_iff small_year small_month small_day).mp given
  cases full : fullYear y with
  | error => rw [dateOf, full] at computed; cases computed
  | ok year =>
    rw [dateOf_of_year full] at computed
    cases parts : dateOfParts? year m d with
    | none => rw [parts] at computed; cases computed
    | some e =>
      rw [parts] at computed
      dsimp only [DateFunction.deliver, serialOf] at computed
      split at computed
      next inside =>
        cases computed
        exact ⟨year, e, rfl, parts, inside, rfl⟩
      next => cases computed

omit small_year small_month small_day

/-! ### The parts of a serial -/

theorem year_bounds_of_serial (low : 1 ≤ e.serial) (high : e.serial ≤ maxSerial) :
    1900 ≤ e.year ∧ e.year ≤ 9999 := by
  have before := e.dayNumber_lt_daysBeforeYear
  have after := e.dayNumber_eq
  have first : Date.daysBeforeYear 1900 = Date.serialOrigin + 1 := by decide
  have last : Date.daysBeforeYear 10000 = Date.serialOrigin + maxSerial := by decide
  rw [Date.serial_eq, missingDaySerial] at low high
  unfold maxSerial at high last
  constructor
  · by_contra early
    have := Date.daysBeforeYear_mono (show e.year + 1 ≤ 1900 by omega)
    omega
  · by_contra late
    have := Date.daysBeforeYear_mono (show 10000 ≤ e.year by omega)
    omega

/-- `DATE` puts the parts of a serial together again. -/
theorem date_of_parts_of_serial {s : ℤ} (low : 1 ≤ s) (high : s ≤ maxSerial)
    (other : s ≠ missingDaySerial) : ∃ y m d : ℤ,
      Library.CallGives "YEAR" [.number (Float.ofInt s)] (.number (Float.ofInt y)) ∧
      Library.CallGives "MONTH" [.number (Float.ofInt s)] (.number (Float.ofInt m)) ∧
      Library.CallGives "DAY" [.number (Float.ofInt s)] (.number (Float.ofInt d)) ∧
      DateGives y m d (.number (Float.ofInt s)) := by
  obtain ⟨e, found⟩ := Date.exists_ofSerial? (by omega) high
  have serial := (Date.serial_of_ofSerial? found).2
  rw [if_neg other] at serial
  subst serial
  have years := year_bounds_of_serial low high
  have months := e.month_bounds
  have days := e.day_le
  have inside : e.InSystem := Date.inSystem_of_ofSerial? found
  have dated : Arguments.date ⟨[.number (Float.ofInt e.serial)]⟩ 0 = .ok e :=
    (Arguments.date_of_serialNumber rfl).trans (if_pos inside)
  refine ⟨e.year, e.month, e.day, ?_, ?_, ?_, ?_⟩
  · exact callGives_part (f := Date.year) (by simp [functions]) dated (by omega)
  · exact callGives_part (f := fun e => e.month) (by simp [functions]) dated (by omega)
  · exact callGives_part (f := fun e => e.day) (by simp [functions]) dated (by omega)
  · rw [dateGives_iff (by omega) (by omega) (by omega),
      dateOf_of_year (fullYear_self years.1 years.2), dateOfParts?_self]
    show _ = Outcome.toValue (serialOf e)
    rw [serialOf, if_pos (show 0 ≤ e.serial ∧ e.serial ≤ maxSerial from inside)]
    rfl

/-- Twelve months more are a year more, whatever comes out. -/
theorem dateOf_add_years (low : 1900 ≤ y) (high : y ≤ 9999) (low' : 1900 ≤ y + k)
    (high' : y + k ≤ 9999) : dateOf y (m + 12 * k) d = dateOf (y + k) m d := by
  rw [dateOf_of_year (fullYear_self low high), dateOf_of_year (fullYear_self low' high'),
    dateOfParts?_add_years (by unfold firstYear lastYear; omega)
      (by unfold firstYear lastYear; omega)]

/-- Three laws of `DATE`. The parts of a serial give it back, unless it is that of the missing day.
Twelve months are worth a year, also where the result is an error. The next day has the next serial,
or the one after that where the missing day lies between. -/
theorem date_laws :
    (∀ s : ℤ, 1 ≤ s → s ≤ maxSerial → s ≠ missingDaySerial → ∃ y m d : ℤ,
      Library.CallGives "YEAR" [.number (Float.ofInt s)] (.number (Float.ofInt y)) ∧
      Library.CallGives "MONTH" [.number (Float.ofInt s)] (.number (Float.ofInt m)) ∧
      Library.CallGives "DAY" [.number (Float.ofInt s)] (.number (Float.ofInt d)) ∧
      DateGives y m d (.number (Float.ofInt s))) ∧
    (∀ y k m d : ℤ, 1900 ≤ y → y ≤ 9999 → 1900 ≤ y + k → y + k ≤ 9999 →
      |m| ≤ 10 ^ 9 → |d| ≤ 10 ^ 9 → ∃ v, DateGives y (m + 12 * k) d v ∧ DateGives (y + k) m d v) ∧
    (∀ (y m d : ℤ) (x x' : Float), |y| ≤ 10 ^ 9 → |m| ≤ 10 ^ 9 → |d| ≤ 10 ^ 9 →
      DateGives y m d (.number x) → DateGives y m (d + 1) (.number x') →
      ∃ e : Date, e.InSystem ∧ x = e.serialNumber ∧
        x' = Float.ofInt (e.serial + if e = beforeMissingDay then 2 else 1)) := by
  refine ⟨fun s => date_of_parts_of_serial, fun y k m d low high low' high' months days => ?_,
    fun y m d x x' years months days first next => ?_⟩
  · rw [abs_le] at months days
    refine ⟨_, (dateGives_iff (by omega) (by omega) (by omega)).mpr rfl, ?_⟩
    rw [dateGives_iff (by omega) (by omega) (by omega), dateOf_add_years low high low' high']
  · rw [abs_le] at years months days
    obtain ⟨year, a, full, parts, inside, rfl⟩ :=
      exists_date_of_dateGives (by omega) (by omega) (by omega) first
    obtain ⟨year', b, full', parts', -, rfl⟩ :=
      exists_date_of_dateGives (by omega) (by omega) (by omega) next
    obtain rfl := Except.ok.inj (full.symm.trans full')
    have bounds := (fullYear_eq_ok_iff.mp full).2
    have consecutive := dayNumber_of_next (by unfold firstYear lastYear; omega) parts parts'
    exact ⟨a, inside, rfl, congrArg Float.ofInt (serial_of_next consecutive)⟩

/-- The days around the missing one, and a month counted back from the next year. -/
theorem date_laws_in_1900 :
    (∃ y m d : ℤ, Library.CallGives "YEAR" [.number (Float.ofInt 61)] (.number (Float.ofInt y)) ∧
      Library.CallGives "MONTH" [.number (Float.ofInt 61)] (.number (Float.ofInt m)) ∧
      Library.CallGives "DAY" [.number (Float.ofInt 61)] (.number (Float.ofInt d)) ∧
      DateGives y m d (.number (Float.ofInt 61))) ∧
    (∃ v, DateGives 1901 (2 + 12 * -1) 28 v ∧ DateGives (1901 + -1) 2 28 v) ∧
    ∃ e : Date, e.InSystem ∧ Float.ofInt 59 = e.serialNumber ∧
      Float.ofInt 61 = Float.ofInt (e.serial + if e = beforeMissingDay then 2 else 1) := by
  refine ⟨date_laws.1 61 (by decide) (by decide) (by decide),
    date_laws.2.1 1901 (-1) 2 28 (by decide) (by decide) (by decide) (by decide) (by decide)
      (by decide),
    date_laws.2.2 1900 2 28 _ _ (by decide) (by decide) (by decide) ?_ ?_⟩
  · exact (dateGives_iff (by decide) (by decide) (by decide)).mpr rfl
  · exact (dateGives_iff (by decide) (by decide) (by decide)).mpr rfl

end Dates

end Recalc
