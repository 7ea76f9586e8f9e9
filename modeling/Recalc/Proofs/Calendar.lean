import Recalc.Calendar.Serial

/-!
# The calendar

Day numbers run through the calendar without a gap: dates order as their day numbers do
(`lt_iff_dayNumber`), and the date of a day number is the one that has it
(`ofDayNumber?_eq_some_iff`). Serials keep that order, although they skip a day. Months are numbered
through in the same way, so that a shift by months is an addition (`addMonths?_eq_some_iff`).
-/
namespace Recalc.Date

variable {a b d e : Date} {n s year : Int} {month day : Nat}

/-! ### Dates and their parts -/

theorem ofParts?_eq_some_iff :
    ofParts? year month day = some d ↔ d.year = year ∧ d.month = month ∧ d.day = day := by
  unfold ofParts?
  constructor
  · intro made
    split at made
    next => cases made; exact ⟨rfl, rfl, rfl⟩
    next => cases made
  · rintro ⟨rfl, rfl, rfl⟩
    rw [dif_pos ⟨d.year_bounds, d.month_bounds, d.day_bounds⟩]

theorem exists_ofParts? (years : firstYear ≤ year ∧ year ≤ lastYear)
    (months : 1 ≤ month ∧ month ≤ 12) (days : 1 ≤ day ∧ day ≤ daysInMonth year month) :
    ∃ d, ofParts? year month day = some d :=
  ⟨_, dif_pos ⟨years, months, days⟩⟩

theorem lt_iff : a < b ↔ a.year < b.year ∨ (a.year = b.year ∧
    (a.month < b.month ∨ (a.month = b.month ∧ a.day < b.day))) :=
  Iff.rfl

theorem lt_trichotomy (a b : Date) : a < b ∨ a = b ∨ b < a := by
  obtain ⟨year, month, day, _, _, _⟩ := a
  obtain ⟨year', month', day', _, _, _⟩ := b
  simp only [lt_iff, mk.injEq]
  omega

theorem le_iff : a ≤ b ↔ a.year < b.year ∨ (a.year = b.year ∧
    (a.month < b.month ∨ (a.month = b.month ∧ a.day ≤ b.day))) := by
  show ¬ b < a ↔ _
  rw [lt_iff]
  omega

theorem le_trans {c : Date} (first : a ≤ b) (second : b ≤ c) : a ≤ c := by
  rw [le_iff] at *
  omega

/-! ### Days -/

theorem day_le (d : Date) : d.day ≤ 31 := by
  have := d.day_bounds
  grind [daysInMonth]

theorem daysBeforeYear_succ (year : Int) :
    daysBeforeYear (year + 1) = daysBeforeYear year + daysInYear year := by
  simp only [daysBeforeYear, daysInYear, isLeapYear, Bool.or_eq_true, Bool.and_eq_true, beq_iff_eq,
    bne_iff_ne]
  split <;> omega

theorem daysBeforeYear_mono {year year' : Int} (le : year ≤ year') :
    daysBeforeYear year ≤ daysBeforeYear year' := by
  unfold daysBeforeYear
  omega

theorem daysBeforeMonth_succ (year : Int) (pos : 1 ≤ month) :
    daysBeforeMonth year (month + 1) = daysBeforeMonth year month + daysInMonth year month := by
  match month, pos with
  | month + 1, _ => rfl

theorem daysBeforeMonth_mono (year : Int) {month month' : Nat} (pos : 1 ≤ month)
    (le : month ≤ month') : daysBeforeMonth year month ≤ daysBeforeMonth year month' := by
  induction le with
  | refl => exact Nat.le_refl _
  | step le ih =>
    rw [daysBeforeMonth_succ year (Nat.le_trans pos le)]
    omega

theorem daysBeforeMonth_thirteen (year : Int) : daysBeforeMonth year 13 = daysInYear year := by
  cases leap : isLeapYear year <;> simp [daysBeforeMonth, daysInMonth, daysInYear, leap]

/-- The number of days of its year before a date. -/
def dayOfYear (d : Date) : Nat :=
  daysBeforeMonth d.year d.month + (d.day - 1)

theorem dayNumber_eq (d : Date) : d.dayNumber = daysBeforeYear d.year + d.dayOfYear := by
  unfold dayNumber dayOfYear
  omega

/-- Within its year, a date lies before the months after its own. -/
theorem dayOfYear_lt (d : Date) (later : d.month < month) :
    d.dayOfYear < daysBeforeMonth d.year month := by
  have next := daysBeforeMonth_mono d.year (Nat.le_add_left 1 d.month) later
  rw [daysBeforeMonth_succ d.year d.month_bounds.1] at next
  have := d.day_bounds
  unfold dayOfYear
  omega

theorem dayNumber_lt_daysBeforeYear (d : Date) : d.dayNumber < daysBeforeYear (d.year + 1) := by
  have december := d.month_bounds
  have within : d.dayOfYear < daysBeforeMonth d.year 13 := d.dayOfYear_lt (by omega)
  rw [daysBeforeMonth_thirteen] at within
  rw [dayNumber_eq, daysBeforeYear_succ]
  omega

theorem dayNumber_lt_of_lt (lt : a < b) : a.dayNumber < b.dayNumber := by
  -- the first part in which the dates differ bounds everything after it
  rcases lt_iff.mp lt with years | ⟨year, months | ⟨month, days⟩⟩
  · calc a.dayNumber < daysBeforeYear (a.year + 1) := a.dayNumber_lt_daysBeforeYear
      _ ≤ daysBeforeYear b.year := daysBeforeYear_mono years
      _ ≤ b.dayNumber := by rw [dayNumber_eq]; omega
  · have within := a.dayOfYear_lt months
    rw [dayNumber_eq, dayNumber_eq, ← year, dayOfYear.eq_1 b, ← year]
    omega
  · have := a.day_bounds
    rw [dayNumber_eq, dayNumber_eq, dayOfYear, dayOfYear, ← year, ← month]
    omega

/-- Dates order as their day numbers do. -/
theorem lt_iff_dayNumber : a < b ↔ a.dayNumber < b.dayNumber := by
  refine ⟨dayNumber_lt_of_lt, fun less => ?_⟩
  rcases lt_trichotomy a b with lt | rfl | gt
  · exact lt
  · omega
  · have := dayNumber_lt_of_lt gt
    omega

theorem le_iff_dayNumber : a ≤ b ↔ a.dayNumber ≤ b.dayNumber := by
  show ¬ b < a ↔ _
  rw [lt_iff_dayNumber]
  omega

theorem dayNumber_inj : a.dayNumber = b.dayNumber ↔ a = b := by
  refine ⟨fun same => ?_, fun same => same ▸ rfl⟩
  rcases lt_trichotomy a b with lt | eq | gt
  · have := dayNumber_lt_of_lt lt
    omega
  · exact eq
  · have := dayNumber_lt_of_lt gt
    omega

/-! ### The date of a day number -/

theorem yearOfDayNumber_bounds (n : Int) : daysBeforeYear (yearOfDayNumber n) ≤ n ∧
    n < daysBeforeYear (yearOfDayNumber n + 1) := by
  -- the guess is the year if all years have the mean length, so it is off by one at most
  unfold yearOfDayNumber
  dsimp only
  split
  next above =>
    refine ⟨?_, by simpa using above⟩
    unfold daysBeforeYear at above ⊢
    omega
  next within =>
    split
    next below =>
      refine ⟨below, ?_⟩
      unfold daysBeforeYear at below ⊢
      omega
    next => omega

theorem yearOfDayNumber_dayNumber (d : Date) : yearOfDayNumber d.dayNumber = d.year := by
  obtain ⟨low, high⟩ := yearOfDayNumber_bounds d.dayNumber
  have low' : daysBeforeYear d.year ≤ d.dayNumber := by
    rw [dayNumber_eq]
    omega
  have high' := d.dayNumber_lt_daysBeforeYear
  rcases Int.lt_trichotomy (yearOfDayNumber d.dayNumber) d.year with earlier | same | later
  · have := daysBeforeYear_mono earlier
    omega
  · exact same
  · have := daysBeforeYear_mono later
    omega

/-- The search passes the months that end before the day. -/
theorem monthAndDay_spec (year : Int) (months month offset : Nat) (pos : 1 ≤ month)
    (last : month + months = 12) (within : daysBeforeMonth year month + offset < daysInYear year) :
    let found := monthAndDay year months month offset
    (1 ≤ found.1 ∧ found.1 ≤ 12) ∧ (1 ≤ found.2 ∧ found.2 ≤ daysInMonth year found.1) ∧
      daysBeforeMonth year found.1 + (found.2 - 1) = daysBeforeMonth year month + offset := by
  induction months generalizing month offset with
  | zero =>
    -- December is not left, because the day lies within the year
    obtain rfl : month = 12 := last
    rw [← daysBeforeMonth_thirteen, daysBeforeMonth_succ year pos] at within
    simp only [monthAndDay]
    omega
  | succ months ih =>
    simp only [monthAndDay]
    split
    next => dsimp only; omega
    next past =>
      have next := daysBeforeMonth_succ year pos
      have found := ih (month + 1) (offset - daysInMonth year month) (by omega) (by omega)
        (by omega)
      dsimp only at found ⊢
      omega

theorem exists_ofDayNumber? (years : firstYear ≤ yearOfDayNumber n ∧ yearOfDayNumber n ≤ lastYear) :
    ∃ d, ofDayNumber? n = some d ∧ d.dayNumber = n := by
  obtain ⟨low, high⟩ := yearOfDayNumber_bounds n
  rw [daysBeforeYear_succ] at high
  obtain ⟨months, days, place⟩ := monthAndDay_spec (yearOfDayNumber n) 11 1
    (n - daysBeforeYear (yearOfDayNumber n)).toNat (Nat.le_refl 1) rfl
    (by simp only [daysBeforeMonth]; omega)
  obtain ⟨d, made⟩ := exists_ofParts? years months days
  refine ⟨d, made, ?_⟩
  obtain ⟨year, month, day⟩ := ofParts?_eq_some_iff.mp made
  rw [dayNumber, year, month, day]
  simp only [daysBeforeMonth] at place
  omega

/-- The date of a day number is the one that has it. -/
theorem ofDayNumber?_eq_some_iff : ofDayNumber? n = some d ↔ d.dayNumber = n := by
  constructor
  · intro found
    have years : firstYear ≤ yearOfDayNumber n ∧ yearOfDayNumber n ≤ lastYear :=
      (ofParts?_eq_some_iff.mp found).1 ▸ d.year_bounds
    obtain ⟨e, same, number⟩ := exists_ofDayNumber? years
    obtain rfl : d = e := Option.some.inj (found.symm.trans same)
    exact number
  · rintro rfl
    -- some date is found, and no two dates have the same number
    obtain ⟨e, found, number⟩ := exists_ofDayNumber? (yearOfDayNumber_dayNumber d ▸ d.year_bounds)
    rw [found, dayNumber_inj.mp number]

/-! ### Serials -/

theorem serial_eq (d : Date) : d.serial =
    if d.dayNumber - serialOrigin < missingDaySerial then d.dayNumber - serialOrigin
    else d.dayNumber - serialOrigin + 1 :=
  rfl

/-- The date of a serial within the date system is found by its day number. -/
theorem ofSerial?_eq_some_iff : ofSerial? s = some d ↔ (0 ≤ s ∧ s ≤ maxSerial) ∧
    d.dayNumber = serialOrigin + if s < missingDaySerial then s else s - 1 := by
  unfold ofSerial?
  by_cases within : 0 ≤ s ∧ s ≤ maxSerial
  · rw [if_neg (by omega)]
    split <;> simp [within, ofDayNumber?_eq_some_iff, Int.add_sub_assoc]
  · rw [if_pos (by omega)]
    simp [within]

/-- Serials order as the dates do: the missing day lies between two dates. -/
theorem serial_lt_serial_iff : a.serial < b.serial ↔ a < b := by
  rw [lt_iff_dayNumber, serial_eq, serial_eq]
  omega

theorem serial_le_serial_iff : a.serial ≤ b.serial ↔ a ≤ b := by
  show _ ↔ ¬ b < a
  rw [← serial_lt_serial_iff]
  omega

/-- The serial of the missing day is that of a date too, all others come back. -/
theorem serial_of_ofSerial? (found : ofSerial? s = some d) :
    (0 ≤ s ∧ s ≤ maxSerial) ∧ d.serial = if s = missingDaySerial then s - 1 else s := by
  obtain ⟨within, number⟩ := ofSerial?_eq_some_iff.mp found
  rw [serial_eq, number]
  omega

theorem ofSerial?_serial (d : Date) :
    ofSerial? d.serial = if 0 ≤ d.serial ∧ d.serial ≤ maxSerial then some d else none := by
  split
  next within =>
    refine ofSerial?_eq_some_iff.mpr ⟨within, ?_⟩
    rw [serial_eq] at within ⊢
    omega
  next outside => rw [ofSerial?, if_pos (by omega)]

theorem year_of_serial_nonneg (nonneg : 0 ≤ d.serial) : 1899 ≤ d.year := by
  have before := d.dayNumber_lt_daysBeforeYear
  rw [serial_eq, missingDaySerial, serialOrigin] at nonneg
  unfold daysBeforeYear at before
  omega

/-! ### Months -/

/-- Months numbered through from that of the first of January of the year zero. -/
def monthIndex (d : Date) : Int :=
  12 * d.year + (d.month - 1 : Nat)

/-- Dates order by their months first. -/
theorem lt_iff_monthIndex :
    a < b ↔ a.monthIndex < b.monthIndex ∨ a.monthIndex = b.monthIndex ∧ a.day < b.day := by
  have := a.month_bounds
  have := b.month_bounds
  rw [lt_iff]
  unfold monthIndex
  omega

/-- A shift by months adds to the number of the month, and cuts the day down to the length of that
month. -/
theorem addMonths?_eq_some_iff : d.addMonths? n = some e ↔
    e.monthIndex = d.monthIndex + n ∧ e.day = min d.day (daysInMonth e.year e.month) := by
  have := e.month_bounds
  unfold addMonths?
  dsimp only
  rw [ofParts?_eq_some_iff]
  unfold monthIndex
  constructor
  · rintro ⟨year, month, day⟩
    rw [year, month]
    exact ⟨by omega, day⟩
  · rintro ⟨index, day⟩
    have year : e.year = (12 * d.year + (d.month - 1 : Nat) + n) / 12 := by omega
    have month : e.month = ((12 * d.year + (d.month - 1 : Nat) + n) % 12).toNat + 1 := by omega
    rw [← year, ← month]
    exact ⟨rfl, rfl, day⟩

theorem exists_addMonths? (low : 12 * firstYear ≤ d.monthIndex + n)
    (high : d.monthIndex + n < 12 * (lastYear + 1)) : ∃ e, d.addMonths? n = some e := by
  unfold monthIndex at low high
  refine exists_ofParts? ⟨by omega, by omega⟩ ⟨by omega, by omega⟩ ?_
  have := d.day_bounds
  have := one_le_daysInMonth ((12 * d.year + (d.month - 1 : Nat) + n) / 12)
    (((12 * d.year + (d.month - 1 : Nat) + n) % 12).toNat + 1)
  omega

theorem addMonths?_zero (d : Date) : d.addMonths? 0 = some d :=
  addMonths?_eq_some_iff.mpr ⟨(Int.add_zero _).symm, (Nat.min_eq_left d.day_bounds.2).symm⟩

/-! ### Month ends -/

theorem isLastOfMonth_lastOfMonth (d : Date) : d.lastOfMonth.isLastOfMonth = true :=
  beq_self_eq_true _

theorem lastOfMonth_eq (last : d.isLastOfMonth = true) : d.lastOfMonth = d := by
  obtain ⟨year, month, day, _, _, _⟩ := d
  simp only [isLastOfMonth, beq_iff_eq] at last
  simp only [lastOfMonth, last]

theorem monthIndex_lastOfMonth (d : Date) : d.lastOfMonth.monthIndex = d.monthIndex :=
  rfl

end Recalc.Date
