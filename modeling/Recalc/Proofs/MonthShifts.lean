import Recalc.Proofs.Calendar

/-!
# Shifts by months

A shift by months exists as long as its year does, and leads to the last day of the month it ends in
that is not after the day it started from (`addMonths?_laws`). Shifts keep the order of dates, longer
shifts lead to later dates, and shifts from the first twenty-eight days of a month add up.
-/
namespace Recalc

theorem daysInMonth_ge (year : Int) (month : Nat) : 28 ≤ daysInMonth year month := by
  grind [daysInMonth]

namespace Date

variable {a b d e f : Date} {m n : Int}

/-- The year of the month that comes `n` months after that of a date. -/
def yearAfter (d : Date) (n : Int) : Int :=
  (d.monthIndex + n) / 12

theorem yearAfter_eq (index : e.monthIndex = d.monthIndex + n) : d.yearAfter n = e.year := by
  have := e.month_bounds
  rw [yearAfter, ← index, monthIndex]
  omega

/-- Months are numbered without repetition. -/
theorem monthIndex_inj : a.monthIndex = b.monthIndex ↔ a.year = b.year ∧ a.month = b.month := by
  have := a.month_bounds
  have := b.month_bounds
  unfold monthIndex
  omega

theorem le_iff_monthIndex :
    a ≤ b ↔ a.monthIndex < b.monthIndex ∨ a.monthIndex = b.monthIndex ∧ a.day ≤ b.day := by
  show ¬ b < a ↔ _
  rw [lt_iff_monthIndex]
  omega

/-! ### Existence -/

theorem addMonths?_isSome_iff :
    (d.addMonths? n).isSome ↔ firstYear ≤ d.yearAfter n ∧ d.yearAfter n ≤ lastYear := by
  constructor
  · intro found
    obtain ⟨e, shifted⟩ := Option.isSome_iff_exists.mp found
    rw [yearAfter_eq (addMonths?_eq_some_iff.mp shifted).1]
    exact e.year_bounds
  · intro within
    unfold yearAfter at within
    obtain ⟨e, shifted⟩ := exists_addMonths? (d := d) (n := n) (by omega) (by omega)
    exact Option.isSome_iff_exists.mpr ⟨e, shifted⟩

theorem addMonths?_eq_none_iff :
    d.addMonths? n = none ↔ d.yearAfter n < firstYear ∨ lastYear < d.yearAfter n := by
  rw [← Option.not_isSome_iff_eq_none, addMonths?_isSome_iff]
  omega

/-! ### The date of a shift -/

/-- Of the dates in its month that are not after the day of the start, a shift leads to the last. -/
theorem le_of_addMonths? (shifted : d.addMonths? n = some e)
    (month : f.monthIndex = d.monthIndex + n) (day : f.day ≤ d.day) : f ≤ e := by
  obtain ⟨index, cut⟩ := addMonths?_eq_some_iff.mp shifted
  obtain ⟨sameYear, sameMonth⟩ := monthIndex_inj.mp (month.trans index.symm)
  have inMonth := f.day_bounds.2
  rw [sameYear, sameMonth] at inMonth
  rw [le_iff_monthIndex]
  right
  exact ⟨month.trans index.symm, by omega⟩

theorem addMonths?_mono {a' b' : Date} (le : a ≤ b) (first : a.addMonths? n = some a')
    (second : b.addMonths? n = some b') : a' ≤ b' := by
  obtain ⟨index, cut⟩ := addMonths?_eq_some_iff.mp first
  -- dates of different months stay apart, and those of one month end in one month
  rcases le_iff_monthIndex.mp le with months | ⟨same, days⟩
  · rw [le_iff_monthIndex, index, (addMonths?_eq_some_iff.mp second).1]
    left
    omega
  · exact le_of_addMonths? second (by omega) (by omega)

theorem addMonths?_lt (less : m < n) (first : d.addMonths? m = some e)
    (second : d.addMonths? n = some f) : e < f := by
  rw [lt_iff_monthIndex, (addMonths?_eq_some_iff.mp first).1, (addMonths?_eq_some_iff.mp second).1]
  left
  omega

/-- A day that every month has is never cut down. -/
theorem day_of_addMonths? (early : d.day ≤ 28) (shifted : d.addMonths? n = some e) :
    e.day = d.day := by
  have := daysInMonth_ge e.year e.month
  have := (addMonths?_eq_some_iff.mp shifted).2
  omega

/-- Shifts from a day that every month has add up, also where the second has no date. -/
theorem addMonths?_addMonths? (early : d.day ≤ 28) (first : d.addMonths? m = some e) :
    e.addMonths? n = d.addMonths? (m + n) := by
  apply Option.ext
  intro f
  rw [addMonths?_eq_some_iff, addMonths?_eq_some_iff, day_of_addMonths? early first,
    (addMonths?_eq_some_iff.mp first).1, Int.add_assoc]

/-- The laws of shifts by months. There is no date exactly if the year lies outside those that dates
may have. The date lies as many months after the start as asked for, its day is that of the start or
the last of a shorter month, and it is the latest such date. Shifts keep the order of dates, longer
shifts lead to later dates, and two shifts from a day that every month has are one shift by their
sum. -/
theorem addMonths?_laws :
    (∀ (d : Date) (n : Int),
      d.addMonths? n = none ↔ d.yearAfter n < firstYear ∨ lastYear < d.yearAfter n) ∧
    (∀ (d e : Date) (n : Int), d.addMonths? n = some e →
      e.monthIndex = d.monthIndex + n ∧ e.day = min d.day (daysInMonth e.year e.month) ∧
      ∀ f : Date, f.monthIndex = d.monthIndex + n → f.day ≤ d.day → f ≤ e) ∧
    (∀ (a b a' b' : Date) (n : Int), a ≤ b → a.addMonths? n = some a' → b.addMonths? n = some b' →
      a' ≤ b') ∧
    (∀ (d e f : Date) (m n : Int), m < n → d.addMonths? m = some e → d.addMonths? n = some f →
      e < f) ∧
    (∀ (d e : Date) (m n : Int), d.day ≤ 28 → d.addMonths? m = some e →
      e.addMonths? n = d.addMonths? (m + n)) := by
  refine ⟨?none, ?place, ?mono, ?longer, ?sum⟩
  case none =>
    intro d n
    exact addMonths?_eq_none_iff
  case place =>
    intro d e n shifted
    obtain ⟨index, day⟩ := addMonths?_eq_some_iff.mp shifted
    exact ⟨index, day, fun f => le_of_addMonths? shifted⟩
  case mono =>
    intro a b a' b' n
    exact addMonths?_mono
  case longer =>
    intro d e f m n
    exact addMonths?_lt
  case sum =>
    intro d e m n
    exact addMonths?_addMonths?

/-- From the last of January 2024 a month leads to the 29th of February, which the day before leads to
as well, and thirteen months lead to the 28th of the next. From the 15th, a month back and thirteen
on are a year. -/
theorem addMonths?_laws_in_2024 :
    let last : Date := ⟨2024, 1, 31, by decide, by decide, by decide⟩
    let middle : Date := ⟨2024, 1, 15, by decide, by decide, by decide⟩
    let leapDay : Date := ⟨2024, 2, 29, by decide, by decide, by decide⟩
    let nextFebruary : Date := ⟨2025, 2, 28, by decide, by decide, by decide⟩
    let december : Date := ⟨2023, 12, 15, by decide, by decide, by decide⟩
    (last.addMonths? 1 = some leapDay ∧ leapDay.day = min 31 (daysInMonth 2024 2)) ∧
      leapDay ≤ leapDay ∧ leapDay < nextFebruary ∧
      december.addMonths? 13 = middle.addMonths? (-1 + 13) := by
  intro last middle leapDay nextFebruary december
  obtain ⟨-, place, mono, longer, sum⟩ := addMonths?_laws
  have month : last.addMonths? 1 = some leapDay := by decide
  refine ⟨⟨month, (place last leapDay 1 month).2.1⟩, ?_, ?_, ?_⟩
  · exact mono ⟨2024, 1, 30, by decide, by decide, by decide⟩ last _ _ 1 (by decide) (by decide)
      month
  · exact longer last _ _ 1 13 (by decide) month (by decide)
  · exact sum middle december (-1) 13 (by decide) (by decide)

end Date

end Recalc
