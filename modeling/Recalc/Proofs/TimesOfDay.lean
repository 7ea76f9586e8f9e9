import Recalc.Proofs.Arithmetic
import Recalc.Proofs.Serials

/-!
# Times of day

The time of a serial is its nearest second, which comes back as a serial within a second of it and
keeps the order of times (`DateTime.serial_roundTrip_to_second`), because every step of the
computation rounds to the nearest float. It does neither in the last half second of a day: midnight
is then the start of the day that ends, and not of the next one.
-/
namespace Recalc

open Number

namespace Number

variable {x y : Float}

/-! ### The nearest second -/

/-- The number of seconds since the start of the day, to the nearest second. -/
def nearestSecond (x : Float) : ℤ :=
  toInt64 (round (fraction x * 86400.0))

/-- Whether a time is so close to the end of its day that midnight is the nearest second. -/
def EndsDay (x : Float) : Prop :=
  (86399.5 : Float) ≤ fraction x * 86400.0

instance : Decidable (EndsDay x) :=
  inferInstanceAs (Decidable (_ ≤ _))

theorem exact_secondsPerDay : exact 86400.0 = 86400 := by
  decide +kernel

theorem onGrid_secondsPerDay : OnGrid 86400 :=
  ⟨86400, 0, by decide, by decide, by norm_num⟩

section

variable (finite : x.isFinite = true) (nonneg : 0 ≤ exact x)
include finite nonneg

theorem nearest_seconds : (fraction x * 86400.0).isFinite = true ∧
    Nearest (Int.fract (exact x) * 86400) (exact (fraction x * 86400.0)) := by
  obtain ⟨finite', fract⟩ := exact_fraction finite nonneg
  have product : exact (fraction x) * exact 86400.0 = Int.fract (exact x) * 86400 := by
    rw [fract, exact_secondsPerDay]
  rw [← product]
  refine nearest_mul finite' (by decide +kernel) ?_
  have low := Int.fract_nonneg (exact x)
  have high := Int.fract_lt_one (exact x)
  rw [product, abs_of_nonneg (by positivity)]
  calc Int.fract (exact x) * 86400 < 2 ^ (17 : ℤ) := by norm_num; linarith
    _ ≤ 2 ^ (1023 : ℤ) := zpow_le_zpow_right₀ one_le_two (by decide)

theorem seconds_bounds :
    0 ≤ exact (fraction x * 86400.0) ∧ exact (fraction x * 86400.0) ≤ 86400 := by
  obtain ⟨-, nearest⟩ := nearest_seconds finite nonneg
  have low := Int.fract_nonneg (exact x)
  have high := Int.fract_lt_one (exact x)
  exact ⟨nearest.nonneg (by positivity), nearest.mono (.self onGrid_secondsPerDay) (by linarith)⟩

theorem nearestSecond_eq : nearestSecond x = ⌊exact (fraction x * 86400.0) + 1 / 2⌋ := by
  obtain ⟨finite', -⟩ := nearest_seconds finite nonneg
  obtain ⟨low, high⟩ := seconds_bounds finite nonneg
  obtain ⟨whole, rounded⟩ := exact_round finite' low
  have low' : 0 ≤ ⌊exact (fraction x * 86400.0) + 1 / 2⌋ := Int.floor_nonneg.mpr (by linarith)
  have high' : ⌊exact (fraction x * 86400.0) + 1 / 2⌋ < 2 ^ 63 :=
    Int.floor_lt.mpr (by push_cast; linarith)
  rw [nearestSecond, toInt64_eq_floor whole (by rw [rounded]; exact_mod_cast low')
    (by rw [rounded]; exact_mod_cast high'), rounded, Int.floor_intCast]

theorem nearestSecond_bounds : 0 ≤ nearestSecond x ∧ nearestSecond x ≤ 86400 := by
  obtain ⟨low, high⟩ := seconds_bounds finite nonneg
  rw [nearestSecond_eq finite nonneg, Int.floor_nonneg, ← Int.lt_add_one_iff, Int.floor_lt]
  push_cast
  exact ⟨by linarith, by linarith⟩

theorem nearestSecond_eq_iff : nearestSecond x = 86400 ↔ EndsDay x := by
  obtain ⟨finite', -⟩ := nearest_seconds finite nonneg
  have bounds := nearestSecond_bounds finite nonneg
  have half : exact 86399.5 = 86400 - 1 / 2 := by decide +kernel
  have reached : 86400 ≤ nearestSecond x ↔ EndsDay x := by
    rw [nearestSecond_eq finite nonneg, Int.le_floor, EndsDay,
      le_iff_exact (by decide +kernel) finite', half, sub_le_iff_le_add]
    norm_num
  rw [← reached]
  omega

/-- The nearest second is off by hardly more than half a second. -/
theorem abs_sub_nearestSecond :
    |Int.fract (exact x) * 86400 - nearestSecond x| < 1 / 2 + 2 ^ (-36 : ℤ) := by
  obtain ⟨-, nearest⟩ := nearest_seconds finite nonneg
  have low := Int.fract_nonneg (exact x)
  have high := Int.fract_lt_one (exact x)
  have product := nearest.abs_sub_lt (e := -36) (by positivity) (by norm_num; linarith) (by decide)
  have below := Int.floor_le (exact (fraction x * 86400.0) + 1 / 2)
  have above := Int.lt_floor_add_one (exact (fraction x * 86400.0) + 1 / 2)
  rw [← nearestSecond_eq finite nonneg] at below above
  rw [abs_lt] at product ⊢
  constructor <;> linarith

end

/-- Later times of a day have no earlier nearest second. -/
theorem nearestSecond_mono (finite : x.isFinite = true) (nonneg : 0 ≤ exact x)
    (finite' : y.isFinite = true) (nonneg' : 0 ≤ exact y)
    (le : Int.fract (exact x) ≤ Int.fract (exact y)) : nearestSecond x ≤ nearestSecond y := by
  have seconds : exact (fraction x * 86400.0) ≤ exact (fraction y * 86400.0) := by
    obtain ⟨-, nearest⟩ := nearest_seconds finite nonneg
    obtain ⟨-, nearest'⟩ := nearest_seconds finite' nonneg'
    rcases le.lt_or_eq with less | same
    · exact nearest.mono nearest' (by linarith)
    · by_cases zero : Int.fract (exact x) = 0
      · -- zero has two signs, but not as a number of the grid
        rw [← same, zero, zero_mul] at nearest'
        rw [zero, zero_mul] at nearest
        rw [nearest.eq_of_onGrid onGrid_zero, nearest'.eq_of_onGrid onGrid_zero]
      · obtain ⟨number, fract⟩ := exact_fraction finite nonneg
        obtain ⟨number', fract'⟩ := exact_fraction finite' nonneg'
        rw [eq_of_exact_eq number number' (by rw [fract, fract', same]) (by rwa [fract])]
  rw [nearestSecond_eq finite nonneg, nearestSecond_eq finite' nonneg']
  exact Int.floor_le_floor (by linarith)

end Number

namespace DateTime

variable {x y : Float} {t : DateTime}

instance : LE DateTime where
  le t u := t.date < u.date ∨ t.date = u.date ∧ t.second ≤ u.second

instance (t u : DateTime) : Decidable (t ≤ u) :=
  inferInstanceAs (Decidable (_ ∨ _))

/-- Whether a number lies in the date system and not on the day that the calendar lacks. -/
def OnCalendar (x : Float) : Prop :=
  (0 ≤ x ∧ x < Float.ofInt (maxSerial + 1)) ∧
    ¬ (Float.ofInt missingDaySerial ≤ x ∧ x < Float.ofInt (missingDaySerial + 1))

instance : Decidable (OnCalendar x) :=
  inferInstanceAs (Decidable (_ ∧ _))

/-! ### Serials of times -/

theorem nearest_share (second : ℕ) (small : second < 86400) :
    (Float.ofNat second / 86400.0).isFinite = true ∧
      Nearest (second / 86400 : ℚ) (exact (Float.ofNat second / 86400.0)) := by
  have whole : exact (Float.ofNat second) = second := by
    exact_mod_cast exact_ofInt (z := second) (by omega)
  have finite : (Float.ofNat second).isFinite = true := isFinite_ofInt (z := second) (by omega)
  have small' : (second : ℚ) < 86400 := by exact_mod_cast small
  have share := nearest_div finite (show (86400.0 : Float).isFinite = true by decide +kernel)
    (by rw [exact_secondsPerDay]; norm_num)
  rw [whole, exact_secondsPerDay] at share
  refine share ?_
  rw [abs_of_nonneg (by positivity)]
  calc (second : ℚ) / 86400 < 1 := by rw [div_lt_one (by norm_num)]; exact small'
    _ ≤ 2 ^ (1023 : ℤ) := one_le_zpow₀ one_le_two (by decide)

/-- The serial of a time is the day and its share of the next one, with an error far below a
second. -/
theorem nearest_serialNumber (inside : t.date.InSystem) (small : t.second < 86400) :
    |exact t.serialNumber - (t.date.serial + t.second / 86400)| < 2 ^ (-30 : ℤ) := by
  obtain ⟨finite, share⟩ := nearest_share t.second small
  have whole : exact t.date.serialNumber = t.date.serial := exact_ofInt t.date.natAbs_serial_lt
  have low : (0 : ℚ) ≤ t.date.serial := by exact_mod_cast inside.1
  have high : (t.date.serial : ℚ) ≤ 2958465 := by exact_mod_cast inside.2
  have nonneg : (0 : ℚ) ≤ t.second / 86400 := by positivity
  have fraction : (t.second / 86400 : ℚ) < 1 := by
    rw [div_lt_one (by norm_num)]
    exact_mod_cast small
  have share_nonneg := share.nonneg nonneg
  have share_le : exact (Float.ofNat t.second / 86400.0) ≤ 1 :=
    share.mono (.self ⟨1, 0, by decide, by decide, by norm_num⟩) fraction
  have sum := nearest_add t.date.isFinite_serialNumber finite
  rw [whole] at sum
  have bound : (t.date.serial : ℚ) + exact (Float.ofNat t.second / 86400.0) < 2 ^ (22 : ℤ) := by
    norm_num
    linarith
  obtain ⟨-, sum⟩ := sum (by
    rw [abs_of_nonneg (by linarith)]
    exact bound.trans_le (zpow_le_zpow_right₀ one_le_two (by decide)))
  have error := share.abs_sub_lt (e := -53) nonneg (by norm_num; exact fraction) (by decide)
  have error' := sum.abs_sub_lt (e := -31) (by linarith) (by norm_num at bound ⊢; exact bound)
    (by decide)
  rw [serialNumber]
  rw [abs_lt] at error error' ⊢
  norm_num at error error' ⊢
  constructor <;> linarith

theorem ofSerialNumber?_eq_some_iff : ofSerialNumber? x = some t ↔
    ∃ d, Date.ofSerialNumber? x = some d ∧ t = ⟨d, (nearestSecond x % 86400).toNat⟩ := by
  simp only [ofSerialNumber?, Option.map_eq_some_iff, eq_comm (b := t)]
  rfl

theorem exact_of_onCalendar (there : OnCalendar x) : x.isFinite = true ∧ 0 ≤ exact x ∧
    exact x < maxSerial + 1 ∧ ⌊exact x⌋ ≠ missingDaySerial := by
  obtain ⟨finite, nonneg, small⟩ := Date.exact_of_between there.1.1 there.1.2
  refine ⟨finite, nonneg, small, fun missing => there.2 ?_⟩
  rw [le_iff_exact (isFinite_ofInt (by decide)) finite, exact_ofInt (by decide),
    lt_iff_exact finite (isFinite_ofInt (by decide)), exact_ofInt (by decide)]
  rw [Int.floor_eq_iff] at missing
  exact_mod_cast missing

/-- The date of a time is that of its whole part, also if the time rounds up to midnight. -/
theorem exists_time (there : OnCalendar x) : ∃ t, ofSerialNumber? x = some t ∧
    t.date.InSystem ∧ t.date.serial = ⌊exact x⌋ ∧ t.second = (nearestSecond x % 86400).toNat := by
  obtain ⟨finite, nonneg, small, other⟩ := exact_of_onCalendar there
  obtain ⟨d, found⟩ := Date.exists_ofSerial? (Int.floor_nonneg.mpr nonneg)
    (Int.lt_add_one_iff.mp (Int.floor_lt.mpr (by exact_mod_cast small)))
  refine ⟨⟨d, _⟩, ofSerialNumber?_eq_some_iff.mpr
    ⟨d, (Date.ofSerialNumber?_eq finite).trans found, rfl⟩,
    Date.inSystem_of_ofSerial? found, ?_, rfl⟩
  rw [(Date.serial_of_ofSerial? found).2, if_neg other]

/-- Unless midnight ends the day, the time is within a second. -/
theorem abs_sub_le_second (there : OnCalendar x) (found : ofSerialNumber? x = some t)
    (within : ¬ EndsDay x) : |exact t.serialNumber - exact x| ≤ 1 / 86400 := by
  obtain ⟨finite, nonneg, -, -⟩ := exact_of_onCalendar there
  obtain ⟨u, found', inside, serial, second⟩ := exists_time there
  obtain rfl : t = u := Option.some.inj (found.symm.trans found')
  obtain ⟨low, high⟩ := nearestSecond_bounds finite nonneg
  have before := mt (nearestSecond_eq_iff finite nonneg).mp within
  rw [Int.emod_eq_of_lt low (by omega)] at second
  have seconds : (t.second : ℚ) = nearestSecond x := by
    exact_mod_cast (show (t.second : ℤ) = nearestSecond x by omega)
  have error := nearest_serialNumber inside (by omega)
  have error' := abs_sub_nearestSecond finite nonneg
  have parts := Int.floor_add_fract (exact x)
  rw [serial, seconds] at error
  rw [abs_lt] at error error'
  rw [abs_le]
  norm_num at error error' ⊢
  constructor <;> linarith

/-- When midnight ends the day, the time is the start of that day, which is almost a day ago. -/
theorem second_lt_sub (there : OnCalendar x) (found : ofSerialNumber? x = some t)
    (ends : EndsDay x) : t.second = 0 ∧ 1 - 1 / 86400 < exact x - exact t.serialNumber := by
  obtain ⟨finite, nonneg, -, -⟩ := exact_of_onCalendar there
  obtain ⟨u, found', inside, serial, second⟩ := exists_time there
  obtain rfl : t = u := Option.some.inj (found.symm.trans found')
  have midnight := (nearestSecond_eq_iff finite nonneg).mpr ends
  have start : t.second = 0 := by rw [second, midnight]; rfl
  have error := nearest_serialNumber inside (by omega)
  have error' := abs_sub_nearestSecond finite nonneg
  have parts := Int.floor_add_fract (exact x)
  rw [serial, start] at error
  rw [midnight] at error'
  rw [abs_lt] at error error'
  norm_num at error error' ⊢
  exact ⟨start, by linarith⟩

/-- Later times come later, unless the day ends that both lie on. -/
theorem le_of_le {u : DateTime} (there : OnCalendar x) (there' : OnCalendar y) (le : x ≤ y)
    (found : ofSerialNumber? x = some t) (found' : ofSerialNumber? y = some u)
    (within : t.date ≠ u.date ∨ ¬ EndsDay y) : t ≤ u := by
  obtain ⟨finite, nonneg, -, -⟩ := exact_of_onCalendar there
  obtain ⟨finite', nonneg', -, -⟩ := exact_of_onCalendar there'
  obtain ⟨t', same, -, serial, second⟩ := exists_time there
  obtain rfl : t = t' := Option.some.inj (found.symm.trans same)
  obtain ⟨u', same, -, serial', second'⟩ := exists_time there'
  obtain rfl : u = u' := Option.some.inj (found'.symm.trans same)
  rw [le_iff_exact finite finite'] at le
  rcases (Int.floor_le_floor le).lt_or_eq with earlier | same
  · left
    rwa [← Date.serial_lt_serial_iff, serial, serial']
  · right
    have date : t.date = u.date := by
      rcases Date.lt_trichotomy t.date u.date with less | eq | more
      · rw [← Date.serial_lt_serial_iff] at less
        omega
      · exact eq
      · rw [← Date.serial_lt_serial_iff] at more
        omega
    have fract : Int.fract (exact x) ≤ Int.fract (exact y) := by
      rw [Int.fract, Int.fract, same]
      linarith
    have order := nearestSecond_mono finite nonneg finite' nonneg' fract
    have before := mt (nearestSecond_eq_iff finite' nonneg').mp (within.resolve_left (· date))
    have bounds := nearestSecond_bounds finite nonneg
    have bounds' := nearestSecond_bounds finite' nonneg'
    refine ⟨date, ?_⟩
    rw [second, second', Int.emod_eq_of_lt bounds.1 (by omega),
      Int.emod_eq_of_lt bounds'.1 (by omega)]
    omega

/-- Every serial of a day of the calendar has a time. It is within a second of the serial, and later
serials have later times, except where midnight at the end of the day is the nearest second: then
the time is midnight at the start of that day. -/
theorem serial_roundTrip_to_second (x : Float) (there : OnCalendar x) :
    ∃ t, ofSerialNumber? x = some t ∧
      (¬ EndsDay x → |exact t.serialNumber - exact x| ≤ 1 / 86400) ∧
      (EndsDay x → t.second = 0 ∧ 1 - 1 / 86400 < exact x - exact t.serialNumber) ∧
      ∀ y u, OnCalendar y → x ≤ y → ofSerialNumber? y = some u →
        t.date ≠ u.date ∨ ¬ EndsDay y → t ≤ u := by
  obtain ⟨t, found, -⟩ := exists_time there
  exact ⟨t, found, abs_sub_le_second there found, second_lt_sub there found,
    fun y u there' le found' => le_of_le there there' le found found'⟩

/-- Noon comes back, and the evening after it is later. -/
theorem noon_comes_back : OnCalendar 45292.5 ∧ ¬ EndsDay 45292.5 ∧ OnCalendar 45292.75 ∧
    ∃ t u, ofSerialNumber? 45292.5 = some t ∧ ofSerialNumber? 45292.75 = some u ∧
      |exact t.serialNumber - exact 45292.5| ≤ 1 / 86400 ∧ t ≤ u := by
  have noon : OnCalendar 45292.5 := by decide +kernel
  have early : ¬ EndsDay 45292.5 := by decide +kernel
  have evening : OnCalendar 45292.75 := by decide +kernel
  have early' : ¬ EndsDay 45292.75 := by decide +kernel
  obtain ⟨t, found, near, -, later⟩ := serial_roundTrip_to_second 45292.5 noon
  obtain ⟨u, found', -⟩ := serial_roundTrip_to_second 45292.75 evening
  exact ⟨noon, early, evening, t, u, found, found', near early,
    later 45292.75 u evening (by decide +kernel) found' (.inr early')⟩

/-- A moment before midnight is the start of its day, earlier than noon and a day away. -/
theorem midnight_is_not_carried :
    OnCalendar 45292.9999999 ∧ (45292.5 : Float) ≤ 45292.9999999 ∧
    ∃ t u, ofSerialNumber? 45292.9999999 = some t ∧ ofSerialNumber? 45292.5 = some u ∧
      t.serialNumber = 45292.0 ∧ ¬ |exact t.serialNumber - exact 45292.9999999| ≤ 1 / 86400 ∧
      ¬ u ≤ t := by
  let day : Date := ⟨2024, 1, 1, by decide, by decide, by decide⟩
  exact ⟨by decide +kernel, by decide +kernel, ⟨day, 0⟩, ⟨day, 43200⟩, by decide +kernel,
    by decide +kernel, by decide +kernel, by decide +kernel, by decide +kernel⟩

end DateTime

end Recalc
