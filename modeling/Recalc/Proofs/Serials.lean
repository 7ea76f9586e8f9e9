import Recalc.Proofs.DateValues
import Recalc.Proofs.ExactValues

/-!
# Serials and dates

A float names the date whose serial is its whole part (`ofSerialNumber?_eq`), so dates and serials
translate into each other in both directions (`serial_roundTrip`).
-/
namespace Recalc.Date

open Number

variable {d e : Date} {s : ℤ} {x y : Float}

/-- The first date of the date system, that of serial zero. -/
def firstInSystem : Date :=
  ⟨1899, 12, 31, by decide, by decide, by decide⟩

/-- The last date of the date system. -/
def lastInSystem : Date :=
  ⟨9999, 12, 31, by decide, by decide, by decide⟩

theorem inSystem_iff : d.InSystem ↔ firstInSystem ≤ d ∧ d ≤ lastInSystem := by
  rw [← serial_le_serial_iff, ← serial_le_serial_iff, show firstInSystem.serial = 0 by decide,
    show lastInSystem.serial = maxSerial by decide, InSystem]

/-- Every serial of the date system has a date. -/
theorem exists_ofSerial? (low : 0 ≤ s) (high : s ≤ maxSerial) : ∃ d, ofSerial? s = some d := by
  obtain ⟨n, number⟩ : ∃ n, n = serialOrigin + if s < missingDaySerial then s else s - 1 := ⟨_, rfl⟩
  have years : firstYear ≤ yearOfDayNumber n ∧ yearOfDayNumber n ≤ lastYear := by
    obtain ⟨before, after⟩ := yearOfDayNumber_bounds n
    unfold daysBeforeYear at before after
    unfold serialOrigin missingDaySerial at number
    unfold maxSerial at high
    unfold firstYear lastYear
    omega
  obtain ⟨d, -, found⟩ := exists_ofDayNumber? years
  exact ⟨d, ofSerial?_eq_some_iff.mpr ⟨⟨low, high⟩, found.trans number⟩⟩

/-- A number names the date of its whole part. -/
theorem ofSerialNumber?_eq (finite : x.isFinite = true) :
    ofSerialNumber? x = ofSerial? ⌊exact x⌋ := by
  obtain ⟨z, read⟩ := isFinite_iff.mp finite
  rw [exact_of_dyadic? read]
  simp only [ofSerialNumber?, read]
  cases sign : z.negative with
  | false => rw [if_neg (by simp), z.toRat_of_not_negative sign, ← z.magnitudeDown_eq]
  | true =>
    rw [z.toRat_of_negative sign]
    split
    next nonzero =>
      have pos : 0 < z.numerator :=
        Nat.mul_pos (Nat.pos_of_ne_zero nonzero.2) (Nat.two_pow_pos _)
      have below : -((z.numerator : ℚ) / z.denominator) < (0 : ℤ) := by
        rw [Int.cast_zero, neg_lt_zero]
        exact div_pos (by exact_mod_cast pos) (by exact_mod_cast z.denominator_pos)
      rw [ofSerial?, if_pos (.inl (Int.floor_lt.mpr below))]
    next zero =>
      -- the zero with a sign is a number of the first date too
      have none : z.numerator = 0 := by simp_all [Dyadic.numerator]
      simp [Dyadic.magnitudeDown, none]

theorem ofSerialNumber?_of_not_finite (infinite : x.isFinite = false) :
    ofSerialNumber? x = none := by
  simp only [ofSerialNumber?, dyadic?_eq_none infinite]

theorem isFinite_of_ofSerialNumber? (found : ofSerialNumber? x = some d) : x.isFinite = true := by
  by_contra infinite
  rw [ofSerialNumber?_of_not_finite (by simpa using infinite)] at found
  cases found

theorem ofSerialNumber?_eq_some_iff : ofSerialNumber? x = some d ↔
    x.isFinite = true ∧ ofSerial? ⌊exact x⌋ = some d := by
  refine ⟨fun found => ?_, fun ⟨finite, found⟩ => (ofSerialNumber?_eq finite).trans found⟩
  have finite := isFinite_of_ofSerialNumber? found
  exact ⟨finite, (ofSerialNumber?_eq finite).symm.trans found⟩

theorem between_iff_exact (finite : x.isFinite = true) :
    0 ≤ x ∧ x < Float.ofInt (maxSerial + 1) ↔ 0 ≤ exact x ∧ exact x < maxSerial + 1 := by
  have zero : exact 0 = 0 := by decide +kernel
  have bound : exact (Float.ofInt (maxSerial + 1)) = maxSerial + 1 := by
    exact_mod_cast exact_ofInt (z := maxSerial + 1) (by decide)
  rw [le_iff_exact (by decide +kernel) finite, zero,
    lt_iff_exact finite (isFinite_ofInt (by decide)), bound]

/-- The numbers from zero to the end of the last day have exact values between these bounds. -/
theorem exact_of_between (low : 0 ≤ x) (high : x < Float.ofInt (maxSerial + 1)) :
    x.isFinite = true ∧ 0 ≤ exact x ∧ exact x < maxSerial + 1 :=
  have finite := isFinite_of_between (by decide +kernel) low high
  ⟨finite, (between_iff_exact finite).mp ⟨low, high⟩⟩

/-- Later dates have larger serials as floats too. -/
theorem serialNumber_lt (less : d < e) : d.serialNumber < e.serialNumber :=
  (ofInt_lt_iff d.natAbs_serial_lt e.natAbs_serial_lt).mpr (serial_lt_serial_iff.mpr less)

theorem le_of_ofSerialNumber? (le : x ≤ y) (found : ofSerialNumber? x = some d)
    (found' : ofSerialNumber? y = some e) : d ≤ e := by
  obtain ⟨finite, found⟩ := ofSerialNumber?_eq_some_iff.mp found
  obtain ⟨finite', found'⟩ := ofSerialNumber?_eq_some_iff.mp found'
  have order := Int.floor_le_floor ((le_iff_exact finite finite').mp le)
  have serial := (serial_of_ofSerial? found).2
  have serial' := (serial_of_ofSerial? found').2
  rw [← serial_le_serial_iff, serial, serial', missingDaySerial]
  omega

/-- Dates and serials translate into each other: a date of the date system has a serial that names
it again, and a number from zero to the end of the last day names the date that its whole part is
the serial of, or the day before if that is the missing day. Other numbers name no date. Both
directions keep the order. -/
theorem serial_roundTrip :
    (∀ d, firstInSystem ≤ d → d ≤ lastInSystem → ofSerialNumber? d.serialNumber = some d) ∧
    (∀ x : Float, 0 ≤ x → x < Float.ofInt (maxSerial + 1) →
      ∃ d, ofSerialNumber? x = some d ∧ d.serialNumber =
        Float.ofInt (if ⌊exact x⌋ = missingDaySerial then 59 else ⌊exact x⌋)) ∧
    (∀ x : Float, ¬ (0 ≤ x ∧ x < Float.ofInt (maxSerial + 1)) → ofSerialNumber? x = none) ∧
    (∀ d e : Date, d < e → d.serialNumber < e.serialNumber) ∧
    (∀ (x y : Float) (d e : Date), x ≤ y → ofSerialNumber? x = some d →
      ofSerialNumber? y = some e → d ≤ e) := by
  refine ⟨fun d first last => ?_, fun x low high => ?_, fun x outside => ?_,
    fun d e => serialNumber_lt, fun x y d e => le_of_ofSerialNumber?⟩
  · rw [ofSerialNumber?_serialNumber, if_pos (inSystem_iff.mpr ⟨first, last⟩)]
  · obtain ⟨finite, nonneg, small⟩ := exact_of_between low high
    obtain ⟨d, found⟩ := exists_ofSerial? (Int.floor_nonneg.mpr nonneg)
      (Int.lt_add_one_iff.mp (Int.floor_lt.mpr (by exact_mod_cast small)))
    refine ⟨d, (ofSerialNumber?_eq finite).trans found, ?_⟩
    rw [serialNumber, (serial_of_ofSerial? found).2]
    congr 1
    split
    next missing => rw [missing]; rfl
    next => rfl
  · refine Option.eq_none_iff_forall_ne_some.mpr fun d found => outside ?_
    obtain ⟨finite, found⟩ := ofSerialNumber?_eq_some_iff.mp found
    obtain ⟨⟨low, high⟩, -⟩ := serial_of_ofSerial? found
    refine (between_iff_exact finite).mpr ⟨Int.floor_nonneg.mp low, ?_⟩
    exact_mod_cast Int.floor_lt.mp (Int.lt_add_one_iff.mpr high)

/-- The day before the missing one stands for it, at each of its hours. -/
theorem serial_roundTrip_firstMonths :
    (firstInSystem ≤ firstInSystem ∧ firstInSystem ≤ lastInSystem ∧
      ofSerialNumber? firstInSystem.serialNumber = some firstInSystem) ∧
    ((0 : Float) ≤ 60.5 ∧ 60.5 < Float.ofInt (maxSerial + 1) ∧
      ∃ d, ofSerialNumber? 60.5 = some d ∧ d.serialNumber =
        Float.ofInt (if ⌊exact 60.5⌋ = missingDaySerial then 59 else ⌊exact 60.5⌋)) ∧
    (¬ (0 ≤ (-0.5 : Float) ∧ (-0.5 : Float) < Float.ofInt (maxSerial + 1)) ∧
      ofSerialNumber? (-0.5) = none) ∧
    (firstInSystem < lastInSystem ∧
      firstInSystem.serialNumber < lastInSystem.serialNumber) :=
  have below : ¬ (0 ≤ (-0.5 : Float) ∧ (-0.5 : Float) < Float.ofInt (maxSerial + 1)) := by
    decide +kernel
  ⟨⟨by decide, by decide, serial_roundTrip.1 firstInSystem (by decide) (by decide)⟩,
    ⟨by decide +kernel, by decide +kernel,
      serial_roundTrip.2.1 60.5 (by decide +kernel) (by decide +kernel)⟩,
    ⟨below, serial_roundTrip.2.2.1 (-0.5) below⟩,
    by decide, serial_roundTrip.2.2.2.1 firstInSystem lastInSystem (by decide)⟩

end Recalc.Date
