import Recalc.Proofs.Calendar
import Recalc.Proofs.Returns
import Recalc.Proofs.WholeNumbers

/-!
# Dates as values

A date is passed on as its serial, which is an integer and a float exactly. What takes dates takes
the serial of a date within the date system for that date and refuses all others
(`Arguments.date_of_serialNumber`), so a date argument always lies within the date system.
-/
namespace Recalc

theorem Outcome.bind_eq_ok_iff {α β : Type} {outcome : Outcome α} {next : α → Outcome β} {b : β} :
    (outcome >>= next) = .ok b ↔ ∃ a, outcome = .ok a ∧ next a = .ok b := by
  cases outcome <;> simp [bind, Except.bind]

variable {args : Arguments} {i : Nat} {d : Date} {s : Int}

namespace Date

/-- Whether a date lies within the date system, from the last of December 1899 on. -/
def InSystem (d : Date) : Prop :=
  0 ≤ d.serial ∧ d.serial ≤ maxSerial

instance : Decidable d.InSystem :=
  inferInstanceAs (Decidable (_ ∧ _))

theorem InSystem.of_between {first last : Date} (inside : first.InSystem) (inside' : last.InSystem)
    (from_first : first ≤ d) (to_last : d ≤ last) : d.InSystem := by
  have low := serial_le_serial_iff.mpr from_first
  have high := serial_le_serial_iff.mpr to_last
  unfold InSystem at *
  omega

theorem inSystem_of_ofSerial? (found : ofSerial? s = some d) : d.InSystem := by
  obtain ⟨within, serial⟩ := serial_of_ofSerial? found
  unfold InSystem
  unfold missingDaySerial at serial
  omega

/-- Integers are read without rounding. -/
theorem ofSerialNumber?_ofInt (small : s.natAbs < 2 ^ 53) :
    ofSerialNumber? (Float.ofInt s) = ofSerial? s := by
  obtain ⟨x, read, sign, whole⟩ := Number.dyadic?_ofInt small
  rw [ofSerialNumber?, read]
  simp only [sign, Number.Dyadic.magnitudeDown_of_whole whole]
  split
  next negative => rw [ofSerial?, if_pos (.inl negative.1)]
  next nonnegative =>
    have magnitude : (s.natAbs : Int) = s := by
      by_cases negative : s < 0
      · -- a negative integer has a mantissa that is not zero
        have zero : x.mantissa = 0 := by omega
        rw [Number.Dyadic.numerator, zero, Nat.zero_mul] at whole
        rcases Nat.mul_eq_zero.mp whole.symm with none | none
        · omega
        · exact absurd none (Nat.ne_of_gt (Nat.two_pow_pos _))
      · omega
    rw [magnitude]

/-- All serials are small numbers, also those of dates outside the date system. -/
theorem natAbs_serial_lt (d : Date) : d.serial.natAbs < 2 ^ 53 := by
  -- the calendar ends on both sides
  have low := daysBeforeYear_mono d.year_bounds.1
  have high := daysBeforeYear_mono (Int.add_le_add_right d.year_bounds.2 1)
  have first : daysBeforeYear firstYear = -95746130 := by decide
  have last : daysBeforeYear (lastYear + 1) = 95745399 := by decide
  have after := d.dayNumber_eq
  have before := d.dayNumber_lt_daysBeforeYear
  rw [serial_eq, missingDaySerial, serialOrigin]
  omega

theorem ofSerialNumber?_serialNumber (d : Date) :
    ofSerialNumber? d.serialNumber = if d.InSystem then some d else none := by
  rw [serialNumber, ofSerialNumber?_ofInt d.natAbs_serial_lt, ofSerial?_serial]
  rfl

theorem isFinite_serialNumber (d : Date) : d.serialNumber.isFinite = true :=
  Number.isFinite_ofInt d.natAbs_serial_lt

end Date

/-! ### Dates as arguments -/

theorem Value.asDateSerial_ofInt (small : s.natAbs < 2 ^ 53) :
    (number (Float.ofInt s)).asDateSerial =
      if 0 ≤ s ∧ s ≤ maxSerial then .ok (Float.ofInt s) else Recalc.complain .serialOutOfRange := by
  -- the two bounds are integers too, so floats decide as integers do
  have low : Float.ofInt s < 0.0 ↔ s < 0 := Number.ofInt_lt_iff (z := 0) small (by decide)
  have high : Float.ofInt maxSerial < Float.ofInt s ↔ maxSerial < s :=
    Number.ofInt_lt_iff (by decide) small
  show (requireFinite (Float.ofInt s) >>= fun x : Float =>
    if x < 0.0 ∨ Float.ofInt maxSerial < x then Recalc.complain .serialOutOfRange else .ok x) = _
  rw [requireFinite, if_pos (Number.isFinite_ofInt small)]
  show (if Float.ofInt s < 0.0 ∨ Float.ofInt maxSerial < Float.ofInt s then
    Recalc.complain .serialOutOfRange else .ok (Float.ofInt s)) = _
  simp only [low, high]
  by_cases within : 0 ≤ s ∧ s ≤ maxSerial
  · rw [if_neg (by omega), if_pos within]
  · rw [if_pos (by omega), if_neg within]

theorem Value.asDateSerial_serialNumber (d : Date) : (number d.serialNumber).asDateSerial =
    if d.InSystem then .ok d.serialNumber else Recalc.complain .serialOutOfRange :=
  asDateSerial_ofInt d.natAbs_serial_lt

namespace Arguments

theorem daySerial_of_serialNumber (stands : args.get? i = some (.number d.serialNumber)) :
    args.daySerial i = if d.InSystem then .ok d.serialNumber else complain .serialOutOfRange := by
  simp only [daySerial, required, stands]
  show ((Value.number d.serialNumber).asDateSerial >>= fun x => .ok (Number.floor x)) = _
  rw [Value.asDateSerial_serialNumber]
  by_cases inside : d.InSystem
  · -- a serial has no time of day to be rounded off
    obtain ⟨n, whole⟩ := Int.eq_ofNat_of_zero_le inside.1
    have small := d.natAbs_serial_lt
    simp only [if_pos inside, Date.serialNumber]
    rw [whole] at small ⊢
    exact congrArg Except.ok (Number.floor_ofNat small)
  · simp only [if_neg inside]
    rfl

/-- The serial of a date is taken for that date, if it lies within the date system. -/
theorem date_of_serialNumber (stands : args.get? i = some (.number d.serialNumber)) :
    args.date i = if d.InSystem then .ok d else complain .serialOutOfRange := by
  rw [date, daySerial_of_serialNumber stands]
  split
  next within =>
    simp only [bind, Except.bind, Date.ofSerialNumber?_serialNumber, if_pos within]
    rfl
  next => rfl

/-- A date argument lies within the date system. -/
theorem inSystem_of_date (given : args.date i = .ok d) : d.InSystem := by
  obtain ⟨x, -, read⟩ := Outcome.bind_eq_ok_iff.mp given
  unfold Date.ofSerialNumber? at read
  split at read
  next e found =>
    cases read
    split at found
    next y finite =>
      split at found
      next => cases found
      next => exact Date.inSystem_of_ofSerial? found
    next => cases found
  next => cases read

end Arguments

/-! ### Calls of checked functions -/

namespace Function

variable {name : String} {least greatest : Nat} {policy : BooleanPolicy}
  {g : Arguments → Outcome Value} {values : List Value} {x : Float}

theorem acceptsCount_checked : (checked name least greatest policy g).acceptsCount values.length =
    true ↔ least ≤ values.length ∧ values.length ≤ greatest := by
  rw [acceptsCount, Bool.and_eq_true]
  exact and_congr decide_eq_true_iff decide_eq_true_iff

/-- A function whose arguments pass their check delivers what it computes from them. -/
theorem call_checked (accepted : least ≤ values.length ∧ values.length ≤ greatest)
    (passed : Arguments.check policy values = .ok args) (ambient : Ambient) (drawn : Nat) :
    (checked name least greatest policy g).call ambient drawn values =
      (Outcome.toValue ((g args).map Value.toResult), drawn) := by
  simp only [call, if_pos (acceptsCount_checked.mpr accepted)]
  simp only [checked, between, passed, bind, Except.bind]
  cases g args <;> rfl

theorem toResult_number (finite : x.isFinite = true) : (Value.number x).toResult = .number x := by
  show (if x.isFinite then Value.number x else _) = _
  rw [if_pos finite]

/-- A number comes from a call whose arguments were accepted. -/
theorem accepted_of_call_eq_number {ambient : Ambient} {drawn : Nat}
    (returned : ((checked name least greatest policy g).call ambient drawn values).1 = .number x) :
    (least ≤ values.length ∧ values.length ≤ greatest) ∧
      ∃ args, Arguments.check policy values = .ok args := by
  have accepted : least ≤ values.length ∧ values.length ≤ greatest := by
    by_contra refused
    rw [call_fst, if_neg (mt acceptsCount_checked.mp refused)] at returned
    cases returned
  refine ⟨accepted, ?_⟩
  cases passed : Arguments.check policy values with
  | ok args => exact ⟨args, rfl⟩
  | error e =>
    rw [call_fst, if_pos (acceptsCount_checked.mpr accepted)] at returned
    simp only [compute, checked, between, passed] at returned
    cases returned

end Function

/-- Functions of dates and of bonds are found under their names. -/
theorem Library.get?_of_dated {f : Function} {name : String}
    (listed : f ∈ Dates.functions ++ Bonds.functions) (named : f.name = name) :
    standard.get? name = some f := by
  subst named
  refine get?_standard ?_
  simp only [standardFunctions, List.mem_append] at listed ⊢
  tauto

/-- Whether a call of a function by its name gives a value, whatever the clock shows and whichever
samples are drawn. -/
def Library.CallGives (name : String) (values : List Value) (v : Value) : Prop :=
  ∃ f, standard.get? name = some f ∧ ∀ ambient drawn, f.call ambient drawn values = (v, drawn)

end Recalc
