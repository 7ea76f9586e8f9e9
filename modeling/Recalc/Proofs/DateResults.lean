import Recalc.Proofs.Coupons

/-!
# Computed dates

Five functions of the library compute a date and deliver its serial. What four of them deliver lies
within the date system, so that it is a date wherever one is expected, and `#NUM!` takes the place
of dates outside (`DateFunction.usable_or_early`). The coupon date before settlement is delivered
unchecked: it alone may lie before the date system begins.
-/
namespace Recalc

/-- The functions that compute a date. -/
inductive DateFunction where
  | date
  | edate
  | eomonth
  | couppcd
  | coupncd
deriving DecidableEq

namespace DateFunction

def name : DateFunction → String
  | date => "DATE"
  | edate => "EDATE"
  | eomonth => "EOMONTH"
  | couppcd => "COUPPCD"
  | coupncd => "COUPNCD"

def policy : DateFunction → BooleanPolicy
  | date | edate | eomonth => .coerce
  | couppcd | coupncd => .reject

/-- The date that a function computes from its arguments, `none` if the calendar lacks it. -/
def computed : DateFunction → Arguments → Outcome (Option Date)
  | date, args => do
    let year ← args.integer 0
    let month ← args.integer 1
    let day ← args.integer 2
    return Dates.dateOfParts? (← Dates.fullYear year) month day
  | edate, args => do
    let start ← args.date 0
    return start.addMonths? (Number.toInt64 (← args.number 1))
  | eomonth, args => do
    let start ← args.date 0
    return (start.addMonths? (Number.toInt64 (← args.number 1))).map Date.lastOfMonth
  | couppcd, args => do return (← Bonds.bond args).previousCoupon?
  | coupncd, args => do return (← Bonds.bond args).nextCoupon?

/-- The error for a date that the calendar does not have. -/
def absence : DateFunction → CellError
  | date => Complaint.dateOutOfRange.error
  | edate | eomonth => .plain .number
  | couppcd | coupncd => Complaint.couponOutOfRange.error

/-- What a function makes of the date that it computes. Only some look at its serial. -/
def deliver (f : DateFunction) : Option Date → Outcome Value
  | none => .error f.absence
  | some d =>
    match f with
    | date | edate | eomonth => Dates.serialOf d
    | couppcd | coupncd => .ok (.number d.serialNumber)

variable {f : DateFunction} {args : Arguments} {d : Date} {found : Option Date}
  {values : List Value} {x : Float}

/-- Functions that run checked arguments through `computed` and `deliver`. -/
def Runs (f : DateFunction) (g : Arguments → Outcome Value) : Prop :=
  ∀ args, g args = f.computed args >>= f.deliver

theorem date_runs : date.Runs Dates.date := fun args => by
  simp only [Dates.date, computed, bind_assoc, pure_bind]
  refine bind_congr fun year => bind_congr fun month => bind_congr fun day => ?_
  refine bind_congr fun full => ?_
  cases Dates.dateOfParts? full month day <;> rfl

theorem edate_runs :
    edate.Runs (fun args => do Dates.serialOf (← Dates.shifted args)) := fun args => by
  simp only [Dates.shifted, computed, bind_assoc, pure_bind]
  refine bind_congr fun start => bind_congr fun months => ?_
  cases start.addMonths? (Number.toInt64 months) <;> rfl

theorem eomonth_runs : eomonth.Runs (fun args => do
    Dates.serialOf (← Dates.shifted args).lastOfMonth) := fun args => by
  simp only [Dates.shifted, computed, bind_assoc, pure_bind]
  refine bind_congr fun start => bind_congr fun months => ?_
  cases start.addMonths? (Number.toInt64 months) <;> rfl

/-- The computation of a bond function that delivers the serial of one of the coupon dates. -/
def serialOfBond (which : Bond → Option Date) (args : Arguments) : Outcome Value := do
  match (which (← Bonds.bond args)).map Date.serialNumber with
  | some x => return .number x
  | none => complain .couponOutOfRange

theorem couppcd_runs : couppcd.Runs (serialOfBond Bond.previousCoupon?) := fun args => by
  simp only [serialOfBond, computed, bind_assoc, pure_bind]
  refine bind_congr fun b => ?_
  cases b.previousCoupon? <;> rfl

theorem coupncd_runs : coupncd.Runs (serialOfBond Bond.nextCoupon?) := fun args => by
  simp only [serialOfBond, computed, bind_assoc, pure_bind]
  refine bind_congr fun b => ?_
  cases b.nextCoupon? <;> rfl

/-- Each function is found under its name, and delivers the date that it computes. -/
theorem exists_checked (f : DateFunction) : ∃ least greatest g,
    Library.standard.get? f.name = some (.checked f.name least greatest f.policy g) ∧ f.Runs g := by
  cases f with
  | date =>
    refine ⟨3, 3, Dates.date, Library.get?_of_dated ?_ rfl, date_runs⟩
    simp [Dates.functions, name, policy]
  | edate =>
    refine ⟨2, 2, _, Library.get?_of_dated ?_ rfl, edate_runs⟩
    simp [Dates.functions, name, policy]
  | eomonth =>
    refine ⟨2, 2, _, Library.get?_of_dated ?_ rfl, eomonth_runs⟩
    simp [Dates.functions, name, policy]
  | couppcd =>
    refine ⟨3, 4, serialOfBond Bond.previousCoupon?, Library.get?_of_dated ?_ rfl, couppcd_runs⟩
    show Bonds.ofBond "COUPPCD" (fun b => b.previousCoupon?.map Date.serialNumber) ∈ _
    simp [Bonds.functions]
  | coupncd =>
    refine ⟨3, 4, serialOfBond Bond.nextCoupon?, Library.get?_of_dated ?_ rfl, coupncd_runs⟩
    show Bonds.ofBond "COUPNCD" (fun b => b.nextCoupon?.map Date.serialNumber) ∈ _
    simp [Bonds.functions]

/-- Whether the date that a function computes lies before the date system and the function does not
look at that. -/
def Early (f : DateFunction) (d : Date) : Prop :=
  f = couppcd ∧ d.serial < 0

/-- Whether a function delivers a date that it has computed. -/
def Admits (f : DateFunction) (d : Date) : Prop :=
  d.InSystem ∨ f.Early d

/-- Whether a number is the serial of a date within the date system, so that it is taken for that
date wherever a date is expected. -/
structure Usable (x : Float) (d : Date) : Prop where
  whole : x = Float.ofInt d.serial
  inside : 0 ≤ d.serial ∧ d.serial ≤ maxSerial
  read : Date.ofSerialNumber? x = some d
  taken : ∀ args : Arguments, ∀ i, args.get? i = some (.number x) →
    args.daySerial i = .ok x ∧ args.date i = .ok d

theorem usable_serialNumber (inside : d.InSystem) : Usable d.serialNumber d where
  whole := rfl
  inside := inside
  read := by rw [Date.ofSerialNumber?_serialNumber, if_pos inside]
  taken args i stands := by
    rw [Arguments.daySerial_of_serialNumber stands, Arguments.date_of_serialNumber stands,
      if_pos inside, if_pos inside]
    exact ⟨rfl, rfl⟩

/-- The coupon dates around settlement do not lie beyond maturity. -/
theorem inSystem_or_early_of_bond {b : Bond} (described : Bonds.bond args = .ok b) :
    (b.previousCoupon? = some d → d.InSystem ∨ d.serial < 0) ∧
      (b.nextCoupon? = some d → d.InSystem) := by
  obtain ⟨settles, matures, -⟩ := Bonds.exists_arguments_of_bond described
  have settled := Arguments.inSystem_of_date settles
  have matured := Arguments.inSystem_of_date matures
  obtain ⟨previous, next, back, forth, brackets⟩ :=
    Bond.exists_brackets (Bonds.regular_of_bond described)
  constructor
  · intro computed
    obtain rfl : previous = d := Option.some.inj (back.symm.trans computed)
    have before := Date.serial_le_serial_iff.mpr brackets.latest.1.2
    have := settled.2
    unfold Date.InSystem
    omega
  · intro computed
    obtain rfl : next = d := Option.some.inj (forth.symm.trans computed)
    have after := Date.lt_iff_dayNumber.mp brackets.earliest.1.2
    exact .of_between settled matured (Date.le_iff_dayNumber.mpr (by omega)) brackets.matures

theorem deliver_of_admits (admits : f.Admits d) :
    f.deliver (some d) = .ok (.number d.serialNumber) := by
  have guarded : ¬ f.Early d → Dates.serialOf d = .ok (.number d.serialNumber) := fun late =>
    if_pos (admits.resolve_right late)
  cases f with
  | date => exact guarded fun early => nomatch early.1
  | edate => exact guarded fun early => nomatch early.1
  | eomonth => exact guarded fun early => nomatch early.1
  | couppcd | coupncd => rfl

/-- Instead of the dates that are not delivered there is a `#NUM!`. -/
theorem deliver_of_not_admits (computes : f.computed args = .ok found)
    (refuses : ∀ d, found = some d → ¬ f.Admits d) :
    ∃ e, f.deliver found = .error e ∧ e.kind = .number := by
  cases found with
  | none => exact ⟨f.absence, rfl, by cases f <;> rfl⟩
  | some d =>
    have refused := refuses d rfl
    have guarded : Dates.serialOf d = .error Complaint.dateOutOfRange.error :=
      if_neg (mt Or.inl refused)
    cases f with
    | date => exact ⟨_, guarded, rfl⟩
    | edate => exact ⟨_, guarded, rfl⟩
    | eomonth => exact ⟨_, guarded, rfl⟩
    -- what bonds compute is admitted, so nothing is refused
    | couppcd =>
      obtain ⟨b, described, same⟩ := Outcome.bind_eq_ok_iff.mp computes
      have place := (inSystem_or_early_of_bond described).1 (Except.ok.inj same)
      exact absurd (place.imp_right fun early => ⟨rfl, early⟩) refused
    | coupncd =>
      obtain ⟨b, described, same⟩ := Outcome.bind_eq_ok_iff.mp computes
      exact absurd (.inl ((inSystem_or_early_of_bond described).2 (Except.ok.inj same))) refused

/-- A call delivers a number for the dates that the function admits, and `#NUM!` for all others. -/
theorem call_of_computed {least greatest : Nat} {g : Arguments → Outcome Value} (runs : f.Runs g)
    (accepted : least ≤ values.length ∧ values.length ≤ greatest)
    (passed : Arguments.check f.policy values = .ok args) (computes : f.computed args = .ok found)
    (ambient : Ambient) (drawn : Nat) :
    let result := ((Function.checked f.name least greatest f.policy g).call ambient drawn values).1
    (∀ d, found = some d → f.Admits d → result = .number d.serialNumber) ∧
      ((∀ d, found = some d → ¬ f.Admits d) → ∃ e, result = .error e ∧ e.kind = .number) := by
  intro result
  have delivered : result = Outcome.toValue ((f.deliver found).map Value.toResult) := by
    show (Function.call _ _ _ _).1 = _
    rw [Function.call_checked accepted passed, runs, computes]
    rfl
  constructor
  · rintro d rfl admits
    rw [delivered, deliver_of_admits admits]
    exact Function.toResult_number d.isFinite_serialNumber
  · intro refuses
    obtain ⟨e, refused, number⟩ := deliver_of_not_admits computes refuses
    exact ⟨e, by rw [delivered, refused]; rfl, number⟩

/-- For every argument list, a number that one of these functions delivers is the serial of the date
that it computes, and is usable as that date; and a date outside the date system, or none at all, is
`#NUM!`. The exception is a previous coupon date from before the date system. -/
theorem usable_or_early (f : DateFunction) (values : List Value) (ambient : Ambient) (drawn : Nat) :
    ∃ fn, Library.standard.get? f.name = some fn ∧
      (∀ x, (fn.call ambient drawn values).1 = .number x →
        ∃ args d, Arguments.check f.policy values = .ok args ∧ f.computed args = .ok (some d) ∧
          x = d.serialNumber ∧ (Usable x d ∨ f.Early d)) ∧
      ∀ args found, fn.acceptsCount values.length = true →
        Arguments.check f.policy values = .ok args → f.computed args = .ok found →
        (∀ d, found = some d → ¬ d.InSystem ∧ ¬ f.Early d) →
        ∃ e, (fn.call ambient drawn values).1 = .error e ∧ e.kind = .number := by
  obtain ⟨least, greatest, g, registered, runs⟩ := exists_checked f
  refine ⟨_, registered, fun x returned => ?_, fun args found counted passed computes outside => ?_⟩
  · obtain ⟨accepted, args, passed⟩ := Function.accepted_of_call_eq_number returned
    cases computes : f.computed args with
    | error e =>
      rw [Function.call_checked accepted passed, runs, computes] at returned
      cases returned
    | ok found =>
      obtain ⟨admitted, refused⟩ := call_of_computed runs accepted passed computes ambient drawn
      -- a number can only come from an admitted date, because everything else is an error
      by_cases admits : ∃ d, found = some d ∧ f.Admits d
      · obtain ⟨d, rfl, admits⟩ := admits
        cases returned.symm.trans (admitted d rfl admits)
        exact ⟨args, d, passed, computes, rfl, admits.imp_left usable_serialNumber⟩
      · obtain ⟨e, error, -⟩ := refused fun d same admits' => admits ⟨d, same, admits'⟩
        cases returned.symm.trans error
  · have accepted := Function.acceptsCount_checked.mp counted
    refine (call_of_computed runs accepted passed computes ambient drawn).2 fun d same => ?_
    exact not_or.mpr (outside d same)

/-- Settled on the first day of the date system, a bond has its previous coupon date before it. What
is delivered for that is no date to any function. -/
theorem early_coupon_is_no_date :
    Library.CallGives "COUPPCD" [.number (Float.ofInt 0), .number (Float.ofInt 167), .number 1.0]
      (.number (Float.ofInt (-199))) ∧
    Date.ofSerialNumber? (Float.ofInt (-199)) = none ∧
    ∀ args : Arguments, ∀ i, args.get? i = some (.number (Float.ofInt (-199))) →
      args.date i = complain .serialOutOfRange := by
  let settlement : Date := ⟨1899, 12, 31, by decide, by decide, by decide⟩
  let maturity : Date := ⟨1900, 6, 15, by decide, by decide, by decide⟩
  let previous : Date := ⟨1899, 6, 15, by decide, by decide, by decide⟩
  let args : Arguments :=
    ⟨[.number settlement.serialNumber, .number maturity.serialNumber, .number 1.0]⟩
  have settles : args.date 0 = .ok settlement :=
    (Arguments.date_of_serialNumber rfl).trans (if_pos (by decide))
  have matures : args.date 1 = .ok maturity :=
    (Arguments.date_of_serialNumber rfl).trans (if_pos (by decide))
  have pays : args.integer 2 = .ok 1 := rfl
  have counts : args.integerOr 3 0 = .ok 0 := rfl
  have described := Bonds.bond_of_arguments settles matures pays counts (by decide) (by decide)
    (by decide)
  have back : Bond.previousCoupon? ⟨settlement, maturity, 12⟩ = some previous := by decide +kernel
  have outside : ¬ previous.InSystem := by decide
  have first : settlement.serialNumber = Float.ofInt 0 := congrArg Float.ofInt (by decide)
  have last : maturity.serialNumber = Float.ofInt 167 := congrArg Float.ofInt (by decide)
  have early : previous.serialNumber = Float.ofInt (-199) := congrArg Float.ofInt (by decide)
  rw [← first, ← last, ← early]
  refine ⟨?_, ?_, fun args i stands => ?_⟩
  · exact Bonds.callGives_ofBond (f := fun b => b.previousCoupon?.map Date.serialNumber)
      (by simp [Bonds.functions]) (by decide) rfl described
      (congrArg (Option.map Date.serialNumber) back) previous.isFinite_serialNumber
  · exact previous.ofSerialNumber?_serialNumber.trans (if_neg outside)
  · exact (Arguments.date_of_serialNumber stands).trans (if_neg outside)

end DateFunction

end Recalc
