import Recalc.Calendar.Coupon
import Recalc.Calendar.DayCount
import Recalc.Function.Basic

/-!
# Functions of coupon bonds
-/

namespace Recalc.Bonds

/-- The bond that the arguments describe: settlement, maturity, coupons a year, and a basis that is
checked but makes no difference. -/
def bond (args : Arguments) : Outcome Bond := do
  let settlement ← args.date 0
  let maturity ← args.date 1
  let frequency ← args.integer 2
  let _ ← Basis.ofCode (← args.integerOr 3 0)
  if frequency = 1 ∨ frequency = 2 ∨ frequency = 4 then
    if settlement < maturity then return ⟨settlement, maturity, 12 / frequency.toNat⟩
    else complain .settlementNotBeforeMaturity
  else complain .couponFrequency

def ofBond (name : String) (f : Bond → Option Float) : Function :=
  .checked name 3 4 .reject fun args => do
    match f (← bond args) with
    | some x => return .number x
    | none => complain .couponOutOfRange

def functions : List Function := [
  ofBond "COUPNUM" fun b => b.couponCount?.map Float.ofNat,
  ofBond "COUPPCD" fun b => b.previousCoupon?.map Date.serialNumber,
  ofBond "COUPNCD" fun b => b.nextCoupon?.map Date.serialNumber]

end Recalc.Bonds
