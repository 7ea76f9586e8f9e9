import Recalc.Calendar.Date
import Recalc.ErrorValue

/-!
# Coupon dates

The coupon dates of a bond step back from its maturity by a fixed number of months. If maturity is
the last day of its month, every coupon date is.
-/

namespace Recalc

/-- A bond that pays coupons every `months` months, as seen on a day before its maturity. -/
structure Bond where
  settlement : Date
  maturity : Date
  months : Nat
deriving Repr

namespace Bond

/-- The coupon date `k` steps before maturity. -/
def coupon? (b : Bond) (k : Nat) : Option Date :=
  (b.maturity.addMonths? (-((k * b.months : Nat) : Int))).map fun d =>
    if b.maturity.isLastOfMonth then d.lastOfMonth else d

/-- The least `k` from `start` on whose coupon date does not satisfy `p`; `none` if the dates leave
the calendar first. -/
def firstCoupon? (b : Bond) (p : Date → Bool) : Nat → Nat → Option Nat
  | 0, _ => none
  | steps + 1, k =>
    match b.coupon? k with
    | some d => if p d then firstCoupon? b p steps (k + 1) else some k
    | none => none

/-- More steps than there are coupon dates between the first year of the calendar and maturity. -/
def stepLimit (b : Bond) : Nat :=
  12 * (b.maturity.year - firstYear + 2).toNat

/-- The steps from maturity to the last coupon date on or before settlement. -/
def stepsToSettlement? (b : Bond) : Option Nat :=
  b.firstCoupon? (fun d => b.settlement < d) b.stepLimit 0

/-- The number of coupon dates on or after settlement. -/
def couponCount? (b : Bond) : Option Nat :=
  b.firstCoupon? (fun d => b.settlement ≤ d) b.stepLimit 0

/-- The last coupon date on or before settlement. -/
def previousCoupon? (b : Bond) : Option Date :=
  b.stepsToSettlement?.bind b.coupon?

/-- The first coupon date after settlement. -/
def nextCoupon? (b : Bond) : Option Date :=
  b.stepsToSettlement?.bind fun k => b.coupon? (k - 1)

end Bond

end Recalc
