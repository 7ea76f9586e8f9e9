import Recalc.Bessel
import Recalc.Function.Basic

/-!
# Special functions and comparisons with a threshold
-/

namespace Recalc.Special

/-- The largest order, since the work grows with the order. -/
def maxOrder : Int := 10000

/-- The argument and the order of a Bessel function. -/
def besselArguments (args : Arguments) : Outcome (Float × Nat) := do
  let x ← args.number 0
  let order ← args.integer 1
  if order < 0 then complain .negativeOrder
  else if maxOrder < order then complain .orderTooLarge
  else return (x, order.toNat)

/-- A Bessel function of any argument. -/
def bessel (name : String) (f : Float → Nat → Float) : Function :=
  .checked name 2 2 .reject fun args => do
    let (x, order) ← besselArguments args
    return .number (← requireFinite (f x order))

/-- A Bessel function of a positive argument. -/
def besselOfPositive (name : String) (f : Float → Nat → Float) : Function :=
  .checked name 2 2 .reject fun args => do
    let (x, order) ← besselArguments args
    if x ≤ 0.0 then complain .argumentNotPositive
    else return .number (← requireFinite (f x order))

/-- One where a number passes a comparison with a second one, which is zero when left out. -/
def comparison (name : String) (passes : Float → Float → Bool) : Function :=
  .checked name 1 2 .reject fun args => do
    let x ← args.number 0
    let y ← args.numberOr 1 0.0
    return .number (if passes x y then 1.0 else 0.0)

def functions : List Function := [
  besselOfPositive "BESSELK" Bessel.k,
  bessel "BESSELI" Bessel.i,
  bessel "BESSELJ" Bessel.j,
  besselOfPositive "BESSELY" Bessel.y,
  comparison "DELTA" fun x y => (x - y).abs < 1e-12,
  comparison "GESTEP" fun x y => y ≤ x]

end Recalc.Special
