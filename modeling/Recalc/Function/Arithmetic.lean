import Recalc.Function.Basic
import Recalc.Operator

/-!
# Arithmetic functions

Aggregates take single values as operators do, but of a block they see only the numbers; the first
error anywhere decides. The other functions take single values.
-/

namespace Recalc.Arithmetic

/-- The numbers among the elements of a block. -/
def numbersOfElements : List Value → Outcome (List Float)
  | [] => .ok []
  | .number x :: rest => (numbersOfElements rest).map (x :: ·)
  | .error e :: _ => .error e
  | _ :: rest => numbersOfElements rest

/-- The numbers an aggregate sees; blank arguments are left out. -/
def numbers : List Value → Outcome (List Float)
  | [] => .ok []
  | .array b :: rest => do
    let inside ← numbersOfElements b.toList
    let others ← numbers rest
    return inside ++ others
  | .blank :: rest => numbers rest
  | v :: rest => do
    let x ← v.asNumber
    let others ← numbers rest
    return x :: others

/-- The sum from left to right, starting from negative zero. -/
def sum (xs : List Float) : Float :=
  xs.foldl (· + ·) (-0.0)

/-- The product from left to right; no numbers have the product zero. -/
def product (xs : List Float) : Float :=
  if xs.isEmpty then 0.0 else xs.foldl (· * ·) 1.0

/-- The mean; no numbers have none. -/
def average (xs : List Float) : Outcome Float :=
  if xs.isEmpty then refuse .division else .ok (sum xs / Float.ofNat xs.length)

/-- The number that `better` prefers to all earlier ones, a NaN giving way to anything. -/
def extremum (better : Float → Float → Bool) : List Float → Float
  | [] => 0.0
  | x :: rest => rest.foldl (fun best y => if best.isNaN || better y best then y else best) x

/-- How many numbers an argument holds: in a block only numbers count, outside also Booleans and
texts that write one. -/
def countIn : Value → Nat
  | .array b => b.toList.countP Value.isNumber
  | .number _ | .boolean _ => 1
  | .text s => if (numberOfText? s).isSome then 1 else 0
  | _ => 0

def count (args : List Value) : Nat :=
  args.foldl (fun n v => n + countIn v) 0

/-- Rounding to a number of decimal places, a half going away from zero; a negative number of places
rounds to the left of the point. Where the scaled number is too large it is already exact. -/
def roundTo (x : Float) (places : Int) : Float :=
  let factor := Number.wholePower 10.0 places.natAbs
  if 0 ≤ places then
    let scaled := x * factor
    if scaled.isFinite then Number.round scaled / factor else x
  else Number.round (x / factor) * factor

/-- The remainder with the sign of the divisor. -/
def modulo (x divisor : Float) : Outcome Float :=
  if divisor == 0.0 then refuse .division
  else .ok (x - divisor * Number.floor (x / divisor))

def squareRoot (x : Float) : Outcome Float :=
  if x < 0.0 then refuse .number else .ok x.sqrt

/-- An aggregate of the numbers among its arguments. -/
def aggregate (name : String) (f : List Float → Outcome Float) : Function :=
  .variadic name fun args => do return .number (← f (← numbers args))

def ofNumber (name : String) (f : Float → Outcome Float) : Function :=
  .checked name 1 1 .coerce fun args => do return .number (← f (← args.number 0))

def ofNumbers (name : String) (f : Float → Float → Outcome Float) : Function :=
  .checked name 2 2 .coerce fun args => do
    return .number (← f (← args.number 0) (← args.number 1))

/-- The places that rounding works with: a factor of more than 308 places is not finite. -/
def clampPlaces (places : Float) : Int :=
  max (-308) (min 308 (Number.toInt64 places))

def functions : List Function := [
  aggregate "SUM" fun xs => .ok (sum xs),
  aggregate "PRODUCT" fun xs => .ok (product xs),
  aggregate "AVERAGE" average,
  aggregate "MIN" fun xs => .ok (extremum (fun x y => x < y) xs),
  aggregate "MAX" fun xs => .ok (extremum (fun x y => y < x) xs),
  .variadic "COUNT" fun args => .ok (.number (Float.ofNat (count args))),
  ofNumber "ABS" fun x => .ok x.abs,
  ofNumber "INT" fun x => .ok (Number.floor x),
  ofNumber "SQRT" squareRoot,
  ofNumbers "ROUND" fun x places => .ok (roundTo x (clampPlaces places)),
  ofNumbers "MOD" modulo,
  ofNumbers "POWER" power,
  ⟨"RAND", 0, some 0, .ofSample fun sample => .ok (.number sample)⟩]

end Recalc.Arithmetic
