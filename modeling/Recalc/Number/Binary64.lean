/-!
# Binary64 numbers as exact dyadic fractions

A finite number is a sign, a natural mantissa and a power of two. Every rounding to a whole number
is defined on that triple, so that it is exact integer arithmetic and agrees with the number's
mathematical value.
-/

namespace Recalc.Number

/-- The finite number `± mantissa * 2 ^ exponent`. -/
structure Dyadic where
  negative : Bool
  mantissa : Nat
  exponent : Int
deriving DecidableEq, Repr

/-- The least mantissa of a number that is not subnormal: a one and fifty-two zeros. -/
def leadingBit : Nat := 0x10000000000000

/-- The sign, mantissa and exponent of a finite number; `none` for infinities and NaN. -/
def dyadic? (x : Float) : Option Dyadic :=
  let bits := x.toBits.toNat
  let biased : Nat := bits / leadingBit % 0x800
  let fraction : Nat := bits % leadingBit
  let negative := decide (0x8000000000000000 ≤ bits)
  if biased = 2047 then none
  else if biased = 0 then some ⟨negative, fraction, -1074⟩
  else some ⟨negative, leadingBit + fraction, (biased : Int) - 1075⟩

namespace Dyadic

/-- The magnitude is `numerator / denominator`. -/
def numerator (d : Dyadic) : Nat :=
  d.mantissa * Nat.pow 2 d.exponent.toNat

def denominator (d : Dyadic) : Nat :=
  Nat.pow 2 (-d.exponent).toNat

/-- The magnitude rounded toward zero. -/
def magnitudeDown (d : Dyadic) : Nat :=
  d.numerator / d.denominator

/-- The magnitude rounded away from zero. -/
def magnitudeUp (d : Dyadic) : Nat :=
  (d.numerator + (d.denominator - 1)) / d.denominator

/-- The magnitude rounded to the nearest whole number, a half going up. -/
def magnitudeNearest (d : Dyadic) : Nat :=
  (2 * d.numerator + d.denominator) / (2 * d.denominator)

/-- A magnitude with the sign of `d`. -/
def signed (d : Dyadic) (magnitude : Nat) : Int :=
  if d.negative then -(magnitude : Int) else magnitude

/-- Rounding toward zero. -/
def truncate (d : Dyadic) : Int :=
  d.signed d.magnitudeDown

/-- Rounding toward negative infinity. -/
def floor (d : Dyadic) : Int :=
  d.signed (if d.negative then d.magnitudeUp else d.magnitudeDown)

/-- The whole number of the given magnitude with the sign of `d`, kept on zero too. -/
def toWhole (d : Dyadic) (magnitude : Nat) : Float :=
  if d.negative then -(Float.ofNat magnitude) else Float.ofNat magnitude

end Dyadic

/-- Replaces a finite number by the whole number whose magnitude `f` chooses. -/
def wholeBy (f : Dyadic → Nat) (x : Float) : Float :=
  match dyadic? x with
  | some d => if 0 ≤ d.exponent then x else d.toWhole (f d)
  | none => x

/-- Rounding toward zero; infinities and NaN stay. -/
def truncate (x : Float) : Float :=
  wholeBy Dyadic.magnitudeDown x

/-- Rounding toward negative infinity. -/
def floor (x : Float) : Float :=
  wholeBy (fun d => if d.negative then d.magnitudeUp else d.magnitudeDown) x

/-- Rounding toward positive infinity. -/
def ceil (x : Float) : Float :=
  wholeBy (fun d => if d.negative then d.magnitudeDown else d.magnitudeUp) x

/-- Rounding to the nearest whole number, a half going away from zero. -/
def round (x : Float) : Float :=
  wholeBy Dyadic.magnitudeNearest x

/-- What is left of a number when its whole part is taken away, with the number's sign. -/
def fraction (x : Float) : Float :=
  x - truncate x

/-- Whether a number has no fractional part; infinities and NaN do not count as whole. -/
def isWhole (x : Float) : Bool :=
  match dyadic? x with
  | some d => d.numerator % d.denominator = 0
  | none => false

/-- The least and greatest 64-bit signed integers. -/
def minInt64 : Int := -0x8000000000000000

def maxInt64 : Int := 0x7fffffffffffffff

/-- Clamps to the 64-bit signed range. -/
def clampInt64 (n : Int) : Int :=
  max minInt64 (min maxInt64 n)

/-- Rounding toward zero into the 64-bit signed range, out-of-range numbers going to its nearer end
and NaN to zero. -/
def toInt64 (x : Float) : Int :=
  match dyadic? x with
  | some d => clampInt64 d.truncate
  | none => if x < 0 then minInt64 else if 0 < x then maxInt64 else 0

/-- Raising to a whole power by repeated squaring, with a rounding at every product. -/
def wholePower (base : Float) (exponent : Nat) : Float :=
  go base exponent 1.0 (exponent.log2 + 1)
where
  go (base : Float) (exponent : Nat) (acc : Float) : Nat → Float
    | 0 => acc
    | steps + 1 =>
      let acc := if exponent % 2 = 1 then acc * base else acc
      let exponent := exponent / 2
      if exponent = 0 then acc else go (base * base) exponent acc steps

end Recalc.Number
