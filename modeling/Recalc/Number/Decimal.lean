import Recalc.Number.Binary64

/-!
# Decimal texts of binary64 numbers

Three texts meet here: the shortest decimal that reads back as the same number, the decimal with a
fixed count of significant digits, and the decimal that a reader accepts. All of them are exact
arithmetic on natural numbers.
-/

namespace Recalc.Number

/-- The decimal `± digits * 10 ^ exponent`. -/
structure Decimal where
  negative : Bool
  digits : Nat
  exponent : Int
deriving DecidableEq, Repr

namespace Decimal

/-- The number of decimal digits of `n`; zero has one. -/
def width (n : Nat) : Nat :=
  (Nat.toDigits 10 n).length

/-- The number nearest to the decimal, ties going to the even mantissa. Decimals beyond the largest
finite number become infinite and those below half the smallest positive one become zero. -/
def toFloat (d : Decimal) : Float :=
  let magnitude :=
    let top := (width d.digits : Int) + d.exponent
    if d.digits = 0 ∨ top < -330 then 0.0
    else if 310 < top then 1.0 / 0.0
    else Float.ofScientific d.digits (decide (d.exponent < 0)) d.exponent.natAbs
  if d.negative then -magnitude else magnitude

def natOfDigits (digits : List Char) : Nat :=
  digits.foldl (fun n c => 10 * n + (c.toNat - '0'.toNat)) 0

/-- A decimal from the digits before and after its point and a power of ten. -/
def ofParts (negative : Bool) (whole fraction : List Char) (exponent : Int) : Decimal :=
  ⟨negative, natOfDigits (whole ++ fraction), exponent - fraction.length⟩

/-- Splits off an optional sign; the flag tells whether it was a minus. -/
def splitSign : List Char → Bool × List Char
  | '-' :: rest => (true, rest)
  | '+' :: rest => (false, rest)
  | rest => (false, rest)

def splitDigits (s : List Char) : List Char × List Char :=
  (s.takeWhile Char.isDigit, s.dropWhile Char.isDigit)

/-- Reads an optional exponent that must reach to the end of the text. -/
def readExponent : List Char → Option Int
  | [] => some 0
  | e :: rest =>
    if e = 'e' ∨ e = 'E' then
      let (negative, digits) := splitSign rest
      if digits.isEmpty ∨ !digits.all Char.isDigit then none
      else
        let n : Int := natOfDigits digits
        some (if negative then -n else n)
    else none

/-- Reads a whole text as a decimal: an optional sign, digits with an optional point among, before
or after them, and an optional exponent. -/
def read (s : List Char) : Option Decimal :=
  let (negative, body) := splitSign s
  let (whole, afterWhole) := splitDigits body
  let (fraction, rest) :=
    match afterWhole with
    | '.' :: afterPoint => splitDigits afterPoint
    | _ => ([], afterWhole)
  if whole.isEmpty ∧ fraction.isEmpty then none
  else (readExponent rest).map (ofParts negative whole fraction ·)

end Decimal

/-! ### The shortest decimal that reads back -/

/-- The candidate `digits * 10 ^ exponent` nearest to `d` among the multiples of that power of ten
which read back as `d`; of two equally near ones the larger. -/
def nearestOnGrid (d : Dyadic) (exponent : Int) : Option Nat :=
  let scale := Nat.pow 2 d.exponent.toNat * Nat.pow 10 (-exponent).toNat
  let unit := Nat.pow 2 (-d.exponent).toNat * Nat.pow 10 exponent.toNat
  let value := d.mantissa * scale
  let gapBelow := if d.mantissa = leadingBit ∧ -1074 < d.exponent then 1 else 2
  let least := (4 * d.mantissa - gapBelow) * scale
  let greatest := (4 * d.mantissa + 2) * scale
  let readsBack (n : Nat) : Bool :=
    if d.mantissa % 2 = 0 then least ≤ 4 * n * unit ∧ 4 * n * unit ≤ greatest
    else least < 4 * n * unit ∧ 4 * n * unit < greatest
  let below := value / unit
  let above := below + 1
  match readsBack below && below != 0, readsBack above with
  | true, true => some (if value - below * unit < above * unit - value then below else above)
  | true, false => some below
  | false, true => some above
  | false, false => none

/-- Searches grids from coarse to fine for the first one that holds a decimal reading back as `d`. -/
def coarsestDecimal (d : Dyadic) : Nat → Int → Decimal
  | 0, exponent => ⟨d.negative, 0, exponent⟩
  | steps + 1, exponent =>
    match nearestOnGrid d exponent with
    | some digits => ⟨d.negative, digits, exponent⟩
    | none => coarsestDecimal d steps (exponent - 1)

/-- The decimal with fewest digits that reads back as `d`, the nearest of those. The first grid lies
above the leading digit, and seventeen digits always read back. -/
def Dyadic.shortest (d : Dyadic) : Decimal :=
  if d.mantissa = 0 then ⟨d.negative, 0, 0⟩
  else
    let bits : Int := d.mantissa.log2 + 1
    coarsestDecimal d 21 ((d.exponent + bits) * 30103 / 100000 + 1)

/-- The digits of a decimal with its point in place and no exponent. -/
def Decimal.positional (d : Decimal) : String :=
  let sign := if d.negative then "-" else ""
  let digits := Nat.toDigits 10 d.digits
  let body :=
    if 0 ≤ d.exponent then
      digits ++ (if d.digits = 0 then [] else List.replicate d.exponent.toNat '0')
    else
      let places := (-d.exponent).toNat
      let padded := List.replicate (places + 1 - digits.length) '0' ++ digits
      let whole := padded.length - places
      padded.take whole ++ '.' :: padded.drop whole
  sign ++ String.ofList body

/-- The shortest decimal text of a number, never with an exponent. -/
def text (x : Float) : String :=
  match dyadic? x with
  | some d => d.shortest.positional
  | none => if x < 0 then "-inf" else if 0 < x then "inf" else "NaN"

/-! ### A fixed count of significant digits -/

/-- The quotient rounded to nearest, ties going to the even neighbour. -/
def divNearestEven (n d : Nat) : Nat :=
  let q := n / d
  let r := n % d
  if 2 * r < d then q
  else if d < 2 * r then q + 1
  else q + q % 2

/-- The exponent of the leading decimal digit of the positive fraction `n / d`. -/
def leadingExponent (n d : Nat) : Int :=
  if d ≤ n then (Decimal.width (n / d) : Int) - 1
  else -(Decimal.width ((d + n - 1) / n - 1) : Int)

/-- A number rounded to `count` significant digits; ties go to the even digit. -/
def Dyadic.significant (d : Dyadic) (count : Nat) : Decimal :=
  if d.mantissa = 0 then ⟨d.negative, 0, 1 - (count : Int)⟩
  else
    let leading := leadingExponent d.numerator d.denominator
    let unit := leading - ((count : Int) - 1)
    let digits := divNearestEven (d.numerator * Nat.pow 10 (-unit).toNat)
      (d.denominator * Nat.pow 10 unit.toNat)
    if digits = Nat.pow 10 count then ⟨d.negative, digits / 10, unit + 1⟩ else ⟨d.negative, digits, unit⟩

/-- Scientific notation with `count` significant digits, one of them before the point. -/
def scientific (count : Nat) (x : Float) : String :=
  match dyadic? x with
  | some d =>
    let rounded := d.significant count
    let digits := Nat.toDigits 10 rounded.digits
    let padded := digits ++ List.replicate (count - digits.length) '0'
    let fraction := padded.drop 1
    let sign := if rounded.negative then "-" else ""
    let point := if fraction.isEmpty then "" else "."
    let exponent := rounded.exponent + ((count : Int) - 1)
    sign ++ String.ofList (padded.take 1) ++ point ++ String.ofList fraction ++ "e"
      ++ toString exponent
  | none => if x < 0 then "-inf" else if 0 < x then "inf" else "NaN"

end Recalc.Number
