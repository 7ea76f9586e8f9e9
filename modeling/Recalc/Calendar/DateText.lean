import Recalc.Calendar.Date
import Recalc.Number.Decimal
import Recalc.Text.Blank

/-!
# Dates written as text

Three layouts are read: year, month and day with dashes, the same with slashes, and month, day and
year with slashes. Each field may have leading blanks and takes as many digits as it can.
-/

namespace Recalc

/-- A part of a layout: a field, or a character that must stand as it is. -/
inductive LayoutPart where
  | year
  | month
  | day
  | mark (c : Char)
deriving DecidableEq, Repr

structure DateFields where
  year : Int := 0
  month : Nat := 0
  day : Nat := 0
deriving DecidableEq, Repr

namespace DateText

/-- Reads one to `most` digits after leading blanks. -/
def readField (most : Nat) (s : List Char) : Option (Nat × List Char) :=
  let s := Text.trimLeft s
  let digits := (s.takeWhile Char.isDigit).take most
  if digits.isEmpty then none
  else some (Number.Decimal.natOfDigits digits, s.drop digits.length)

/-- Reads a year: up to four digits, or a sign and any number of digits. -/
def readYear (s : List Char) : Option (Int × List Char) :=
  match Text.trimLeft s with
  | '-' :: rest => signed rest (fun n => -(n : Int))
  | '+' :: rest => signed rest (fun n => (n : Int))
  | rest => (readField 4 rest).map fun (n, rest) => ((n : Int), rest)
where
  signed (s : List Char) (apply : Nat → Int) : Option (Int × List Char) :=
    let (digits, rest) := Number.Decimal.splitDigits s
    if digits.isEmpty then none else some (apply (Number.Decimal.natOfDigits digits), rest)

def readLayout : List LayoutPart → DateFields → List Char → Option DateFields
  | [], fields, [] => some fields
  | [], _, _ :: _ => none
  | .year :: parts, fields, s =>
    (readYear s).bind fun (n, rest) => readLayout parts { fields with year := n } rest
  | .month :: parts, fields, s =>
    (readField 2 s).bind fun (n, rest) => readLayout parts { fields with month := n } rest
  | .day :: parts, fields, s =>
    (readField 2 s).bind fun (n, rest) => readLayout parts { fields with day := n } rest
  | .mark c :: parts, fields, s =>
    match s with
    | c' :: rest => if c = c' then readLayout parts fields rest else none
    | [] => none

/-- The layouts, in the order in which they are tried. -/
def layouts : List (List LayoutPart) :=
  [[.year, .mark '-', .month, .mark '-', .day],
   [.year, .mark '/', .month, .mark '/', .day],
   [.month, .mark '/', .day, .mark '/', .year]]

/-- The date that a layout finds in a text. -/
def readBy (layout : List LayoutPart) (s : List Char) : Option Date :=
  (readLayout layout {} s).bind fun f => Date.ofParts? f.year f.month f.day

end DateText

/-- The date a text writes, between optional blanks. -/
def Date.ofText? (s : String) : Option Date :=
  DateText.layouts.findSome? fun layout => DateText.readBy layout (Text.trim s.toList)

end Recalc
