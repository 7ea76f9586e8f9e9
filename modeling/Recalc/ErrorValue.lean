import Recalc.Text.Blank
import Recalc.Text.Case

/-!
# Error values

An error is an ordinary value: one of nine kinds, shown by its token, with an optional explanation.
What this library itself complains about is listed in `Complaint`, which fixes the kind and the
wording of each.
-/

namespace Recalc

/-- The kinds of error a cell can show, in their sorting order. -/
inductive ErrorKind where
  | null
  | reference
  | name
  | value
  | division
  | notAvailable
  | number
  | spill
  | calculation
deriving DecidableEq, Repr

namespace ErrorKind

/-- All kinds in their sorting order. -/
def all : List ErrorKind :=
  [null, reference, name, value, division, notAvailable, number, spill, calculation]

/-- The token a cell shows. -/
def token : ErrorKind → String
  | null => "#NULL!"
  | reference => "#REF!"
  | name => "#NAME?"
  | value => "#VALUE!"
  | division => "#DIV/0!"
  | notAvailable => "#N/A"
  | number => "#NUM!"
  | spill => "#SPILL!"
  | calculation => "#CALC!"

/-- Position in the sorting order. -/
def rank (kind : ErrorKind) : Nat :=
  kind.ctorIdx

/-- The kind whose token is the text, up to surrounding blanks and the case of ASCII letters. -/
def ofToken? (s : String) : Option ErrorKind :=
  let body := String.ofList (Text.trim s.toList)
  all.find? fun kind => Text.sameIgnoringCase kind.token body

def sort (kinds : List ErrorKind) : List ErrorKind :=
  kinds.mergeSort fun a b => a.rank ≤ b.rank

theorem mem_all (kind : ErrorKind) : kind ∈ all := by
  cases kind <;> decide

end ErrorKind

/-- An error value: its kind and an optional explanation. -/
structure CellError where
  kind : ErrorKind
  message : Option String
deriving DecidableEq, Repr

namespace CellError

def plain (kind : ErrorKind) : CellError :=
  ⟨kind, none⟩

/-- The token, followed by the explanation when there is one. -/
def display (e : CellError) : String :=
  match e.message with
  | some text => e.kind.token ++ ": " ++ text
  | none => e.kind.token

end CellError

/-- Why a computation yields an error value. Arguments are counted from one. -/
inductive Complaint where
  | unreadableNumber (text : String)
  | arrayAsNumber
  | serialOutOfRange
  | arrayArgument (position rows cols : Nat)
  | booleanArgument (position : Nat)
  | missingArgument (position : Nat)
  | argumentCount (function : String) (count : Nat)
  | incompatibleShapes
  | nestedArray
  | unknownSheet (name : String)
  | unknownName (name : String)
  | noLogicalValues
  | yearOutOfRange
  | dateOutOfRange
  | unknownBasis (code : Int)
  | couponOutOfRange
  | couponFrequency
  | settlementNotBeforeMaturity
  | periodOutOfRange
  | negativeOrder
  | orderTooLarge
  | argumentNotPositive
  | circularReference
  | unevaluable (fault : String)
deriving DecidableEq, Repr

namespace Complaint

/-- The kind of error a complaint shows as. -/
def kind : Complaint → ErrorKind
  | unreadableNumber _ | arrayAsNumber | arrayArgument .. | booleanArgument _
  | incompatibleShapes | nestedArray | noLogicalValues => .value
  | serialOutOfRange | yearOutOfRange | dateOutOfRange | unknownBasis _ | couponOutOfRange
  | couponFrequency | settlementNotBeforeMaturity | periodOutOfRange | negativeOrder
  | orderTooLarge | argumentNotPositive => .number
  | missingArgument _ | argumentCount .. => .notAvailable
  | unknownSheet _ | circularReference => .reference
  | unknownName _ => .name
  | unevaluable _ => .calculation

def message : Complaint → String
  | unreadableNumber text => s!"cannot convert '{text}' to a number"
  | arrayAsNumber => "expected a single value, got an array"
  | serialOutOfRange => "date serial out of range"
  | arrayArgument position rows cols =>
    s!"argument {position} is a {rows}x{cols} array, expected a single value"
  | booleanArgument position => s!"argument {position} may not be a Boolean"
  | missingArgument position => s!"missing argument {position}"
  | argumentCount function count => s!"{function} does not accept {count} argument(s)"
  | incompatibleShapes => "array operands have incompatible shapes"
  | nestedArray => "array literal element is an array"
  | unknownSheet name => s!"no sheet named '{name}'"
  | unknownName name => s!"unknown name '{name}'"
  | noLogicalValues => "no logical values"
  | yearOutOfRange => "year out of range"
  | dateOutOfRange => "date out of range"
  | unknownBasis code => s!"basis {code} is not in 0..=4"
  | couponOutOfRange => "coupon date out of range"
  | couponFrequency => "frequency must be 1, 2 or 4"
  | settlementNotBeforeMaturity => "settlement must precede maturity"
  | periodOutOfRange => "period outside 1..=nper"
  | negativeOrder => "order must be non-negative"
  | orderTooLarge => "order too large"
  | argumentNotPositive => "x must be positive"
  | circularReference => "circular reference"
  | unevaluable fault => fault

def error (c : Complaint) : CellError :=
  ⟨c.kind, some c.message⟩

end Complaint

end Recalc
