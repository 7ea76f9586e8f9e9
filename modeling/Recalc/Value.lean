import Recalc.Block
import Recalc.ErrorValue
import Recalc.Number.Decimal

/-!
# Values

What a cell holds and a formula computes: numbers, texts, Booleans, errors, blanks, and blocks of
values. A block of one element counts as that element, and a computed value holds no number that is
not finite.
-/

namespace Recalc

/-- A cell value. The blank cell has a value of its own. -/
inductive Value where
  | number (x : Float)
  | text (s : String)
  | boolean (b : Bool)
  | error (e : CellError)
  | array (block : Block Value)
  | blank
deriving Inhabited

namespace Value

/-- The error value of a kind, without an explanation. -/
def ofKind (kind : ErrorKind) : Value :=
  .error (.plain kind)

def complain (c : Complaint) : Value :=
  .error c.error

def isError : Value → Bool
  | error _ => true
  | _ => false

def isArray : Value → Bool
  | array _ => true
  | _ => false

def isBoolean : Value → Bool
  | boolean _ => true
  | _ => false

def isBlank : Value → Bool
  | blank => true
  | _ => false

def isNumber : Value → Bool
  | number _ => true
  | _ => false

def isText : Value → Bool
  | text _ => true
  | _ => false

def errorKind? : Value → Option ErrorKind
  | error e => some e.kind
  | _ => none

def toNumber? : Value → Option Float
  | number x => some x
  | _ => none

/-! ### Text and equality -/

/-- Joins the texts of a block's elements: commas inside a row, semicolons between rows. -/
def joinCells (cols : Nat) (texts : List String) : String :=
  let withMarks := texts.zipIdx.map fun (t, i) =>
    if i = 0 then t else if i % cols = 0 then ";" ++ t else "," ++ t
  String.join withMarks

mutual

def display : Value → String
  | number x => Number.text x
  | text s => s
  | boolean true => "TRUE"
  | boolean false => "FALSE"
  | error e => e.kind.token
  | array ⟨_, cols, ⟨cells⟩⟩ => "\x7b" ++ joinCells cols (displayEach cells) ++ "\x7d"
  | blank => ""

def displayEach : List Value → List String
  | [] => []
  | v :: rest => v.display :: displayEach rest

end

mutual

/-- Equality of values: numbers compare as numbers, so a NaN differs from itself and the two zeros
are equal, and errors compare with their explanations. -/
def same : Value → Value → Bool
  | number x, number y => x == y
  | text s, text t => s == t
  | boolean a, boolean b => a == b
  | error e, error f => e == f
  | array ⟨r, c, ⟨cells⟩⟩, array ⟨r', c', ⟨cells'⟩⟩ => r == r' && c == c' && sameEach cells cells'
  | blank, blank => true
  | _, _ => false

def sameEach : List Value → List Value → Bool
  | [], [] => true
  | v :: rest, v' :: rest' => v.same v' && sameEach rest rest'
  | _, _ => false

end

/-! ### Blocks of one element, and computed values -/

/-- A block of one element becomes that element. -/
def unwrapSingle : Value → Value
  | array b => (b.only?).getD (array b)
  | v => v

/-- A number that is not finite becomes `#NUM!`. -/
def finiteOrNum : Value → Value
  | number x => if x.isFinite then number x else ofKind .number
  | v => v

/-- The value a computation delivers: a block of one element is unwrapped, and numbers that are not
finite, also those inside a block, become `#NUM!`. -/
def toResult (v : Value) : Value :=
  match v.unwrapSingle with
  | array b => array (b.map finiteOrNum)
  | scalar => scalar.finiteOrNum

/-! ### Scalars -/

inductive Scalar where
  | number (x : Float)
  | text (s : String)
  | boolean (b : Bool)
  | error (e : CellError)
  | blank

/-- The scalar a value is; `none` for a block. -/
def scalar? : Value → Option Scalar
  | number x => some (.number x)
  | text s => some (.text s)
  | boolean b => some (.boolean b)
  | error e => some (.error e)
  | blank => some .blank
  | array _ => none

end Value

end Recalc
