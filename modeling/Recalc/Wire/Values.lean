import Recalc.Formula
import Recalc.Wire.Fields

/-!
# Values, addresses and formulas on the wire

Encoders and decoders of everything that a cell can hold.
-/

namespace Recalc

open Json

/-! ### Errors -/

namespace ErrorKind

def wireName : ErrorKind → String
  | null => "Null"
  | reference => "Ref"
  | name => "Name"
  | value => "Value"
  | division => "Div"
  | notAvailable => "Na"
  | number => "Num"
  | spill => "Spill"
  | calculation => "Calc"

def toJson (kind : ErrorKind) : Json :=
  .string kind.wireName

def ofJson? (j : Json) : Option ErrorKind :=
  j.oneOf? (all.map fun kind => (kind.wireName, kind))

end ErrorKind

namespace CellError

def toJson (e : CellError) : Json :=
  .object [("kind", e.kind.toJson), ("message", ofOption .string e.message)]

def ofJson? (j : Json) : Option CellError := do
  let m ← j.members? ["kind", "message"]
  let kind ← m.required 0 "kind" ErrorKind.ofJson?
  let message ← m.optional 1 "message" string?
  return ⟨kind, message⟩

end CellError

/-! ### Values -/

namespace Block

/-- A block as its shape and its elements. -/
def jsonOfElements (rows cols : Nat) (elements : List Json) : Json :=
  .object [("rows", ofNat rows), ("cols", ofNat cols), ("cells", .array elements)]

/-- A block whose elements are decoded by `f`; its shape must fit them. -/
def ofJson? (f : Json → Option α) (j : Json) : Option (Block α) := do
  let m ← j.members? ["rows", "cols", "cells"]
  let rows ← m.required 0 "rows" count?
  let cols ← m.required 1 "cols" count?
  let cells ← m.required 2 "cells" (list? f)
  (Block.ofShape rows cols cells.toArray).toOption

end Block

namespace Value

mutual

def toJson : Value → Json
  | number x => .object [("Number", .real x)]
  | text s => .object [("Text", .string s)]
  | boolean b => .object [("Boolean", .boolean b)]
  | error e => .object [("Error", e.toJson)]
  | array ⟨rows, cols, ⟨cells⟩⟩ =>
    .object [("Array", Block.jsonOfElements rows cols (jsonOfEach cells))]
  | blank => .string "Empty"

def jsonOfEach : List Value → List Json
  | [] => []
  | v :: rest => v.toJson :: jsonOfEach rest

end

/-- A value, the elements of whose blocks are decoded by `element`. -/
def ofJsonBy? (element : Json → Option Value) (j : Json) : Option Value := do
  let (name, payload) ← j.variant?
  match name, payload with
  | "Number", some p => p.float?.map number
  | "Text", some p => p.string?.map text
  | "Boolean", some p => p.boolean?.map boolean
  | "Error", some p => (CellError.ofJson? p).map error
  | "Array", some p => (Block.ofJson? element p).map array
  | "Empty", p => unit? p blank
  | _, _ => none

/-- A value whose parts nest at most `nesting` deep. -/
def ofJsonWithin? : Nat → Json → Option Value
  | 0, _ => none
  | nesting + 1, j => ofJsonBy? (ofJsonWithin? nesting) j

def ofJson? (j : Json) : Option Value :=
  ofJsonWithin? (j.depth + 1) j

end Value

/-! ### Addresses -/

namespace Address

def toJson (a : Address) : Json :=
  .object [("unit_id", .string a.unit), ("sheet_id", .string a.sheet), ("row", ofNat a.row),
    ("col", ofNat a.col)]

def ofJson? (j : Json) : Option Address := do
  let m ← j.members? ["unit_id", "sheet_id", "row", "col"]
  let unit ← m.required 0 "unit_id" string?
  let sheet ← m.required 1 "sheet_id" string?
  let row ← m.required 2 "row" index?
  let col ← m.required 3 "col" index?
  return ⟨unit, sheet, row, col⟩

end Address

namespace Rectangle

def toJson (r : Rectangle) : Json :=
  .object [("start_row", ofNat r.startRow), ("start_col", ofNat r.startCol),
    ("end_row", ofNat r.endRow), ("end_col", ofNat r.endCol)]

def ofJson? (j : Json) : Option Rectangle := do
  let m ← j.members? ["start_row", "start_col", "end_row", "end_col"]
  let startRow ← m.required 0 "start_row" index?
  let startCol ← m.required 1 "start_col" index?
  let endRow ← m.required 2 "end_row" index?
  let endCol ← m.required 3 "end_col" index?
  return ⟨startRow, startCol, endRow, endCol⟩

end Rectangle

namespace Region

def toJson (g : Region) : Json :=
  .object [("unit_id", .string g.unit), ("sheet_id", .string g.sheet),
    ("range", g.rectangle.toJson)]

def ofJson? (j : Json) : Option Region := do
  let m ← j.members? ["unit_id", "sheet_id", "range"]
  let unit ← m.required 0 "unit_id" string?
  let sheet ← m.required 1 "sheet_id" string?
  let rectangle ← m.required 2 "range" Rectangle.ofJson?
  return ⟨unit, sheet, rectangle⟩

end Region

namespace FeatureKey

def toJson (k : FeatureKey) : Json :=
  .object [("unit_id", .string k.unit), ("sheet_id", .string k.sheet),
    ("feature_id", .string k.feature)]

def ofJson? (j : Json) : Option FeatureKey := do
  let m ← j.members? ["unit_id", "sheet_id", "feature_id"]
  let unit ← m.required 0 "unit_id" string?
  let sheet ← m.required 1 "sheet_id" string?
  let feature ← m.required 2 "feature_id" string?
  return ⟨unit, sheet, feature⟩

end FeatureKey

/-! ### References -/

namespace SheetRef

def toJson : SheetRef → Json
  | id sheet => .object [("Id", .string sheet)]
  | displayName name => .object [("Name", .string name)]

def ofJson? (j : Json) : Option SheetRef := do
  let (name, payload) ← j.variant?
  match name, payload with
  | "Id", some p => p.string?.map id
  | "Name", some p => p.string?.map displayName
  | _, _ => none

end SheetRef

namespace Reference

def placeMembers (p : Place) : List (String × Json) :=
  [("unit", ofOption .string p.unit), ("sheet", ofOption SheetRef.toJson p.sheet)]

def toJson : Reference → Json
  | cell p row col =>
    .object [("Cell", .object (placeMembers p ++ [("row", ofNat row), ("col", ofNat col)]))]
  | range p r =>
    .object [("Range", .object (placeMembers p ++
      [("start_row", ofNat r.startRow), ("start_col", ofNat r.startCol),
        ("end_row", ofNat r.endRow), ("end_col", ofNat r.endCol)]))]
  | name n => .object [("Name", .string n)]

/-- The place of a reference, in its first two members. -/
def place? (m : Members) : Option Place := do
  let unit ← m.optional 0 "unit" string?
  let sheet ← m.optional 1 "sheet" SheetRef.ofJson?
  return ⟨unit, sheet⟩

def cellOfJson? (j : Json) : Option Reference := do
  let m ← j.members? ["unit", "sheet", "row", "col"]
  let place ← place? m
  let row ← m.required 2 "row" index?
  let col ← m.required 3 "col" index?
  return .cell place row col

def rangeOfJson? (j : Json) : Option Reference := do
  let m ← j.members? ["unit", "sheet", "start_row", "start_col", "end_row", "end_col"]
  let place ← place? m
  let startRow ← m.required 2 "start_row" index?
  let startCol ← m.required 3 "start_col" index?
  let endRow ← m.required 4 "end_row" index?
  let endCol ← m.required 5 "end_col" index?
  return .range place ⟨startRow, startCol, endRow, endCol⟩

def ofJson? (j : Json) : Option Reference := do
  let (variant, payload) ← j.variant?
  match variant, payload with
  | "Cell", some p => cellOfJson? p
  | "Range", some p => rangeOfJson? p
  | "Name", some p => p.string?.map .name
  | _, _ => none

end Reference

/-! ### Formulas -/

namespace UnaryOp

def all : List UnaryOp :=
  [plus, minus, percent]

def wireName : UnaryOp → String
  | plus => "Plus"
  | minus => "Minus"
  | percent => "Percent"

def ofWireName? (name : String) : Option UnaryOp :=
  all.find? fun op => op.wireName == name

def toJson (op : UnaryOp) : Json :=
  .string op.wireName

def ofJson? (j : Json) : Option UnaryOp :=
  j.oneOf? (all.map fun op => (op.wireName, op))

end UnaryOp

namespace BinaryOp

def all : List BinaryOp :=
  [add, sub, mul, div, pow, concat, eq, ne, lt, le, gt, ge]

def wireName : BinaryOp → String
  | add => "Add"
  | sub => "Sub"
  | mul => "Mul"
  | div => "Div"
  | pow => "Pow"
  | concat => "Concat"
  | eq => "Eq"
  | ne => "Ne"
  | lt => "Lt"
  | le => "Le"
  | gt => "Gt"
  | ge => "Ge"

def ofWireName? (name : String) : Option BinaryOp :=
  all.find? fun op => op.wireName == name

def toJson (op : BinaryOp) : Json :=
  .string op.wireName

def ofJson? (j : Json) : Option BinaryOp :=
  j.oneOf? (all.map fun op => (op.wireName, op))

end BinaryOp

namespace Formula

/-- A tree is wrapped in a member of its own. -/
def wrapNode (node : Json) : Json :=
  .object [("node_type", node)]

mutual

/-- The variant of a tree's root. -/
def nodeToJson : Formula → Json
  | literal v => .object [("Literal", v.toJson)]
  | reference r => .object [("Reference", r.toJson)]
  | unary op x =>
    .object [("UnaryOp", .object [("op", op.toJson), ("expr", wrapNode x.nodeToJson)])]
  | binary op l r =>
    .object [("BinaryOp", .object [("op", op.toJson), ("left", wrapNode l.nodeToJson),
      ("right", wrapNode r.nodeToJson)])]
  | call name args =>
    .object [("Function", .object [("name", .string name), ("args", .array (jsonOfList args))])]
  | array rows => .object [("Array", .array (jsonOfRows rows))]

def jsonOfList : List Formula → List Json
  | [] => []
  | x :: rest => wrapNode x.nodeToJson :: jsonOfList rest

def jsonOfRows : List (List Formula) → List Json
  | [] => []
  | row :: rest => .array (jsonOfList row) :: jsonOfRows rest

end

def toJson (x : Formula) : Json :=
  wrapNode x.nodeToJson

/-- Takes a tree out of its wrapping. -/
def unwrapNode? (f : Json → Option α) (j : Json) : Option α := do
  let m ← j.members? ["node_type"]
  m.required 0 "node_type" f

/-- A tree's root, the parts of which are decoded by `part`. -/
def nodeOfJson? (part : Json → Option Formula) (j : Json) : Option Formula := do
  let (variant, payload) ← j.variant?
  let p ← payload
  match variant with
  | "Literal" => (Value.ofJson? p).map literal
  | "Reference" => (Reference.ofJson? p).map reference
  | "UnaryOp" =>
    let m ← p.members? ["op", "expr"]
    let op ← m.required 0 "op" UnaryOp.ofJson?
    let x ← m.required 1 "expr" part
    return unary op x
  | "BinaryOp" =>
    let m ← p.members? ["op", "left", "right"]
    let op ← m.required 0 "op" BinaryOp.ofJson?
    let l ← m.required 1 "left" part
    let r ← m.required 2 "right" part
    return binary op l r
  | "Function" =>
    let m ← p.members? ["name", "args"]
    let name ← m.required 0 "name" string?
    let args ← m.required 1 "args" (list? part)
    return call name args
  | "Array" => (p.list? (list? part)).map array
  | _ => none

/-- A tree whose parts nest at most `nesting` deep. -/
def nodeWithin? : Nat → Json → Option Formula
  | 0, _ => none
  | nesting + 1, j => nodeOfJson? (unwrapNode? (nodeWithin? nesting)) j

/-- The root of a tree without its wrapping. -/
def nodeOfDocument? (j : Json) : Option Formula :=
  nodeWithin? (j.depth + 1) j

def ofJson? (j : Json) : Option Formula :=
  unwrapNode? (nodeWithin? (j.depth + 1)) j

end Formula

end Recalc
