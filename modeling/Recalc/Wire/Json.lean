import Recalc.Number.Decimal

/-!
# JSON documents

A document tree, a reader of texts and a writer. Whole numbers of 64 bits stay whole numbers; all
others become the nearest binary64 number, which is infinite for those that are too large. The
members of an object keep their order, also those that repeat a name.
-/

namespace Recalc

inductive Json where
  | null
  | boolean (b : Bool)
  | integer (n : Int)
  | real (x : Float)
  | string (s : String)
  | array (items : List Json)
  | object (members : List (String × Json))
deriving Inhabited

namespace Json

mutual

/-- The number of arrays and objects around the innermost part. -/
def depth : Json → Nat
  | array items => depthOfItems items + 1
  | object members => depthOfMembers members + 1
  | _ => 0

def depthOfItems : List Json → Nat
  | [] => 0
  | item :: rest => max item.depth (depthOfItems rest)

def depthOfMembers : List (String × Json) → Nat
  | [] => 0
  | (_, item) :: rest => max item.depth (depthOfMembers rest)

end

/-! ### Reading -/

/-- A reader takes a leading part of a text and gives the rest. -/
abbrev Reader (α : Type) :=
  List Char → Option (α × List Char)

namespace Read

def isSpace (c : Char) : Bool :=
  c == ' ' || c == '\t' || c == '\n' || c == '\r'

def skip (s : List Char) : List Char :=
  s.dropWhile isSpace

def hexDigit? (c : Char) : Option Nat :=
  if c.isDigit then some (c.toNat - '0'.toNat)
  else if 'a' ≤ c ∧ c ≤ 'f' then some (c.toNat - 'a'.toNat + 10)
  else if 'A' ≤ c ∧ c ≤ 'F' then some (c.toNat - 'A'.toNat + 10)
  else none

def hexUnit : Reader Nat
  | a :: b :: c :: d :: rest => do
    let a ← hexDigit? a
    let b ← hexDigit? b
    let c ← hexDigit? c
    let d ← hexDigit? d
    return (((a * 16 + b) * 16 + c) * 16 + d, rest)
  | _ => none

/-- A character given by one unit, or by a high and a low surrogate. -/
def unicodeEscape (s : List Char) : Option (Char × List Char) := do
  let (unit, rest) ← hexUnit s
  if 0xD800 ≤ unit ∧ unit < 0xDC00 then
    match rest with
    | '\\' :: 'u' :: rest =>
      let (low, rest) ← hexUnit rest
      if 0xDC00 ≤ low ∧ low < 0xE000 then
        return (Char.ofNat (0x10000 + (unit - 0xD800) * 0x400 + (low - 0xDC00)), rest)
      else none
    | _ => none
  else if 0xDC00 ≤ unit ∧ unit < 0xE000 then none
  else return (Char.ofNat unit, rest)

def escape : Reader Char
  | '"' :: rest => some ('"', rest)
  | '\\' :: rest => some ('\\', rest)
  | '/' :: rest => some ('/', rest)
  | 'b' :: rest => some (Char.ofNat 8, rest)
  | 'f' :: rest => some (Char.ofNat 12, rest)
  | 'n' :: rest => some ('\n', rest)
  | 'r' :: rest => some ('\r', rest)
  | 't' :: rest => some ('\t', rest)
  | 'u' :: rest => unicodeEscape rest
  | _ => none

/-- The rest of a string after its opening quote; `limit` bounds the number of characters. -/
def stringBody : Nat → List Char → Reader String
  | 0, _, _ => none
  | _ + 1, _, [] => none
  | limit + 1, read, c :: rest =>
    if c = '"' then some (String.ofList read.reverse, rest)
    else if c = '\\' then
      match escape rest with
      | some (c, rest) => stringBody limit (c :: read) rest
      | none => none
    else if c.toNat < 0x20 then none
    else stringBody limit (c :: read) rest

/-- A whole number if it has 64 bits, else the nearest binary64 number. Minus zero is not whole. -/
def ofDigits (negative : Bool) (digits : List Char) : Json :=
  let n := Number.Decimal.natOfDigits digits
  let isWhole := if negative then 0 < n && n ≤ 0x8000000000000000 else n < 0x10000000000000000
  if isWhole then .integer (if negative then -n else n)
  else .real (Number.Decimal.mk negative n 0).toFloat

/-- The digits after a point, if there is one. -/
def fractionPart : Reader (List Char)
  | '.' :: rest =>
    let (digits, rest) := Number.Decimal.splitDigits rest
    if digits.isEmpty then none else some (digits, rest)
  | rest => some ([], rest)

/-- An exponent, if there is one. -/
def exponentPart : Reader (Option Int)
  | e :: rest =>
    if e = 'e' ∨ e = 'E' then
      let (negative, rest) := Number.Decimal.splitSign rest
      let (digits, rest) := Number.Decimal.splitDigits rest
      let n : Int := Number.Decimal.natOfDigits digits
      if digits.isEmpty then none else some (some (if negative then -n else n), rest)
    else some (none, e :: rest)
  | [] => some (none, [])

/-- The digits before a point: a zero, or digits that start with no zero. -/
def wholePart : Reader (List Char)
  | '0' :: rest => some (['0'], rest)
  | s =>
    let (digits, rest) := Number.Decimal.splitDigits s
    if digits.isEmpty then none else some (digits, rest)

def number (s : List Char) : Option (Json × List Char) := do
  let (negative, s) := match s with
    | '-' :: rest => (true, rest)
    | _ => (false, s)
  let (whole, s) ← wholePart s
  let (fraction, s) ← fractionPart s
  let (exponent, s) ← exponentPart s
  let value :=
    if fraction.isEmpty ∧ exponent.isNone then ofDigits negative whole
    else .real (Number.Decimal.ofParts negative whole fraction (exponent.getD 0)).toFloat
  return (value, s)

/-- Items separated by commas up to a closing mark, of which there is at least one; `limit` bounds
their number. -/
def items (item : Reader α) (close : Char) : Nat → Reader (List α)
  | 0, _ => none
  | limit + 1, s =>
    match item s with
    | none => none
    | some (first, rest) =>
      match skip rest with
      | ',' :: rest => (items item close limit rest).map fun (others, rest) => (first :: others, rest)
      | c :: rest => if c = close then some ([first], rest) else none
      | [] => none

/-- Items after an opening mark, of which there may be none. -/
def group (item : Reader α) (close : Char) (s : List Char) : Option (List α × List Char) :=
  match skip s with
  | c :: rest => if c = close then some ([], rest) else items item close (rest.length + 1) (c :: rest)
  | [] => none

/-- A member of an object: a name, a colon and a value. -/
def member (value : Reader Json) (s : List Char) : Option ((String × Json) × List Char) :=
  match skip s with
  | '"' :: rest => do
    let (name, rest) ← stringBody (rest.length + 1) [] rest
    match skip rest with
    | ':' :: rest =>
      let (v, rest) ← value rest
      return ((name, v), rest)
    | _ => none
  | _ => none

def word (text : List Char) (j : Json) (s : List Char) : Option (Json × List Char) :=
  if text.isPrefixOf s then some (j, s.drop text.length) else none

/-- A value in which at most `nesting` arrays and objects lie inside one another. -/
def value : Nat → Reader Json
  | nesting, s =>
    match skip s with
    | '"' :: rest => (stringBody (rest.length + 1) [] rest).map fun (t, rest) => (.string t, rest)
    | '[' :: rest =>
      match nesting with
      | 0 => none
      | nesting + 1 => (group (value nesting) ']' rest).map fun (items, rest) => (.array items, rest)
    | '\x7b' :: rest =>
      match nesting with
      | 0 => none
      | nesting + 1 =>
        (group (member (value nesting)) '\x7d' rest).map fun (ms, rest) => (.object ms, rest)
    | 'n' :: rest => word "ull".toList .null rest
    | 't' :: rest => word "rue".toList (.boolean true) rest
    | 'f' :: rest => word "alse".toList (.boolean false) rest
    | rest => number rest

end Read

/-- Reads a whole text as one document in which at most `nesting` arrays and objects lie inside one
another. -/
def read? (nesting : Nat) (text : String) : Option Json :=
  match Read.value nesting text.toList with
  | some (j, rest) => if (Read.skip rest).isEmpty then some j else none
  | none => none

/-! ### Writing -/

def hexDigits (n : Nat) : List Char :=
  let digits := Nat.toDigits 16 n
  List.replicate (4 - digits.length) '0' ++ digits

def quoteChar (c : Char) : List Char :=
  if c = '"' then ['\\', '"']
  else if c = '\\' then ['\\', '\\']
  else if c.toNat < 0x20 then '\\' :: 'u' :: hexDigits c.toNat
  else [c]

def quote (s : String) : String :=
  String.ofList ('"' :: s.toList.flatMap quoteChar ++ ['"'])

mutual

/-- The text of a document without any spaces. A number that is not finite has no text of its own
and is written as null. -/
def text : Json → String
  | null => "null"
  | boolean true => "true"
  | boolean false => "false"
  | integer n => toString n
  | real x => if x.isFinite then Number.text x else "null"
  | string s => quote s
  | array items => "[" ++ ",".intercalate (textsOfItems items) ++ "]"
  | object members => "\x7b" ++ ",".intercalate (textsOfMembers members) ++ "\x7d"

def textsOfItems : List Json → List String
  | [] => []
  | item :: rest => item.text :: textsOfItems rest

def textsOfMembers : List (String × Json) → List String
  | [] => []
  | (name, item) :: rest => (quote name ++ ":" ++ item.text) :: textsOfMembers rest

end

end Json

end Recalc
