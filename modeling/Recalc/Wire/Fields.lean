import Recalc.SortedMap
import Recalc.Wire.Json

/-!
# Members, variants and maps in documents

A structure is an object with named members, or an array with one item for each member in order. A
variant is its name alone, or an object of one member whose name it is. Decoding gives nothing where
the document does not fit.
-/

namespace Recalc.Json

/-! ### Scalars -/

def ofNat (n : Nat) : Json :=
  .integer n

def ofOption (f : α → Json) : Option α → Json
  | some a => f a
  | none => .null

/-- A natural number below a bound. -/
def natBelow? (bound : Nat) : Json → Option Nat
  | integer n => if 0 ≤ n ∧ n < bound then some n.toNat else none
  | _ => none

/-- The rows and columns of a sheet are numbered below this bound, in 32 bits. -/
def indexBound : Nat := 0x100000000

def index? (j : Json) : Option Nat :=
  j.natBelow? indexBound

/-- A count, of 64 bits. -/
def count? (j : Json) : Option Nat :=
  j.natBelow? 0x10000000000000000

def float? : Json → Option Float
  | integer n => some (Float.ofInt n)
  | real x => if x.isFinite then some x else none
  | _ => none

def string? : Json → Option String
  | string s => some s
  | _ => none

def boolean? : Json → Option Bool
  | boolean b => some b
  | _ => none

/-- Null, or what `f` decodes. -/
def option? (f : Json → Option α) : Json → Option (Option α)
  | null => some none
  | j => (f j).map some

def list? (f : Json → Option α) : Json → Option (List α)
  | array items => items.mapM f
  | _ => none

/-! ### Structures -/

/-- The members of a structure, found by name or by position. -/
inductive Members where
  | named (members : List (String × Json))
  | listed (items : List Json)

/-- The members of a structure with the given member names. Names that it does not have are ignored,
but its own may not repeat, and there may be no more items than names. -/
def members? (names : List String) : Json → Option Members
  | object ms =>
    if names.all fun name => (ms.filter fun m => m.1 == name).length ≤ 1 then some (.named ms)
    else none
  | array items => if items.length ≤ names.length then some (.listed items) else none
  | _ => none

namespace Members

/-- The member with a name, which is also given by its position. -/
def get? (m : Members) (position : Nat) (name : String) : Option Json :=
  match m with
  | named ms => ms.lookup name
  | listed items => items[position]?

def required (m : Members) (position : Nat) (name : String) (f : Json → Option α) : Option α :=
  (m.get? position name).bind f

def withDefault (m : Members) (position : Nat) (name : String) (default : α)
    (f : Json → Option α) : Option α :=
  match m.get? position name with
  | some j => f j
  | none => some default

/-- A member that may be null and that counts as null when its name is missing. -/
def optional (m : Members) (position : Nat) (name : String) (f : Json → Option α) :
    Option (Option α) :=
  match m.get? position name, m with
  | some j, _ => j.option? f
  | none, named _ => some none
  | none, listed _ => none

end Members

/-! ### Variants -/

/-- The name of a variant and its payload, if it has one. -/
def variant? : Json → Option (String × Option Json)
  | string name => some (name, none)
  | object [(name, payload)] => some (name, some payload)
  | _ => none

/-- A variant without a payload; null may stand for it. -/
def unit? (payload : Option Json) (a : α) : Option α :=
  match payload with
  | none => some a
  | some null => some a
  | some _ => none

/-- The variant of a list of named values without payloads. -/
def oneOf? (choices : List (String × α)) (j : Json) : Option α := do
  let (name, payload) ← j.variant?
  let a ← choices.lookup name
  unit? payload a

/-! ### Maps -/

/-- A map as an object whose member names write its keys. -/
def ofMap {κ α : Type} [Ord κ] [Std.TransOrd κ] (key : κ → String) (f : α → Json)
    (m : SortedMap κ α) : Json :=
  .object (m.toList.map fun (k, a) => (key k, f a))

/-- An object as a map; of members that repeat a name the last one counts. -/
def map? {κ α : Type} [Ord κ] [Std.TransOrd κ] (key : String → Option κ)
    (f : Json → Option α) : Json → Option (SortedMap κ α)
  | object ms => do
    let entries : List (κ × α) ← ms.mapM fun (name, j) => do
      let k ← key name
      let a ← f j
      return (k, a)
    return entries.foldl (fun m (k, a) => m.insert k a) ∅
  | _ => none

def ofSet (s : SortedSet String) : Json :=
  .array (s.toList.map .string)

def set? (j : Json) : Option (SortedSet String) :=
  (j.list? string?).map fun items => items.foldl (fun s t => s.insert t) ∅

/-- The row or column number that a decimal numeral without leading zeros writes. -/
def indexOfText? (s : String) : Option Nat :=
  match s.toList with
  | [] => none
  | ['0'] => some 0
  | '0' :: _ => none
  | digits =>
    if digits.all Char.isDigit then
      let n := Number.Decimal.natOfDigits digits
      if n < indexBound then some n else none
    else none

end Recalc.Json
