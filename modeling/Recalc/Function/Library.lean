import Recalc.Function.Arithmetic
import Recalc.Function.Bonds
import Recalc.Function.Dates
import Recalc.Function.Inspection
import Recalc.Function.Loans
import Recalc.Function.Special
import Recalc.Function.Wording
import Recalc.SortedMap

/-!
# The function library

Functions are found by name, without regard to the case of ASCII letters.
-/

namespace Recalc

/-- Functions under their upper-case names. -/
structure Library where
  functions : SortedMap String Function

namespace Library

def empty : Library :=
  ⟨∅⟩

/-- Adds a function, replacing one of the same name. -/
def register (lib : Library) (f : Function) : Library :=
  ⟨lib.functions.insert (Text.asciiUpper f.name) f⟩

def ofList (fs : List Function) : Library :=
  fs.foldl register empty

def get? (lib : Library) (name : String) : Option Function :=
  lib.functions[Text.asciiUpper name]?

def contains (lib : Library) (name : String) : Bool :=
  (lib.get? name).isSome

/-- Whether a name belongs to a volatile function. -/
def isVolatile (lib : Library) (name : String) : Bool :=
  (lib.get? name).any Function.isVolatile

def size (lib : Library) : Nat :=
  lib.functions.size

def names (lib : Library) : List String :=
  lib.functions.keys

def summary (lib : Library) : String :=
  s!"FunctionRegistry \x7b functions: {lib.size} \x7d"

/-- All functions of this library. -/
def standardFunctions : List Function :=
  Dates.functions ++ Special.functions ++ Loans.functions ++ Bonds.functions
    ++ Inspection.functions ++ Logic.functions ++ Arithmetic.functions ++ Wording.functions

def standard : Library :=
  ofList standardFunctions

end Library

end Recalc
