import Recalc.Coercion

/-!
# Arguments that must be single values

Arguments are checked from left to right, and the first that fails decides: a block of more than one
element, an error, or a Boolean where Booleans are refused. Those that pass are then read by
position, with a default for the ones left out or blank.
-/

namespace Recalc

/-- Whether Booleans may stand for numbers. -/
inductive BooleanPolicy where
  | reject
  | coerce
deriving DecidableEq, Repr

structure Arguments where
  values : List Value

namespace Arguments

/-- Checks one argument, counted from one, and unwraps a block of one element. -/
def checkOne (policy : BooleanPolicy) (position : Nat) (v : Value) : Outcome Value :=
  let element : Outcome Value :=
    match v with
    | .array b =>
      match b.only? with
      | some inner => .ok inner
      | none => complain (.arrayArgument position b.rows b.cols)
    | scalar => .ok scalar
  match element with
  | .ok (.error e) => .error e
  | .ok (.boolean b) =>
    match policy with
    | .reject => complain (.booleanArgument position)
    | .coerce => .ok (.boolean b)
  | outcome => outcome

/-- Checks arguments from left to right, the first standing at `position`. -/
def checkFrom (policy : BooleanPolicy) (position : Nat) : List Value → Outcome (List Value)
  | [] => .ok []
  | v :: rest => do
    let first ← checkOne policy position v
    let others ← checkFrom policy (position + 1) rest
    return first :: others

def check (policy : BooleanPolicy) (values : List Value) : Outcome Arguments :=
  (checkFrom policy 1 values).map Arguments.mk

def get? (args : Arguments) (index : Nat) : Option Value :=
  args.values[index]?

/-- Whether an argument is present and not blank. -/
def isSupplied (args : Arguments) (index : Nat) : Bool :=
  (args.get? index).any fun v => !v.isBlank

def required (args : Arguments) (index : Nat) : Outcome Value :=
  match args.get? index with
  | some v => .ok v
  | none => complain (.missingArgument (index + 1))

def number (args : Arguments) (index : Nat) : Outcome Float := do
  requireFinite (← (← args.required index).asNumber)

/-- An argument as a finite number, or a default if it is left out or blank. -/
def numberOr (args : Arguments) (index : Nat) (default : Float) : Outcome Float :=
  if args.isSupplied index then args.number index else .ok default

/-- An argument rounded down to an integer. -/
def integer (args : Arguments) (index : Nat) : Outcome Int := do
  (← args.required index).asInteger

/-- An argument rounded down to an integer, or a default if it is left out or blank. -/
def integerOr (args : Arguments) (index : Nat) (default : Int) : Outcome Int :=
  if args.isSupplied index then args.integer index else .ok default

/-- An argument as the serial of a whole day. -/
def daySerial (args : Arguments) (index : Nat) : Outcome Float := do
  return Number.floor (← (← args.required index).asDateSerial)

def date (args : Arguments) (index : Nat) : Outcome Date := do
  match Date.ofSerialNumber? (← args.daySerial index) with
  | some d => return d
  | none => complain .serialOutOfRange

def text (args : Arguments) (index : Nat) : Outcome String := do
  (← args.required index).asText

def boolean (args : Arguments) (index : Nat) : Outcome Bool := do
  (← args.required index).asBoolean

end Arguments

end Recalc
