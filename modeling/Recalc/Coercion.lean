import Recalc.Calendar.DateText
import Recalc.Calendar.Serial
import Recalc.Value

/-!
# Coercions of scalars

How a value is taken as a number, a whole number, a date serial, a Boolean or a text. An error
always stays the error it is, and a block is never taken for one of its elements.
-/

namespace Recalc

/-- A computation that may yield an error value instead. -/
abbrev Outcome (α : Type) :=
  Except CellError α

namespace Outcome

/-- The value of a computation, an error counting as a value. -/
def toValue : Outcome Value → Value
  | .ok v => v
  | .error e => .error e

end Outcome

def complain {α : Type} (c : Complaint) : Outcome α :=
  .error c.error

/-- Refuses with an error kind alone. -/
def refuse {α : Type} (kind : ErrorKind) : Outcome α :=
  .error (.plain kind)

/-- A number that is not finite is `#NUM!`. -/
def requireFinite (x : Float) : Outcome Float :=
  if x.isFinite then .ok x else refuse .number

/-- The number a text writes, between optional blanks; a percent sign at its end divides by 100. -/
def numberOfText? (s : String) : Option Float :=
  let body := Text.trim s.toList
  let (digits, divisor) :=
    match body.reverse with
    | '%' :: rest => (Text.trim rest.reverse, 100.0)
    | _ => (body, 1.0)
  match Number.Decimal.read digits with
  | some d => if d.toFloat.isFinite then some (d.toFloat / divisor) else none
  | none => none

/-- The text of a number in a cell of general format. -/
def generalText (x : Float) : String :=
  if Number.isWhole x ∧ x.abs < 1e15 then toString (Number.toInt64 x) else Number.text x

namespace Value

/-- A value as a number: Booleans are one and zero, the blank is zero, and text is read. -/
def asNumber : Value → Outcome Float
  | number x => .ok x
  | boolean b => .ok (if b then 1.0 else 0.0)
  | blank => .ok 0.0
  | text s =>
    match numberOfText? s with
    | some x => .ok x
    | none => Recalc.complain (.unreadableNumber s)
  | error e => .error e
  | array _ => Recalc.complain .arrayAsNumber

/-- A value as a finite number rounded down to a 64-bit integer. -/
def asInteger (v : Value) : Outcome Int := do
  let x ← requireFinite (← v.asNumber)
  return Number.toInt64 (Number.floor x)

/-- A value as a date serial within the date system: text may also write a date. -/
def asDateSerial (v : Value) : Outcome Float := do
  let x ← match v with
    | text s =>
      match Date.ofText? s with
      | some d => .ok d.serialNumber
      | none => v.asNumber
    | _ => v.asNumber
  let x ← requireFinite x
  if x < 0.0 ∨ Float.ofInt maxSerial < x then Recalc.complain .serialOutOfRange
  else return x

/-- A value as a Boolean: numbers count by being non-zero, and text must be one of the two words. -/
def asBoolean : Value → Outcome Bool
  | boolean b => .ok b
  | number x => .ok (x != 0.0)
  | blank => .ok false
  | text s =>
    if Text.sameIgnoringCase s "TRUE" then .ok true
    else if Text.sameIgnoringCase s "FALSE" then .ok false
    else refuse .value
  | error e => .error e
  | array _ => refuse .value

def asText : Value → Outcome String
  | number x => .ok (generalText x)
  | text s => .ok s
  | boolean true => .ok "TRUE"
  | boolean false => .ok "FALSE"
  | blank => .ok ""
  | error e => .error e
  | array _ => refuse .value

end Value

end Recalc
