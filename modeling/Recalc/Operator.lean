import Recalc.Coercion
import Recalc.Formula

/-!
# Operators on scalars

Arithmetic, text joining and comparison of two single values. Numbers come before texts and texts
before Booleans; texts compare without regard to case, and a blank compares as the zero value of
what it is compared with.
-/

namespace Recalc

/-- `base ^ exponent`: zero to the zero is `#NUM!`, zero to a negative number is `#DIV/0!`, and a
result that is not a finite number is `#NUM!`. -/
def power (base exponent : Float) : Outcome Float :=
  if base == 0.0 && exponent == 0.0 then refuse .number
  else if base == 0.0 && exponent < 0.0 then refuse .division
  else requireFinite (Float.pow base exponent)

/-- The quotient of two numbers; division by zero is `#DIV/0!`. -/
def quotient (x y : Float) : Outcome Float :=
  if y == 0.0 then refuse .division else .ok (x / y)

namespace UnaryOp

/-- A finite number computed from a value taken as a number. -/
def numeric (f : Float → Float) (v : Value) : Value :=
  Outcome.toValue do
    let x ← v.asNumber
    return .number (← requireFinite (f x))

def apply (op : UnaryOp) (v : Value) : Value :=
  match op with
  | plus => v
  | minus => numeric (fun x => 0.0 - x) v
  | percent => numeric (fun x => x / 100.0) v

end UnaryOp

namespace Value

/-- A blank as the zero value of what it is compared with. -/
def filledFor (v other : Value) : Value :=
  match v, other with
  | blank, text _ => text ""
  | blank, boolean _ => boolean false
  | blank, _ => number 0.0
  | v, _ => v

/-- The place of a kind of value in the comparison order. -/
def kindRank : Value → Nat
  | text _ => 1
  | boolean _ => 2
  | _ => 0

/-- The order of two numbers; a NaN is equal to every number. -/
def compareNumbers (x y : Float) : Ordering :=
  if x < y then .lt else if y < x then .gt else .eq

def order (a b : Value) : Ordering :=
  match a.filledFor b, b.filledFor a with
  | number x, number y => compareNumbers x y
  | text s, text t => compare (Text.lower s) (Text.lower t)
  | boolean p, boolean q => compare p q
  | v, w => compare v.kindRank w.kindRank

end Value

namespace BinaryOp

/-- A finite number computed from two values taken as numbers, the left one first. -/
def arithmetic (f : Float → Float → Outcome Float) (a b : Value) : Outcome Value := do
  let x ← a.asNumber
  let y ← b.asNumber
  return .number (← requireFinite (← f x y))

/-- Applies an operator to two scalars that are not errors. -/
def applyProper (op : BinaryOp) (a b : Value) : Outcome Value :=
  match op with
  | add => arithmetic (fun x y => .ok (x + y)) a b
  | sub => arithmetic (fun x y => .ok (x - y)) a b
  | mul => arithmetic (fun x y => .ok (x * y)) a b
  | div => arithmetic quotient a b
  | pow => arithmetic power a b
  | concat => do return .text ((← a.asText) ++ (← b.asText))
  | eq => .ok (.boolean (a.order b == .eq))
  | ne => .ok (.boolean (a.order b != .eq))
  | lt => .ok (.boolean (a.order b == .lt))
  | le => .ok (.boolean (a.order b != .gt))
  | gt => .ok (.boolean (a.order b == .gt))
  | ge => .ok (.boolean (a.order b != .lt))

/-- Applies an operator to two scalars. An operand that is an error is the result, the left one
first. -/
def apply (op : BinaryOp) (a b : Value) : Value :=
  match a, b with
  | .error e, _ => .error e
  | _, .error e => .error e
  | a, b => (op.applyProper a b).toValue

end BinaryOp

end Recalc
