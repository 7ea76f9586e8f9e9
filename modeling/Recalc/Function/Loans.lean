import Recalc.Annuity
import Recalc.Function.Basic

/-!
# Functions of loans and savings
-/

namespace Recalc.Loans

open Annuity

/-- The optional argument that tells when payments fall due; any number but zero means at the start. -/
def dueArgument (args : Arguments) (index : Nat) : Outcome Due := do
  let x ← args.numberOr index 0.0
  return if x != 0.0 then .atStart else .atEnd

def paymentOf (args : Arguments) : Outcome Value := do
  let rate ← args.number 0
  let periods ← args.number 1
  if periods == 0.0 then refuse .number
  else
    let present ← args.number 2
    let future ← args.numberOr 3 0.0
    let due ← dueArgument args 4
    return .number (payment rate periods present future due)

/-- A function of a rate, a number of periods, a payment, an optional value and a due time. -/
def valueOf (name : String) (f : Float → Float → Float → Float → Due → Float) : Function :=
  .checked name 3 5 .coerce fun args => do
    let rate ← args.number 0
    let periods ← args.number 1
    let amount ← args.number 2
    let other ← args.numberOr 3 0.0
    let due ← dueArgument args 4
    return .number (f rate periods amount other due)

def interestOf (args : Arguments) : Outcome Value := do
  let rate ← args.number 0
  let period ← args.number 1
  let periods ← args.number 2
  if period < 1.0 ∨ periods < period then complain .periodOutOfRange
  else
    let present ← args.number 3
    let future ← args.numberOr 4 0.0
    let due ← dueArgument args 5
    return .number (interest rate period periods present future due)

/-- The arguments that describe a span of periods. -/
def span (args : Arguments) : Outcome (Span Float) := do
  let rate ← args.number 0
  let periods ← args.number 1
  let present ← args.number 2
  let start ← args.number 3
  let stop ← args.number 4
  let due ← args.number 5
  if due != 0.0 && due != 1.0 then refuse .number
  else
    return ⟨rate, periods, present, start, stop, if due == 0.0 then .atEnd else .atStart⟩

/-- A function of the whole periods of a span. -/
def cumulative (name : String)
    (f : Float → Float → Float → Float → Float → Due → Float) : Function :=
  .checked name 6 6 .reject fun args => do
    match (← span args).evaluate? f with
    | some x => return .number x
    | none => refuse .number

def functions : List Function := [
  .checked "PMT" 3 5 .coerce paymentOf,
  valueOf "PV" presentValue,
  valueOf "FV" futureValue,
  .checked "IPMT" 4 6 .coerce interestOf,
  cumulative "CUMIPMT" cumulativeInterest,
  cumulative "CUMPRINC" cumulativePrincipal]

end Recalc.Loans
