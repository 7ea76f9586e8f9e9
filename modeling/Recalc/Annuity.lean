import Recalc.Number.Binary64

/-!
# Annuities

Constant payments over equal periods at one rate. The formulas are written over any kind of number
with powers, so that they can be read over exact numbers as well as evaluated on rounded ones. Money
paid out is negative and money received positive.
-/

namespace Recalc

/-- The arithmetic that the annuity formulas need. Powers take an exponent of the same kind, and
rounding to whole numbers goes toward zero, down or up. -/
class Quantity (α : Type u) extends Add α, Sub α, Mul α, Div α, Neg α, BEq α where
  zero : α
  one : α
  pow : α → α → α
  less : α → α → Bool
  truncate : α → α
  floor : α → α
  ceil : α → α

instance : Quantity Float where
  zero := 0.0
  one := 1.0
  pow := Float.pow
  less x y := x < y
  truncate := Number.truncate
  floor := Number.floor
  ceil := Number.ceil

namespace Quantity

variable {α : Type u} [Quantity α]

def atMost (x y : α) : Bool :=
  less x y || x == y

/-- Whether a quantity has a fractional part. -/
def isBroken (x : α) : Bool :=
  x - truncate x != zero

end Quantity

namespace Annuity

inductive Due where
  | atEnd
  | atStart
deriving DecidableEq, Repr

variable {α : Type u} [Quantity α]

open Quantity

/-- One for payments at the start of a period, else zero. -/
def Due.weight : Due → α
  | atEnd => zero
  | atStart => one

def growth (rate periods : α) : α :=
  pow (one + rate) periods

/-- The growth of one payment over a period, if it falls due at the start of it. -/
def dueFactor (rate : α) (due : Due) : α :=
  one + rate * due.weight

/-- The payment that turns `present` into `future` over the periods. -/
def payment (rate periods present future : α) (due : Due) : α :=
  if rate == zero then -(present + future) / periods
  else
    let p := growth rate periods
    let numerator := -rate * (present * p + future)
    numerator / (dueFactor rate due * (p - one))

/-- What is left at the end of the periods. -/
def futureValue (rate periods amount present : α) (due : Due) : α :=
  if rate == zero then -(present + amount * periods)
  else
    let p := growth rate periods
    let balance := -(present * p + amount * dueFactor rate due * (p - one) / rate)
    balance

/-- What the payments and the final value are worth at the start. -/
def presentValue (rate periods amount future : α) (due : Due) : α :=
  if rate == zero then -(future + amount * periods)
  else
    let p := growth rate periods
    let balance := -(future + amount * dueFactor rate due * (p - one) / rate)
    balance / p

/-- The interest within the payment of a period, counted from one. -/
def interest (rate period periods present future : α) (due : Due) : α :=
  let amount := payment rate periods present future due
  if period == one then
    match due with
    | .atStart => zero
    | .atEnd => -present * rate
  else
    match due with
    | .atStart =>
      (futureValue rate (period - (one + one)) amount present .atStart - amount) * rate
    | .atEnd => futureValue rate (period - one) amount present .atEnd * rate

/-! ### Spans of periods -/

/-- The sum of the future values after `start, start + 1, …` periods, `count` of them. Each is the
difference of a constant and a term of a geometric series. -/
def futureValueSum (rate start count amount present : α) (due : Due) : α :=
  let constant := amount * dueFactor rate due / rate
  let series := growth rate start * (growth rate count - one) / rate
  count * constant - (present + constant) * series

/-- The number of periods from `first` to `last`, zero if there is none. -/
def periodCount (first last : α) : α :=
  let count := last - first + one
  if less count zero then zero else count

/-- The interest paid in the periods from `first` to `last` of a loan. The first period of all has a
term of its own. -/
def cumulativeInterest (rate periods present first last : α) (due : Due) : α :=
  let amount := payment rate periods present zero due
  let opening := if first == one then
      match due with
      | .atEnd => -present
      | .atStart => zero
    else zero
  let first := if first == one then first + one else first
  let count := periodCount first last
  let later :=
    match due with
    | .atStart =>
      futureValueSum rate (first - (one + one)) count amount present .atStart - count * amount
    | .atEnd => futureValueSum rate (first - one) count amount present .atEnd
  (opening + later) * rate

/-- The principal repaid in the periods from `first` to `last` of a loan. -/
def cumulativePrincipal (rate periods present first last : α) (due : Due) : α :=
  let amount := payment rate periods present zero due
  let opening := if first == one then
      match due with
      | .atEnd => amount + present * rate
      | .atStart => amount
    else zero
  let first := if first == one then first + one else first
  let count := periodCount first last
  let later :=
    match due with
    | .atStart =>
      count * amount * (one + rate)
        - futureValueSum rate (first - (one + one)) count amount present .atStart * rate
    | .atEnd =>
      count * amount - futureValueSum rate (first - one) count amount present .atEnd * rate
  opening + later

/-- A span of periods of a loan. Its ends need not be whole. -/
structure Span (α : Type u) where
  rate : α
  periods : α
  present : α
  start : α
  stop : α
  due : Due

namespace Span

/-- Whether the loan bears no interest, is none, or does not last through the span. -/
def isOutOfRange (s : Span α) : Bool :=
  atMost s.rate zero || atMost s.periods zero || atMost s.present zero
    || less s.start one || less s.stop one || less s.stop s.start || less s.periods s.stop

/-- Whether both ends of a span lie inside one period. -/
def isInsidePeriod (s : Span α) : Bool :=
  isBroken s.start && isBroken s.stop && truncate s.start == truncate s.stop

/-- What a formula gives for the whole periods of a span, if the span is in range. -/
def evaluate? (s : Span α) (f : α → α → α → α → α → Due → α) : Option α :=
  if s.isOutOfRange then none
  else if s.isInsidePeriod then some zero
  else some (f s.rate s.periods s.present (ceil s.start) (floor s.stop) s.due)

end Span

end Annuity

end Recalc
