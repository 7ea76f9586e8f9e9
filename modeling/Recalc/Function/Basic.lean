import Recalc.Arguments

/-!
# Functions

A function has a name, bounds on the number of its arguments, and a behaviour. Only two kinds of
behaviour depend on more than the arguments: reading the clock, and drawing a random sample. A call
outside the bounds never runs the behaviour.
-/

namespace Recalc

/-- What a function computes from. A volatile behaviour ignores its arguments. -/
inductive Behaviour where
  | pure (f : List Value → Outcome Value)
  | ofClock (f : Float → Outcome Value)
  | ofSample (f : Float → Outcome Value)

/-- The clock, and the samples of a random stream in the order in which they are drawn. -/
structure Ambient where
  now : Float
  sample : Nat → Float

/-- A function of the library. No greatest number of arguments means that there is no bound. -/
structure Function where
  name : String
  minArgs : Nat
  maxArgs : Option Nat
  behaviour : Behaviour

namespace Function

/-- A function of its arguments, with a least and a greatest number of them. -/
def between (name : String) (least greatest : Nat) (f : List Value → Outcome Value) : Function :=
  ⟨name, least, some greatest, .pure f⟩

/-- A function of a fixed number of arguments. -/
def exactly (name : String) (count : Nat) (f : List Value → Outcome Value) : Function :=
  between name count count f

/-- A function of at least one argument. -/
def variadic (name : String) (f : List Value → Outcome Value) : Function :=
  ⟨name, 1, none, .pure f⟩

/-- A function of single values, which are checked before it sees them. -/
def checked (name : String) (least greatest : Nat) (policy : BooleanPolicy)
    (f : Arguments → Outcome Value) : Function :=
  between name least greatest fun values => do f (← Arguments.check policy values)

/-- Whether results may change although the arguments do not. -/
def isVolatile (f : Function) : Bool :=
  match f.behaviour with
  | .pure _ => false
  | _ => true

def acceptsCount (f : Function) (count : Nat) : Bool :=
  f.minArgs ≤ count && f.maxArgs.all fun greatest => count ≤ greatest

/-- Calls a function when `drawn` samples have been drawn before; the result comes with the number
of samples drawn after the call. -/
def call (f : Function) (ambient : Ambient) (drawn : Nat) (args : List Value) : Value × Nat :=
  let deliver (outcome : Outcome Value) : Value :=
    match outcome with
    | .ok v => v.toResult
    | .error e => .error e
  if f.acceptsCount args.length then
    match f.behaviour with
    | .pure g => (deliver (g args), drawn)
    | .ofClock g => (deliver (g ambient.now), drawn)
    | .ofSample g => (deliver (g (ambient.sample drawn)), drawn + 1)
  else (Value.complain (.argumentCount f.name args.length), drawn)

end Function

end Recalc
