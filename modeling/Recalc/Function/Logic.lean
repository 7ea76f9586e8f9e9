import Recalc.Function.Basic

/-!
# Logical functions

Conjunction and disjunction take Booleans and numbers, also from inside blocks; the conditionals
choose between arguments that have all been computed.
-/

namespace Recalc.Logic

/-- The logical values among the elements of a block. -/
def truthsOfElements : List Value → Outcome (List Bool)
  | [] => .ok []
  | .boolean b :: rest => (truthsOfElements rest).map (b :: ·)
  | .number x :: rest => (truthsOfElements rest).map ((x != 0.0) :: ·)
  | .error e :: _ => .error e
  | _ :: rest => truthsOfElements rest

/-- The logical values among arguments; blank ones are left out. -/
def truths : List Value → Outcome (List Bool)
  | [] => .ok []
  | .array b :: rest => do
    let inside ← truthsOfElements b.toList
    let others ← truths rest
    return inside ++ others
  | .blank :: rest => truths rest
  | v :: rest => do
    let b ← v.asBoolean
    let others ← truths rest
    return b :: others

/-- A function that folds logical values, of which there must be one. -/
def fold (name : String) (f : List Bool → Bool) : Function :=
  .variadic name fun args => do
    let bs ← truths args
    if bs.isEmpty then complain .noLogicalValues else return .boolean (f bs)

def negation : List Value → Outcome Value
  | [v] => do return .boolean (!(← v.unwrapSingle.asBoolean))
  | _ => refuse .notAvailable

/-- The second argument if the first holds, else the third, which is `FALSE` when left out. -/
def choose : List Value → Outcome Value
  | condition :: yes :: rest => do
    if ← condition.unwrapSingle.asBoolean then return yes
    else return rest.headD (.boolean false)
  | _ => refuse .notAvailable

/-- The first argument unless it is an error of the given sort, which the second one replaces. -/
def replaceIf (replaces : Value → Bool) : List Value → Outcome Value
  | [v, substitute] =>
    let v := v.unwrapSingle
    .ok (if replaces v then substitute else v)
  | _ => refuse .notAvailable

def isNotAvailable (v : Value) : Bool :=
  v.errorKind? == some .notAvailable

def functions : List Function := [
  fold "AND" fun bs => bs.all id,
  fold "OR" fun bs => bs.any id,
  .exactly "NOT" 1 negation,
  .between "IF" 2 3 choose,
  .exactly "IFERROR" 2 (replaceIf Value.isError),
  .exactly "IFNA" 2 (replaceIf isNotAvailable),
  .exactly "TRUE" 0 fun _ => .ok (.boolean true),
  .exactly "FALSE" 0 fun _ => .ok (.boolean false)]

end Recalc.Logic
