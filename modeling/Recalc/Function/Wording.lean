import Recalc.Function.Basic

/-!
# Text functions
-/

namespace Recalc.Wording

/-- Joins the texts of values from left to right. -/
def joinTexts : List Value → Outcome String
  | [] => .ok ""
  | v :: rest => do
    let first ← v.asText
    let others ← joinTexts rest
    return first ++ others

/-- The arguments with every block replaced by its elements, row by row. -/
def elements (args : List Value) : List Value :=
  args.flatMap fun
    | .array b => b.toList
    | v => [v]

def ofText (name : String) (f : String → Value) : Function :=
  .checked name 1 1 .coerce fun args => do return f (← args.text 0)

def functions : List Function := [
  ofText "LEN" fun s => .number (Float.ofNat s.length),
  ofText "UPPER" fun s => .text (Text.upper s),
  ofText "LOWER" fun s => .text (Text.lower s),
  .variadic "CONCAT" fun args => do return .text (← joinTexts (elements args))]

end Recalc.Wording
