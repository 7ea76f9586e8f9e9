import Recalc.Function.Logic

/-!
# Functions that tell what a value is
-/

namespace Recalc.Inspection

/-- A function that tests its only argument. -/
def test (name : String) (p : Value → Bool) : Function :=
  .exactly name 1 fun
    | [v] => .ok (.boolean (p v.unwrapSingle))
    | _ => refuse .notAvailable

def functions : List Function := [
  test "ISERROR" Value.isError,
  test "ISNA" Logic.isNotAvailable,
  test "ISNUMBER" Value.isNumber,
  test "ISTEXT" Value.isText,
  test "ISBLANK" Value.isBlank,
  test "ISLOGICAL" Value.isBoolean,
  .exactly "NA" 0 fun _ => refuse .notAvailable]

end Recalc.Inspection
