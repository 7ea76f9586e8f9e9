import Recalc.Proofs.Returns

/-!
# The first refused argument decides

Functions of single values refuse errors, blocks of more than one element and, some of them,
Booleans. The leftmost argument that is refused settles the result (`Library.call_of_refused`):
nothing to its right is looked at, and no coercion or check of a range comes before it.
-/
namespace Recalc

/-- Why an argument at some position is refused. A block of one element counts as the element. -/
inductive Refused (policy : BooleanPolicy) (position : Nat) : Value → CellError → Prop where
  | error {v : Value} {e : CellError} (held : v.unwrapSingle = .error e) :
    Refused policy position v e
  | block {b : Block Value} (wide : b.only? = none) :
    Refused policy position (.array b) (Complaint.arrayArgument position b.rows b.cols).error
  | boolean {v : Value} {b : Bool} (rejects : policy = .reject)
    (held : v.unwrapSingle = .boolean b) :
    Refused policy position v (Complaint.booleanArgument position).error

namespace Arguments

variable {policy : BooleanPolicy} {position : Nat} {before after : List Value} {v : Value}
  {e : CellError}

/-- The check of an argument looks at the unwrapped value, unless it is a block that stays one. -/
private theorem checkOne_of_unwrapped (element : ∀ b, v = .array b → b.only? ≠ none) :
    checkOne policy position v = match v.unwrapSingle with
      | .error e => .error e
      | .boolean b =>
        match policy with
        | .reject => complain (.booleanArgument position)
        | .coerce => .ok (.boolean b)
      | u => .ok u := by
  cases v with
  | array b =>
    obtain ⟨inner, only⟩ := Option.ne_none_iff_exists'.mp (element b rfl)
    simp only [checkOne, Value.unwrapSingle, only, Option.getD_some]
    cases inner <;> rfl
  | _ => rfl

/-- An argument fails its check exactly when it is refused, and with that error. -/
theorem checkOne_eq_error_iff :
    checkOne policy position v = .error e ↔ Refused policy position v e := by
  constructor
  · intro failed
    by_cases wide : ∃ b, v = .array b ∧ b.only? = none
    · obtain ⟨b, rfl, none⟩ := wide
      simp only [checkOne, none, complain] at failed
      cases failed
      exact .block none
    · rw [checkOne_of_unwrapped fun b same none => wide ⟨b, same, none⟩] at failed
      split at failed
      next e' held =>
        cases failed
        exact .error held
      next b held =>
        cases policy with
        | reject =>
          cases failed
          exact .boolean rfl held
        | coerce => cases failed
      next => cases failed
  · intro refused
    have element : ∀ {u}, v.unwrapSingle = u → u.Single → ∀ b, v = .array b → b.only? ≠ none := by
      rintro _ rfl single b rfl none
      simp [Value.unwrapSingle, none, Value.Single, Value.isArray] at single
    cases refused with
    | error held => rw [checkOne_of_unwrapped (element held rfl), held]
    | block none => simp only [checkOne, none, complain]
    | boolean rejects held => rw [checkOne_of_unwrapped (element held rfl), held, rejects]; rfl

/-- The check of a list ends at the first argument that is refused. -/
theorem checkFrom_of_refused (passed : ∀ u ∈ before, ∀ p e, ¬ Refused policy p u e)
    (refused : Refused policy (position + before.length) v e) :
    checkFrom policy position (before ++ v :: after) = .error e := by
  induction before generalizing position with
  | nil =>
    have failed : checkOne policy position v = .error e := checkOne_eq_error_iff.mpr refused
    rw [List.nil_append, checkFrom, failed]
    rfl
  | cons u rest ih =>
    obtain ⟨first, others⟩ := List.forall_mem_cons.mp passed
    rw [List.cons_append, checkFrom, ih others]
    · cases checked : checkOne policy position u with
      | error e' => exact absurd (checkOne_eq_error_iff.mp checked) (first _ _)
      | ok w => rfl
    · rwa [Nat.add_assoc, Nat.add_comm 1, ← List.length_cons]

end Arguments

namespace Function

/-- The functions of single values, by whether they take Booleans. -/
def ofSingleValues : BooleanPolicy → List String
  | .coerce => ["ABS", "INT", "SQRT", "ROUND", "MOD", "POWER", "LEN", "UPPER", "LOWER", "DATE", "YEAR",
      "MONTH", "DAY", "DAYS", "DAYS360", "EDATE", "EOMONTH", "PMT", "PV", "FV", "IPMT"]
  | .reject => ["YEARFRAC", "COUPNUM", "COUPPCD", "COUPNCD", "CUMIPMT", "CUMPRINC", "BESSELI",
      "BESSELJ", "BESSELK", "BESSELY", "DELTA", "GESTEP"]

/-- Whether a function that is to take single values checks its arguments before anything else. -/
def ChecksFirst (f : Function) : Prop :=
  ∀ policy, f.name ∈ ofSingleValues policy → ∃ g : Arguments → Outcome Value,
    f.behaviour = .pure fun values => do g (← Arguments.check policy values)

theorem checksFirst_coerce {name : String} (takes : name ∉ ofSingleValues .reject)
    (least greatest : Nat) (g : Arguments → Outcome Value) :
    ChecksFirst (checked name least greatest .coerce g) := fun policy listed => by
  cases policy with
  | coerce => exact ⟨g, rfl⟩
  | reject => exact absurd listed takes

theorem checksFirst_reject {name : String} (rejects : name ∉ ofSingleValues .coerce)
    (least greatest : Nat) (g : Arguments → Outcome Value) :
    ChecksFirst (checked name least greatest .reject g) := fun policy listed => by
  cases policy with
  | coerce => exact absurd listed rejects
  | reject => exact ⟨g, rfl⟩

theorem checksFirst_of_notMem {f : Function} (takes : f.name ∉ ofSingleValues .reject)
    (rejects : f.name ∉ ofSingleValues .coerce) : f.ChecksFirst := fun policy listed => by
  cases policy with
  | coerce => exact absurd listed rejects
  | reject => exact absurd listed takes

theorem ChecksFirst.call {f : Function} (checks : f.ChecksFirst) {policy : BooleanPolicy}
    (listed : f.name ∈ ofSingleValues policy) {args : List Value} {e : CellError}
    (failed : Arguments.check policy args = .error e) (accepted : f.acceptsCount args.length = true)
    (ambient : Ambient) (drawn : Nat) : f.call ambient drawn args = (.error e, drawn) := by
  obtain ⟨g, behaviour⟩ := checks policy listed
  simp only [Function.call, if_pos accepted, behaviour, failed]
  rfl

end Function

open Recalc.Function

/-! ### The functions of the library -/

theorem Dates.checksFirst : ∀ f ∈ functions, f.ChecksFirst := by
  simp (disch := decide) only [functions, List.forall_mem_cons, part, checksFirst_coerce,
    checksFirst_reject, checksFirst_of_notMem, true_and]
  exact fun _ none => absurd none List.not_mem_nil

theorem Loans.checksFirst : ∀ f ∈ functions, f.ChecksFirst := by
  simp (disch := decide) only [functions, List.forall_mem_cons, valueOf, cumulative,
    checksFirst_coerce, checksFirst_reject, true_and]
  exact fun _ none => absurd none List.not_mem_nil

theorem Bonds.checksFirst : ∀ f ∈ functions, f.ChecksFirst := by
  simp (disch := decide) only [functions, List.forall_mem_cons, ofBond, checksFirst_reject, true_and]
  exact fun _ none => absurd none List.not_mem_nil

theorem Special.checksFirst : ∀ f ∈ functions, f.ChecksFirst := by
  simp (disch := decide) only [functions, List.forall_mem_cons, bessel, besselOfPositive, comparison,
    checksFirst_reject, true_and]
  exact fun _ none => absurd none List.not_mem_nil

theorem Arithmetic.checksFirst : ∀ f ∈ functions, f.ChecksFirst := by
  simp (disch := decide) only [functions, List.forall_mem_cons, aggregate, ofNumber, ofNumbers,
    checksFirst_coerce, checksFirst_of_notMem, true_and]
  exact fun _ none => absurd none List.not_mem_nil

theorem Wording.checksFirst : ∀ f ∈ functions, f.ChecksFirst := by
  simp (disch := decide) only [functions, List.forall_mem_cons, ofText, checksFirst_coerce,
    checksFirst_of_notMem, true_and]
  exact fun _ none => absurd none List.not_mem_nil

theorem Logic.checksFirst : ∀ f ∈ functions, f.ChecksFirst := by
  simp (disch := decide) only [functions, List.forall_mem_cons, checksFirst_of_notMem, true_and]
  exact fun _ none => absurd none List.not_mem_nil

theorem Inspection.checksFirst : ∀ f ∈ functions, f.ChecksFirst := by
  simp (disch := decide) only [functions, List.forall_mem_cons, checksFirst_of_notMem, true_and]
  exact fun _ none => absurd none List.not_mem_nil

namespace Library

/-- The leftmost refused argument of a function of single values decides the result, whatever the
arguments after it are: an error is handed on as it is, and a block or a Boolean is `#VALUE!`. -/
theorem call_of_refused {name : String} {f : Function} (found : standard.get? name = some f)
    {policy : BooleanPolicy} (listed : f.name ∈ ofSingleValues policy) {before after : List Value}
    {v : Value} {e : CellError} (passed : ∀ u ∈ before, ∀ p e, ¬ Refused policy p u e)
    (refused : Refused policy (before.length + 1) v e)
    (accepted : f.acceptsCount (before ++ v :: after).length = true) (ambient : Ambient)
    (drawn : Nat) : f.call ambient drawn (before ++ v :: after) = (.error e, drawn) := by
  have checks : f.ChecksFirst := of_families Dates.checksFirst Special.checksFirst Loans.checksFirst
    Bonds.checksFirst Inspection.checksFirst Logic.checksFirst Arithmetic.checksFirst
    Wording.checksFirst found
  refine checks.call listed ?_ accepted ambient drawn
  rw [Arguments.check, Arguments.checkFrom_of_refused passed (Nat.add_comm _ 1 ▸ refused)]
  rfl

/-- The Boolean decides, although the text before it is no number. -/
theorem gestep_refuses_boolean :
    (Special.comparison "GESTEP" fun x y => y ≤ x).call ⟨0.0, fun _ => 0.5⟩ 0
        ([.text "x"] ++ .boolean true :: []) =
      (.error (Complaint.booleanArgument 2).error, 0) := by
  refine call_of_refused (get?_standard ?_) (by decide : _ ∈ ofSingleValues .reject) ?_
    (.boolean rfl rfl) rfl _ _
  · simp [standardFunctions, Special.functions]
  · rintro u given p e refused
    obtain rfl := List.mem_singleton.mp given
    rcases refused with held | _ | ⟨_, held⟩ <;> cases held

end Library

end Recalc
