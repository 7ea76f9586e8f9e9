import Mathlib.Data.List.Forall2
import Recalc.Proofs.Returns

/-!
# Arguments in blocks of one element

A function of the library takes a block of one element for that element
(`Library.call_of_wraps`). Those that fold any number of values read a text or a Boolean
differently inside a block, so for them only numbers, errors and blanks may be wrapped.
-/
namespace Recalc

namespace Value

/-- Whether the second value is the first one, or a block with that as its only element. -/
inductive Wraps (may : Value → Prop) : Value → Value → Prop where
  | bare (v : Value) : Wraps may v v
  | boxed (v : Value) (single : v.Single) (allowed : may v) : Wraps may v (array (.single v))

/-- The values that count the same inside a block and outside of it. -/
inductive CountsAlike : Value → Prop where
  | number (x : Float) : CountsAlike (number x)
  | error (e : CellError) : CountsAlike (error e)
  | blank : CountsAlike blank

namespace Wraps

variable {may may' : Value → Prop} {v w : Value}

theorem mono (wraps : Wraps may v w) (more : ∀ v, may v → may' v) : Wraps may' v w := by
  cases wraps with
  | bare => exact .bare v
  | boxed single allowed => exact .boxed v single (more v allowed)

/-- What reads a boxed value like the value itself cannot tell that it is wrapped. -/
theorem read_eq {α : Type} (read : Value → α) (wraps : Wraps may v w)
    (boxed : v.Single → may v → read (array (.single v)) = read v) : read w = read v := by
  cases wraps with
  | bare => rfl
  | boxed single allowed => exact boxed single allowed

/-- The same for a list that is read from left to right, an element at a time. -/
theorem readAll_eq {α : Type} (read : List Value → α)
    (tail : ∀ v {rest rest' : List Value}, read rest = read rest' → read (v :: rest) = read (v :: rest'))
    (boxed : ∀ {v : Value} (rest : List Value), v.Single → may v →
      read (array (.single v) :: rest) = read (v :: rest))
    {args wrapped : List Value} (wraps : List.Forall₂ (Wraps may) args wrapped) :
    read wrapped = read args := by
  induction wraps with
  | nil => rfl
  | @cons v w args wrapped first others ih =>
    calc read (w :: wrapped) = read (v :: wrapped) :=
          first.read_eq (fun u => read (u :: wrapped)) (boxed wrapped)
      _ = read (v :: args) := tail v ih

theorem unwrapSingle_eq (wraps : Wraps may v w) : w.unwrapSingle = v.unwrapSingle :=
  wraps.read_eq unwrapSingle fun single _ => by
    cases v with
    | array b => cases single
    | _ => rfl

theorem toResult_eq (wraps : Wraps may v w) : w.toResult = v.toResult := by
  rw [toResult, toResult, wraps.unwrapSingle_eq]

end Wraps

end Value

open Value (Wraps)

variable {may : Value → Prop} {args wrapped : List Value}

theorem Arguments.check_of_wraps (policy : BooleanPolicy)
    (wraps : List.Forall₂ (Wraps may) args wrapped) : check policy wrapped = check policy args := by
  have checked := Wraps.readAll_eq (fun values position => checkFrom policy position values)
    (fun v rest rest' same => funext fun position => by
      simp only [checkFrom, congrFun same (position + 1)])
    (fun {v} rest single _ => by
      cases v with
      | array b => cases single
      | _ => rfl) wraps
  rw [check, check, congrFun checked 1]

namespace Function

/-- The functions that fold any number of values by what these hold. -/
def folding : List String :=
  ["SUM", "PRODUCT", "AVERAGE", "MIN", "MAX", "COUNT", "AND", "OR"]

/-- Which values a function takes also in a block. -/
def TakesBoxed (f : Function) (v : Value) : Prop :=
  f.name ∈ folding → v.CountsAlike

/-- Whether a function computes the same when arguments are wrapped that it takes also in a block. -/
def Unwraps (f : Function) : Prop :=
  match f.behaviour with
  | .pure g => ∀ args wrapped, List.Forall₂ (Wraps f.TakesBoxed) args wrapped →
      (g wrapped).map Value.toResult = (g args).map Value.toResult
  | _ => True

theorem unwraps_checked (name : String) (least greatest : Nat) (policy : BooleanPolicy)
    (g : Arguments → Outcome Value) : Unwraps (checked name least greatest policy g) :=
  fun args wrapped wraps => by simp only [Arguments.check_of_wraps policy wraps]

/-- A function that folds values has to be asked only about those that count alike. -/
theorem unwraps_folding {name : String} (folds : name ∈ folding) (least : Nat)
    (greatest : Option Nat) {g : List Value → Outcome Value}
    (same : ∀ {args wrapped}, List.Forall₂ (Wraps Value.CountsAlike) args wrapped →
      g wrapped = g args) : Unwraps ⟨name, least, greatest, .pure g⟩ :=
  fun args wrapped wraps => by
    rw [same (wraps.imp fun _ _ one => one.mono fun v takes => takes folds)]

theorem Unwraps.compute {f : Function} (unwraps : f.Unwraps) (ambient : Ambient) (drawn : Nat)
    (wraps : List.Forall₂ (Wraps f.TakesBoxed) args wrapped) :
    (f.compute ambient drawn wrapped).map Value.toResult =
      (f.compute ambient drawn args).map Value.toResult := by
  unfold Unwraps at unwraps
  unfold Function.compute
  cases behaviour : f.behaviour with
  | pure g =>
    rw [behaviour] at unwraps
    exact unwraps args wrapped wraps
  | ofClock g => rfl
  | ofSample g => rfl

/-- A call gives the same value, and draws as many samples. -/
theorem Unwraps.call {f : Function} (unwraps : f.Unwraps) (ambient : Ambient) (drawn : Nat)
    (wraps : List.Forall₂ (Wraps f.TakesBoxed) args wrapped) :
    f.call ambient drawn wrapped = f.call ambient drawn args := by
  have length : wrapped.length = args.length := wraps.length_eq.symm
  refine Prod.ext ?_ ?_
  · rw [call_fst, call_fst, length, unwraps.compute ambient drawn wraps]
  · unfold Function.call
    rw [length]
    split
    · cases f.behaviour <;> rfl
    · rfl

end Function

open Recalc.Function

/-! ### Functions of checked arguments -/

namespace Dates

theorem unwraps : ∀ f ∈ functions, f.Unwraps := by
  have parted : ∀ name g, (part name g).Unwraps := fun name g => unwraps_checked name 1 1 .coerce _
  have clock : ∀ name (g : Float → Float), Unwraps
      ⟨name, 0, some 0, .ofClock fun now => .ok (.number (g now))⟩ := fun _ _ => trivial
  simp only [functions, List.forall_mem_cons, parted, unwraps_checked, clock, true_and]
  exact fun _ none => absurd none List.not_mem_nil

end Dates

namespace Loans

theorem unwraps : ∀ f ∈ functions, f.Unwraps := by
  simp only [functions, List.forall_mem_cons, valueOf, cumulative, unwraps_checked, true_and]
  exact fun _ none => absurd none List.not_mem_nil

end Loans

namespace Bonds

theorem unwraps : ∀ f ∈ functions, f.Unwraps := by
  simp only [functions, List.forall_mem_cons, ofBond, unwraps_checked, true_and]
  exact fun _ none => absurd none List.not_mem_nil

end Bonds

namespace Special

theorem unwraps : ∀ f ∈ functions, f.Unwraps := by
  simp only [functions, List.forall_mem_cons, bessel, besselOfPositive, comparison, unwraps_checked,
    true_and]
  exact fun _ none => absurd none List.not_mem_nil

end Special

/-! ### Functions of any values -/

namespace Arithmetic

private theorem numbers_boxed {v : Value} (rest : List Value) (alike : v.CountsAlike) :
    numbers (.array (.single v) :: rest) = numbers (v :: rest) := by
  cases alike with
  | number x => cases others : numbers rest <;> simp only [numbers, others] <;> rfl
  | error e => rfl
  | blank => cases others : numbers rest <;> simp only [numbers, others] <;> rfl

private theorem numbers_of_wraps (wraps : List.Forall₂ (Wraps Value.CountsAlike) args wrapped) :
    numbers wrapped = numbers args :=
  Wraps.readAll_eq numbers (fun v rest rest' same => by cases v <;> simp only [numbers, same])
    (fun rest _ alike => numbers_boxed rest alike) wraps

private theorem count_of_wraps (wraps : List.Forall₂ (Wraps Value.CountsAlike) args wrapped) :
    count wrapped = count args := by
  -- the fold is read with any start, since the rest of a list starts where its head has counted to
  refine congrFun (Wraps.readAll_eq (fun values n => values.foldl (fun n v => n + countIn v) n)
    (fun v rest rest' same => funext fun n => congrFun same (n + countIn v))
    (fun {v} rest _ alike => ?_) wraps) 0
  cases alike <;> rfl

theorem unwraps : ∀ f ∈ functions, f.Unwraps := by
  have ofMany : ∀ name g, name ∈ folding → (aggregate name g).Unwraps := fun name g folds =>
    unwraps_folding folds 1 none fun wraps => by simp only [numbers_of_wraps wraps]
  have counting : (Function.variadic "COUNT" fun args =>
      .ok (.number (Float.ofNat (count args)))).Unwraps :=
    unwraps_folding (by decide) 1 none fun wraps => by simp only [count_of_wraps wraps]
  have random : Unwraps ⟨"RAND", 0, some 0, .ofSample fun sample => .ok (.number sample)⟩ := trivial
  have folds : "SUM" ∈ folding ∧ "PRODUCT" ∈ folding ∧ "AVERAGE" ∈ folding ∧ "MIN" ∈ folding ∧
    "MAX" ∈ folding := by decide
  simp only [functions, List.forall_mem_cons, ofMany, folds, ofNumber, ofNumbers, unwraps_checked,
    counting, random, true_and]
  exact fun _ none => absurd none List.not_mem_nil

end Arithmetic

namespace Wording

private theorem elements_of_wraps (wraps : List.Forall₂ (Wraps may) args wrapped) :
    elements wrapped = elements args := by
  refine Wraps.readAll_eq elements (fun v rest rest' same => ?_) (fun {v} rest single _ => ?_) wraps
  · simp only [elements, List.flatMap_cons] at same ⊢
    rw [same]
  · cases v with
    | array b => cases single
    | _ => rfl

theorem unwraps : ∀ f ∈ functions, f.Unwraps := by
  have joined : (Function.variadic "CONCAT" fun args => do
      return .text (← joinTexts (elements args))).Unwraps := fun args wrapped wraps => by
    simp only [elements_of_wraps wraps]
  simp only [functions, List.forall_mem_cons, ofText, unwraps_checked, joined, true_and]
  exact fun _ none => absurd none List.not_mem_nil

end Wording

namespace Logic

private theorem truths_boxed {v : Value} (rest : List Value) (alike : v.CountsAlike) :
    truths (.array (.single v) :: rest) = truths (v :: rest) := by
  cases alike with
  | number x => cases others : truths rest <;> simp only [truths, others] <;> rfl
  | error e => rfl
  | blank => cases others : truths rest <;> simp only [truths, others] <;> rfl

private theorem truths_of_wraps (wraps : List.Forall₂ (Wraps Value.CountsAlike) args wrapped) :
    truths wrapped = truths args :=
  Wraps.readAll_eq truths (fun v rest rest' same => by cases v <;> simp only [truths, same])
    (fun rest _ alike => truths_boxed rest alike) wraps

private theorem negation_of_wraps (wraps : List.Forall₂ (Wraps may) args wrapped) :
    negation wrapped = negation args := by
  rcases wraps with _ | ⟨first, _ | ⟨second, others⟩⟩
  · rfl
  · simp only [negation, first.unwrapSingle_eq]
  · rfl

/-- The chosen argument is handed on as it is, and unwrapped only when the result is delivered. -/
private theorem choose_of_wraps (wraps : List.Forall₂ (Wraps may) args wrapped) :
    (choose wrapped).map Value.toResult = (choose args).map Value.toResult := by
  cases wraps with
  | nil => rfl
  | @cons condition _ _ _ first others =>
    cases others with
    | nil => rfl
    | cons yes rest =>
      simp only [choose, first.unwrapSingle_eq]
      cases condition.unwrapSingle.asBoolean with
      | error e => rfl
      | ok holds =>
        cases holds with
        | true => exact congrArg Except.ok yes.toResult_eq
        | false =>
          cases rest with
          | nil => rfl
          | cons no others => exact congrArg Except.ok no.toResult_eq

private theorem replaceIf_of_wraps (replaces : Value → Bool)
    (wraps : List.Forall₂ (Wraps may) args wrapped) :
    (replaceIf replaces wrapped).map Value.toResult =
      (replaceIf replaces args).map Value.toResult := by
  rcases wraps with _ | ⟨first, _ | ⟨substitute, _ | ⟨third, others⟩⟩⟩
  · rfl
  · rfl
  · simp only [replaceIf, first.unwrapSingle_eq]
    split
    · exact congrArg Except.ok substitute.toResult_eq
    · rfl
  · rfl

theorem unwraps : ∀ f ∈ functions, f.Unwraps := by
  have folded : ∀ name g, name ∈ folding → (fold name g).Unwraps := fun name g folds =>
    unwraps_folding folds 1 none fun wraps => by simp only [truths_of_wraps wraps]
  have negated : (Function.exactly "NOT" 1 negation).Unwraps := fun args wrapped wraps => by
    rw [negation_of_wraps wraps]
  have chosen : (Function.between "IF" 2 3 choose).Unwraps := fun args wrapped wraps =>
    choose_of_wraps wraps
  have replaced : ∀ name p, (Function.exactly name 2 (replaceIf p)).Unwraps :=
    fun name p args wrapped wraps => replaceIf_of_wraps p wraps
  have constant : ∀ name b, (Function.exactly name 0 fun _ => .ok (.boolean b)).Unwraps :=
    fun name b args wrapped wraps => rfl
  have folds : "AND" ∈ folding ∧ "OR" ∈ folding := by decide
  simp only [functions, List.forall_mem_cons, folded, folds, negated, chosen, replaced, constant,
    true_and]
  exact fun _ none => absurd none List.not_mem_nil

end Logic

namespace Inspection

theorem unwraps : ∀ f ∈ functions, f.Unwraps := by
  have tested : ∀ name p, (test name p).Unwraps := fun name p args wrapped wraps => by
    rcases wraps with _ | ⟨first, _ | ⟨second, others⟩⟩
    · rfl
    · simp only [first.unwrapSingle_eq]
    · rfl
  have absent : (Function.exactly "NA" 0 fun _ => refuse .notAvailable).Unwraps :=
    fun args wrapped wraps => rfl
  simp only [functions, List.forall_mem_cons, tested, absent, true_and]
  exact fun _ none => absurd none List.not_mem_nil

end Inspection

namespace Library

/-- A function of the library gives the same value, and draws the same samples, whichever of its
arguments are wrapped in blocks of one element. -/
theorem call_of_wraps {name : String} {f : Function} (found : standard.get? name = some f)
    {args wrapped : List Value} (wraps : List.Forall₂ (Wraps f.TakesBoxed) args wrapped)
    (ambient : Ambient) (drawn : Nat) :
    f.call ambient drawn wrapped = f.call ambient drawn args :=
  (of_families Dates.unwraps Special.unwraps Loans.unwraps Bonds.unwraps Inspection.unwraps
    Logic.unwraps Arithmetic.unwraps Wording.unwraps found).call ambient drawn wraps

theorem sum_of_wrapped_number :
    (Arithmetic.aggregate "SUM" fun xs => .ok (Arithmetic.sum xs)).call ⟨0.0, fun _ => 0.5⟩ 0
        [.array (.single (.number 2.0)), .text "3"] =
      (Arithmetic.aggregate "SUM" fun xs => .ok (Arithmetic.sum xs)).call ⟨0.0, fun _ => 0.5⟩ 0
        [.number 2.0, .text "3"] := by
  refine call_of_wraps (get?_standard ?_) ?_ _ _
  · simp [standardFunctions, Arithmetic.functions]
  · exact .cons (.boxed _ rfl fun _ => .number 2.0) (.cons (.bare _) .nil)

end Library

end Recalc
