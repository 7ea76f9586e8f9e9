import Recalc.Proofs.Bare
import Recalc.Proofs.Returns

/-!
# Functions that see no explanations

No function of the library looks at the explanation of an error that it is given
(`Library.blind`): a function of checked arguments never meets an error, and the others hand an error
on or ask for its kind.
-/
namespace Recalc

namespace Function

/-- Whether a function computes the same from arguments without explanations, up to explanations. -/
def Blind (f : Function) : Prop :=
  match f.behaviour with
  | .pure g => ∀ args, (g (args.map Value.bare)).bare = (g args).bare
  | _ => True

theorem blind_checked {g : Arguments → Outcome Value}
    (reads : ∀ args : Arguments, args.Proper → g args.bare = g args) (name : String)
    (least greatest : Nat) (policy : BooleanPolicy) : Blind (checked name least greatest policy g) :=
  Arguments.bare_check_bind reads policy

theorem Blind.compute {f : Function} (blind : f.Blind) (ambient : Ambient) (drawn : Nat)
    (args : List Value) : (f.compute ambient drawn (args.map Value.bare)).bare =
      (f.compute ambient drawn args).bare := by
  unfold Blind at blind
  unfold Function.compute
  cases behaviour : f.behaviour with
  | pure g =>
    rw [behaviour] at blind
    exact blind args
  | ofClock g => rfl
  | ofSample g => rfl

/-- A call gives the same up to explanations, and draws as many samples. -/
theorem Blind.call {f : Function} (blind : f.Blind) (ambient : Ambient) (drawn : Nat)
    (args : List Value) :
    (f.call ambient drawn (args.map Value.bare)).1.bare = (f.call ambient drawn args).1.bare ∧
      (f.call ambient drawn (args.map Value.bare)).2 = (f.call ambient drawn args).2 := by
  constructor
  · rw [call_fst, call_fst, List.length_map]
    split
    · refine Outcome.toValue_congr ?_
      rw [Outcome.bare_map_toResult, Outcome.bare_map_toResult, blind.compute]
    · rfl
  · unfold Function.call
    rw [List.length_map]
    split
    · cases f.behaviour <;> rfl
    · rfl

end Function

open Recalc.Function

/-! ### Functions of checked arguments -/

namespace Dates

theorem blind : ∀ f ∈ functions, f.Blind := by
  have parted : ∀ name g, (part name g).Blind := fun name g =>
    blind_checked (fun args proper => by simp only [Arguments.date_bare _ proper]) name 1 1 .coerce
  have shift : ∀ args : Arguments, args.Proper → shifted args.bare = shifted args :=
    fun args proper => by
      simp only [shifted, Arguments.date_bare _ proper, Arguments.number_bare _ proper]
  have moved := blind_checked (g := fun args => do serialOf (← shifted args))
    (fun args proper => by simp only [shift args proper]) "EDATE" 2 2 .coerce
  have ended := blind_checked (g := fun args => do serialOf (← shifted args).lastOfMonth)
    (fun args proper => by simp only [shift args proper]) "EOMONTH" 2 2 .coerce
  have dated := blind_checked (g := date)
    (fun args proper => by simp only [date, Arguments.integer_bare _ proper]) "DATE" 3 3 .coerce
  have apart := blind_checked (g := days)
    (fun args proper => by simp only [days, Arguments.daySerial_bare _ proper]) "DAYS" 2 2 .coerce
  have apart360 := blind_checked (g := days360)
    (fun args proper => by simp only [days360, Arguments.date_bare _ proper,
      Arguments.isSupplied_bare, Arguments.boolean_bare _ proper]) "DAYS360" 2 3 .coerce
  have fraction := blind_checked (g := yearFraction)
    (fun args proper => by simp only [yearFraction, Arguments.date_bare _ proper,
      Arguments.integerOr_bare _ proper]) "YEARFRAC" 2 3 .reject
  have clock : ∀ name (g : Float → Float), Blind
      ⟨name, 0, some 0, .ofClock fun now => .ok (.number (g now))⟩ := fun _ _ => trivial
  simp only [functions, List.forall_mem_cons, parted, dated, apart, apart360, moved, ended, fraction,
    clock, true_and]
  exact fun _ none => absurd none List.not_mem_nil

end Dates

namespace Loans

theorem blind : ∀ f ∈ functions, f.Blind := by
  have due : ∀ (args : Arguments) (index : Nat), args.Proper →
      dueArgument args.bare index = dueArgument args index := fun args index proper => by
    simp only [dueArgument, Arguments.numberOr_bare _ proper]
  have valued : ∀ name f, (valueOf name f).Blind := fun name f =>
    blind_checked (fun args proper => by simp only [Arguments.number_bare _ proper,
      Arguments.numberOr_bare _ proper, due args _ proper]) name 3 5 .coerce
  have summed : ∀ name f, (cumulative name f).Blind := fun name f =>
    blind_checked (fun args proper => by simp only [span, Arguments.number_bare _ proper])
      name 6 6 .reject
  have paid := blind_checked (g := paymentOf)
    (fun args proper => by simp only [paymentOf, Arguments.number_bare _ proper,
      Arguments.numberOr_bare _ proper, due args _ proper]) "PMT" 3 5 .coerce
  have interest := blind_checked (g := interestOf)
    (fun args proper => by simp only [interestOf, Arguments.number_bare _ proper,
      Arguments.numberOr_bare _ proper, due args _ proper]) "IPMT" 4 6 .coerce
  simp only [functions, List.forall_mem_cons, valued, summed, paid, interest, true_and]
  exact fun _ none => absurd none List.not_mem_nil

end Loans

namespace Bonds

theorem blind : ∀ f ∈ functions, f.Blind := by
  have bonded : ∀ name g, (ofBond name g).Blind := fun name g =>
    blind_checked (fun args proper => by simp only [bond, Arguments.date_bare _ proper,
      Arguments.integer_bare _ proper, Arguments.integerOr_bare _ proper]) name 3 4 .reject
  simp only [functions, List.forall_mem_cons, bonded, true_and]
  exact fun _ none => absurd none List.not_mem_nil

end Bonds

namespace Special

theorem blind : ∀ f ∈ functions, f.Blind := by
  have arguments : ∀ args : Arguments, args.Proper → besselArguments args.bare = besselArguments args :=
    fun args proper => by
      simp only [besselArguments, Arguments.number_bare _ proper, Arguments.integer_bare _ proper]
  have any : ∀ name g, (bessel name g).Blind := fun name g =>
    blind_checked (fun args proper => by simp only [arguments args proper]) name 2 2 .reject
  have positive : ∀ name g, (besselOfPositive name g).Blind := fun name g =>
    blind_checked (fun args proper => by simp only [arguments args proper]) name 2 2 .reject
  have compared : ∀ name g, (comparison name g).Blind := fun name g =>
    blind_checked (fun args proper => by simp only [Arguments.number_bare _ proper,
      Arguments.numberOr_bare _ proper]) name 1 2 .reject
  simp only [functions, List.forall_mem_cons, any, positive, compared, true_and]
  exact fun _ none => absurd none List.not_mem_nil

end Special

/-! ### Functions of any values -/

namespace Arithmetic

private theorem plain_numbersOfElements (vs : List Value) :
    (numbersOfElements (vs.map Value.bare)).plain = (numbersOfElements vs).plain := by
  induction vs with
  | nil => rfl
  | cons v rest ih =>
    cases v with
    | number x => simp only [List.map_cons, Value.bare_number, numbersOfElements, Outcome.plain_map, ih]
    | error e => rfl
    | array b => simpa only [List.map_cons, Value.bare_array, numbersOfElements] using ih
    | _ => exact ih

private theorem plain_numbers (args : List Value) :
    (numbers (args.map Value.bare)).plain = (numbers args).plain := by
  induction args with
  | nil => rfl
  | cons v rest ih =>
    have scalar := Outcome.plain_both_congr v.plain_asNumber_bare ih List.cons
    cases v with
    | array b =>
      simp only [List.map_cons, Value.bare_array, numbers, Block.toList_map]
      exact Outcome.plain_both_congr (plain_numbersOfElements _) ih (· ++ ·)
    | blank => exact ih
    | _ => exact scalar

private theorem countIn_bare (v : Value) : countIn v.bare = countIn v := by
  cases v with
  | array b => simp [countIn, Block.toList_map, Function.comp_def]
  | _ => rfl

private theorem count_bare (args : List Value) : count (args.map Value.bare) = count args := by
  simp only [count, List.foldl_map, countIn_bare]

theorem blind : ∀ f ∈ functions, f.Blind := by
  have ofMany : ∀ name g, (aggregate name g).Blind := fun name g args =>
    Outcome.bare_bind_congr (plain_numbers args) _
  have ofOne : ∀ name g, (ofNumber name g).Blind := fun name g =>
    blind_checked (fun args proper => by simp only [Arguments.number_bare _ proper]) name 1 1 .coerce
  have ofTwo : ∀ name g, (ofNumbers name g).Blind := fun name g =>
    blind_checked (fun args proper => by simp only [Arguments.number_bare _ proper]) name 2 2 .coerce
  have counting : (Function.variadic "COUNT" fun args =>
      .ok (.number (Float.ofNat (count args)))).Blind := fun args => by simp only [count_bare]
  have random : Blind ⟨"RAND", 0, some 0, .ofSample fun sample => .ok (.number sample)⟩ := trivial
  simp only [functions, List.forall_mem_cons, ofMany, ofOne, ofTwo, counting, random, true_and]
  exact fun _ none => absurd none List.not_mem_nil

end Arithmetic

namespace Wording

private theorem elements_bare (args : List Value) :
    elements (args.map Value.bare) = (elements args).map Value.bare := by
  simp only [elements, List.flatMap_map, List.map_flatMap]
  refine congrArg (args.flatMap ·) (funext fun v => ?_)
  cases v with
  | array b => simp [Block.toList_map]
  | _ => rfl

private theorem plain_joinTexts (vs : List Value) :
    (joinTexts (vs.map Value.bare)).plain = (joinTexts vs).plain := by
  induction vs with
  | nil => rfl
  | cons v rest ih =>
    exact Outcome.plain_both_congr v.plain_asText_bare ih (· ++ ·)

theorem blind : ∀ f ∈ functions, f.Blind := by
  have ofOne : ∀ name g, (ofText name g).Blind := fun name g =>
    blind_checked (fun args proper => by simp only [Arguments.text_bare _ proper]) name 1 1 .coerce
  have joined : (Function.variadic "CONCAT" fun args => do
      return .text (← joinTexts (elements args))).Blind := fun args => by
    simp only [elements_bare]
    exact Outcome.bare_bind_congr (plain_joinTexts _) _
  simp only [functions, List.forall_mem_cons, ofOne, joined, true_and]
  exact fun _ none => absurd none List.not_mem_nil

end Wording

namespace Logic

private theorem plain_truthsOfElements (vs : List Value) :
    (truthsOfElements (vs.map Value.bare)).plain = (truthsOfElements vs).plain := by
  induction vs with
  | nil => rfl
  | cons v rest ih =>
    cases v with
    | number x => simp only [List.map_cons, Value.bare_number, truthsOfElements, Outcome.plain_map, ih]
    | boolean b =>
      simp only [List.map_cons, Value.bare_boolean, truthsOfElements, Outcome.plain_map, ih]
    | error e => rfl
    | array b => simpa only [List.map_cons, Value.bare_array, truthsOfElements] using ih
    | _ => exact ih

private theorem plain_truths (args : List Value) :
    (truths (args.map Value.bare)).plain = (truths args).plain := by
  induction args with
  | nil => rfl
  | cons v rest ih =>
    have scalar := Outcome.plain_both_congr v.plain_asBoolean_bare ih List.cons
    cases v with
    | array b =>
      simp only [List.map_cons, Value.bare_array, truths, Block.toList_map]
      exact Outcome.plain_both_congr (plain_truthsOfElements _) ih (· ++ ·)
    | blank => exact ih
    | _ => exact scalar

/-- A condition is read from a value or the only element of a block. -/
private theorem plain_condition (v : Value) :
    v.bare.unwrapSingle.asBoolean.plain = v.unwrapSingle.asBoolean.plain := by
  rw [Value.unwrapSingle_bare, Value.plain_asBoolean_bare]

private theorem bare_negation (args : List Value) :
    (negation (args.map Value.bare)).bare = (negation args).bare := by
  rcases args with _ | ⟨v, _ | ⟨w, rest⟩⟩
  · rfl
  · exact Outcome.bare_bind_congr (plain_condition v) _
  · rfl

private theorem bare_choose (args : List Value) :
    (choose (args.map Value.bare)).bare = (choose args).bare := by
  rcases args with _ | ⟨condition, _ | ⟨yes, rest⟩⟩
  · rfl
  · rfl
  · simp only [List.map_cons, choose, Outcome.bare_bind, plain_condition]
    refine congrArg (condition.unwrapSingle.asBoolean.plain >>= ·) (funext fun holds => ?_)
    cases holds with
    | true => exact congrArg Except.ok yes.bare_bare
    | false =>
      cases rest with
      | nil => rfl
      | cons no more => exact congrArg Except.ok no.bare_bare

private theorem bare_replaceIf {replaces : Value → Bool}
    (same : ∀ v : Value, replaces v.bare = replaces v) (args : List Value) :
    (replaceIf replaces (args.map Value.bare)).bare = (replaceIf replaces args).bare := by
  rcases args with _ | ⟨v, _ | ⟨substitute, _ | ⟨w, rest⟩⟩⟩
  · rfl
  · rfl
  · simp only [List.map_cons, List.map_nil, replaceIf, Value.unwrapSingle_bare, same]
    split <;> simp
  · rfl

theorem isNotAvailable_bare (v : Value) : isNotAvailable v.bare = isNotAvailable v := by
  rw [isNotAvailable, Value.errorKind?_bare, isNotAvailable]

theorem blind : ∀ f ∈ functions, f.Blind := by
  have folded : ∀ name g, (fold name g).Blind := fun name g args =>
    Outcome.bare_bind_congr (plain_truths args) _
  have negated : (Function.exactly "NOT" 1 negation).Blind := bare_negation
  have chosen : (Function.between "IF" 2 3 choose).Blind := bare_choose
  have orElse : (Function.exactly "IFERROR" 2 (replaceIf Value.isError)).Blind :=
    bare_replaceIf Value.isError_bare
  have orOther : (Function.exactly "IFNA" 2 (replaceIf isNotAvailable)).Blind :=
    bare_replaceIf isNotAvailable_bare
  have constant : ∀ name b, (Function.exactly name 0 fun _ => .ok (.boolean b)).Blind :=
    fun name b args => rfl
  simp only [functions, List.forall_mem_cons, folded, negated, chosen, orElse, orOther, constant,
    true_and]
  exact fun _ none => absurd none List.not_mem_nil

end Logic

namespace Inspection

private theorem blind_test (name : String) {p : Value → Bool}
    (same : ∀ v : Value, p v.bare = p v) : (test name p).Blind := by
  intro args
  rcases args with _ | ⟨v, _ | ⟨w, rest⟩⟩
  · rfl
  · simp only [List.map_cons, List.map_nil, Value.unwrapSingle_bare, same]
  · rfl

theorem blind : ∀ f ∈ functions, f.Blind := by
  have absent : (Function.exactly "NA" 0 fun _ => refuse .notAvailable).Blind := fun args => rfl
  simp only [functions, List.forall_mem_cons, blind_test _ Value.isError_bare,
    blind_test _ Logic.isNotAvailable_bare, blind_test _ Value.isNumber_bare,
    blind_test _ Value.isText_bare, blind_test _ Value.isBlank_bare, blind_test _ Value.isBoolean_bare,
    absent, true_and]
  exact fun _ none => absurd none List.not_mem_nil

end Inspection

theorem Library.blind {name : String} {f : Function} (found : standard.get? name = some f) :
    f.Blind :=
  of_families Dates.blind Special.blind Loans.blind Bonds.blind Inspection.blind Logic.blind
    Arithmetic.blind Wording.blind found

end Recalc
