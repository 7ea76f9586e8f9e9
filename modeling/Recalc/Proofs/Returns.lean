import Recalc.Function.Library

/-!
# What functions return

Whatever it computes, a function of the library returns a single value or hands on one of its
arguments (`Library.makesNoBlock`). The conditionals do the latter, with a block of one element handed
on as its element. So blocks come from references and array literals only.
-/
namespace Recalc

/-- Whether a value is no block. -/
def Value.Single (v : Value) : Prop :=
  v.isArray = false

/-- Whether a computation, unless it ends in an error, gives a result of some kind. -/
def Outcome.Gives {α : Type} (outcome : Outcome α) (kind : α → Prop) : Prop :=
  ∀ result, outcome = .ok result → kind result

namespace Outcome.Gives

variable {α β : Type} {outcome : Outcome α} {kind : β → Prop}

theorem ok {result : β} (holds : kind result) : Gives (.ok result) kind := by
  rintro _ ⟨⟩
  exact holds

theorem error (e : CellError) : Gives (.error e : Outcome β) kind :=
  nofun

/-- What is computed first does not matter if the rest gives results of the kind in every case. -/
theorem bind {next : α → Outcome β} (later : ∀ a, Gives (next a) kind) :
    Gives (outcome >>= next) kind := by
  cases outcome with
  | error e => exact error e
  | ok a => exact later a

theorem ite {c : Prop} [Decidable c] {yes no : Outcome β} (first : Gives yes kind)
    (second : Gives no kind) : Gives (if c then yes else no) kind := by
  split
  · exact first
  · exact second

theorem number (x : Float) : Gives (.ok (.number x)) Value.Single :=
  ok rfl

theorem boolean (b : Bool) : Gives (.ok (.boolean b)) Value.Single :=
  ok rfl

theorem text (s : String) : Gives (.ok (.text s)) Value.Single :=
  ok rfl

end Outcome.Gives

namespace Function

/-! ### Calls -/

/-- What a function that accepts its arguments computes, before the result is normalised. -/
def compute (f : Function) (ambient : Ambient) (drawn : Nat) (args : List Value) : Outcome Value :=
  match f.behaviour with
  | .pure g => g args
  | .ofClock g => g ambient.now
  | .ofSample g => g (ambient.sample drawn)

theorem call_fst (f : Function) (ambient : Ambient) (drawn : Nat) (args : List Value) :
    (f.call ambient drawn args).1 = if f.acceptsCount args.length = true then
      Outcome.toValue ((f.compute ambient drawn args).map Value.toResult)
    else Value.complain (.argumentCount f.name args.length) := by
  simp only [call, compute]
  split
  · cases f.behaviour with
    | pure g =>
      dsimp only
      cases g args <;> rfl
    | ofClock g =>
      dsimp only
      cases g ambient.now <;> rfl
    | ofSample g =>
      dsimp only
      cases g (ambient.sample drawn) <;> rfl
  · rfl

/-- Whether a value is single, or is an argument or the only element of one. -/
def Stems (args : List Value) (v : Value) : Prop :=
  v.Single ∨ ∃ x ∈ args, v = x ∨ v = x.unwrapSingle

/-- Whether all blocks that a function returns stem from its arguments. -/
def MakesNoBlock (f : Function) : Prop :=
  match f.behaviour with
  | .pure g => ∀ args, (g args).Gives (Stems args)
  | .ofClock g => ∀ now, (g now).Gives Value.Single
  | .ofSample g => ∀ sample, (g sample).Gives Value.Single

/-- The blocks that such a function computes are its arguments or elements of them. -/
theorem MakesNoBlock.stems {f : Function} (makes : f.MakesNoBlock) (ambient : Ambient) (drawn : Nat)
    (args : List Value) : (f.compute ambient drawn args).Gives (Stems args) := by
  unfold MakesNoBlock at makes
  unfold compute
  cases behaviour : f.behaviour with
  | pure g =>
    rw [behaviour] at makes
    exact makes args
  | ofClock g =>
    rw [behaviour] at makes
    exact fun v computed => .inl (makes _ v computed)
  | ofSample g =>
    rw [behaviour] at makes
    exact fun v computed => .inl (makes _ v computed)

theorem makesNoBlock_pure {g : List Value → Outcome Value}
    (single : ∀ args, (g args).Gives Value.Single) (name : String) (least : Nat)
    (greatest : Option Nat) : MakesNoBlock ⟨name, least, greatest, .pure g⟩ :=
  fun args v given => .inl (single args v given)

theorem makesNoBlock_checked {g : Arguments → Outcome Value}
    (single : ∀ args, (g args).Gives Value.Single) (name : String) (least greatest : Nat)
    (policy : BooleanPolicy) : MakesNoBlock (checked name least greatest policy g) :=
  makesNoBlock_pure (fun _ => .bind single) name least (some greatest)

end Function

open Recalc.Function Outcome.Gives

/-! ### The functions of the library -/

namespace Arithmetic

theorem makesNoBlock : ∀ f ∈ functions, f.MakesNoBlock := by
  have ofMany : ∀ name g, (aggregate name g).MakesNoBlock := fun name g =>
    makesNoBlock_pure (fun _ => .bind fun _ => .bind fun _ => number _) name 1 none
  have ofOne : ∀ name g, (ofNumber name g).MakesNoBlock := fun name g =>
    makesNoBlock_checked (fun _ => .bind fun _ => .bind fun _ => number _) name 1 1 .coerce
  have ofTwo : ∀ name g, (ofNumbers name g).MakesNoBlock := fun name g =>
    makesNoBlock_checked (fun _ => .bind fun _ => .bind fun _ => .bind fun _ => number _) name 2 2
      .coerce
  have counting : (Function.variadic "COUNT" fun args =>
      .ok (.number (Float.ofNat (count args)))).MakesNoBlock :=
    makesNoBlock_pure (fun _ => number _) _ 1 none
  have random : MakesNoBlock ⟨"RAND", 0, some 0, .ofSample fun sample => .ok (.number sample)⟩ :=
    fun _ => number _
  simp only [functions, List.forall_mem_cons, ofMany, ofOne, ofTwo, counting, random, true_and]
  exact fun _ none => absurd none List.not_mem_nil

end Arithmetic

namespace Wording

theorem makesNoBlock : ∀ f ∈ functions, f.MakesNoBlock := by
  have length : ∀ name (g : String → Float), (ofText name fun s => .number (g s)).MakesNoBlock :=
    fun name g => makesNoBlock_checked (fun _ => .bind fun _ => number _) name 1 1 .coerce
  have cased : ∀ name (g : String → String), (ofText name fun s => .text (g s)).MakesNoBlock :=
    fun name g => makesNoBlock_checked (fun _ => .bind fun _ => text _) name 1 1 .coerce
  have joined : (Function.variadic "CONCAT" fun args => do
      return .text (← joinTexts (elements args))).MakesNoBlock :=
    makesNoBlock_pure (fun _ => .bind fun _ => text _) _ 1 none
  simp only [functions, List.forall_mem_cons, length, cased, joined, true_and]
  exact fun _ none => absurd none List.not_mem_nil

end Wording

namespace Logic

/-- The conditionals hand on what they choose. -/
private theorem stems_choose (args : List Value) : (choose args).Gives (Stems args) := by
  unfold choose
  split
  next condition yes rest =>
    refine .bind fun holds => .ite (.ok (.inr ⟨yes, by simp, .inl rfl⟩)) ?_
    cases rest with
    | nil => exact .ok (.inl rfl)
    | cons no more => exact .ok (.inr ⟨no, by simp, .inl rfl⟩)
  next => exact .error _

private theorem stems_replaceIf (replaces : Value → Bool) (args : List Value) :
    (replaceIf replaces args).Gives (Stems args) := by
  unfold replaceIf
  split
  next v substitute =>
    refine .ok ?_
    split
    · exact .inr ⟨substitute, by simp, .inl rfl⟩
    · exact .inr ⟨v, by simp, .inr rfl⟩
  next => exact .error _

private theorem single_negation (args : List Value) : (negation args).Gives Value.Single := by
  unfold negation
  split
  · exact .bind fun _ => boolean _
  · exact .error _

theorem makesNoBlock : ∀ f ∈ functions, f.MakesNoBlock := by
  have folded : ∀ name g, (fold name g).MakesNoBlock := fun name g =>
    makesNoBlock_pure (fun _ => .bind fun _ => .ite (.error _) (boolean _)) name 1 none
  have negated : (Function.exactly "NOT" 1 negation).MakesNoBlock :=
    makesNoBlock_pure single_negation _ 1 (some 1)
  have chosen : (Function.between "IF" 2 3 choose).MakesNoBlock := stems_choose
  have replaced : ∀ name p, (Function.exactly name 2 (replaceIf p)).MakesNoBlock := fun name p =>
    stems_replaceIf p
  have constant : ∀ name b, (Function.exactly name 0 fun _ => .ok (.boolean b)).MakesNoBlock :=
    fun name b => makesNoBlock_pure (fun _ => boolean b) name 0 (some 0)
  simp only [functions, List.forall_mem_cons, folded, negated, chosen, replaced, constant, true_and]
  exact fun _ none => absurd none List.not_mem_nil

end Logic

namespace Inspection

theorem makesNoBlock : ∀ f ∈ functions, f.MakesNoBlock := by
  have tested : ∀ name p, (test name p).MakesNoBlock := by
    refine fun name p => makesNoBlock_pure (fun args => ?_) name 1 (some 1)
    split
    · exact boolean _
    · exact .error _
  have absent : (Function.exactly "NA" 0 fun _ => refuse .notAvailable).MakesNoBlock :=
    makesNoBlock_pure (fun _ => .error _) _ 0 (some 0)
  simp only [functions, List.forall_mem_cons, tested, absent, true_and]
  exact fun _ none => absurd none List.not_mem_nil

end Inspection

namespace Dates

private theorem single_serialOf (d : Date) : (serialOf d).Gives Value.Single :=
  .ite (number _) (.error _)

private theorem single_date (args : Arguments) : (date args).Gives Value.Single := by
  refine .bind fun year => .bind fun month => .bind fun day => .bind fun full => ?_
  split
  · exact single_serialOf _
  · exact .error _

theorem makesNoBlock : ∀ f ∈ functions, f.MakesNoBlock := by
  have parted : ∀ name g, (part name g).MakesNoBlock := fun name g =>
    makesNoBlock_checked (fun _ => .bind fun _ => number _) name 1 1 .coerce
  have moved := makesNoBlock_checked (g := fun args => do serialOf (← shifted args))
    (fun _ => .bind fun _ => single_serialOf _) "EDATE" 2 2 .coerce
  have ended := makesNoBlock_checked (g := fun args => do serialOf (← shifted args).lastOfMonth)
    (fun _ => .bind fun _ => single_serialOf _) "EOMONTH" 2 2 .coerce
  have dated := makesNoBlock_checked single_date "DATE" 3 3 .coerce
  have apart := makesNoBlock_checked (g := days) (fun _ => .bind fun _ => .bind fun _ => number _)
    "DAYS" 2 2 .coerce
  have apart360 := makesNoBlock_checked (g := days360)
    (fun _ => .bind fun _ => .bind fun _ => .ite (.bind fun _ => number _) (.bind fun _ => number _))
    "DAYS360" 2 3 .coerce
  have fraction := makesNoBlock_checked (g := yearFraction)
    (fun _ => .bind fun _ => .bind fun _ => .bind fun _ => .bind fun _ => number _)
    "YEARFRAC" 2 3 .reject
  have clock : ∀ name (g : Float → Float), MakesNoBlock
      ⟨name, 0, some 0, .ofClock fun now => .ok (.number (g now))⟩ := fun name g now => number _
  simp only [functions, List.forall_mem_cons, parted, dated, apart, apart360, moved, ended, fraction,
    clock, true_and]
  exact fun _ none => absurd none List.not_mem_nil

end Dates

namespace Loans

private theorem single_paymentOf (args : Arguments) : (paymentOf args).Gives Value.Single := by
  refine .bind fun rate => .bind fun periods => .ite (.error _) ?_
  exact .bind fun present => .bind fun future => .bind fun due => number _

private theorem single_interestOf (args : Arguments) : (interestOf args).Gives Value.Single := by
  refine .bind fun rate => .bind fun period => .bind fun periods => .ite (.error _) ?_
  exact .bind fun present => .bind fun future => .bind fun due => number _

theorem makesNoBlock : ∀ f ∈ functions, f.MakesNoBlock := by
  have valued : ∀ name f, (valueOf name f).MakesNoBlock := fun name f =>
    makesNoBlock_checked (fun _ => .bind fun _ => .bind fun _ => .bind fun _ => .bind fun _ =>
      .bind fun _ => number _) name 3 5 .coerce
  have summed : ∀ name f, (cumulative name f).MakesNoBlock := by
    refine fun name f => makesNoBlock_checked (fun args => .bind fun s => ?_) name 6 6 .reject
    split
    · exact number _
    · exact .error _
  have paid := makesNoBlock_checked single_paymentOf "PMT" 3 5 .coerce
  have interest := makesNoBlock_checked single_interestOf "IPMT" 4 6 .coerce
  simp only [functions, List.forall_mem_cons, valued, summed, paid, interest, true_and]
  exact fun _ none => absurd none List.not_mem_nil

end Loans

namespace Bonds

theorem makesNoBlock : ∀ f ∈ functions, f.MakesNoBlock := by
  have bonded : ∀ name g, (ofBond name g).MakesNoBlock := by
    refine fun name g => makesNoBlock_checked (fun args => .bind fun b => ?_) name 3 4 .reject
    split
    · exact number _
    · exact .error _
  simp only [functions, List.forall_mem_cons, bonded, true_and]
  exact fun _ none => absurd none List.not_mem_nil

end Bonds

namespace Special

theorem makesNoBlock : ∀ f ∈ functions, f.MakesNoBlock := by
  have any : ∀ name g, (bessel name g).MakesNoBlock := fun name g =>
    makesNoBlock_checked (fun _ => .bind fun _ => .bind fun _ => number _) name 2 2 .reject
  have positive : ∀ name g, (besselOfPositive name g).MakesNoBlock := fun name g =>
    makesNoBlock_checked (fun _ => .bind fun _ => .ite (.error _) (.bind fun _ => number _))
      name 2 2 .reject
  have compared : ∀ name g, (comparison name g).MakesNoBlock := fun name g =>
    makesNoBlock_checked (fun _ => .bind fun _ => .bind fun _ => number _) name 1 2 .reject
  simp only [functions, List.forall_mem_cons, any, positive, compared, true_and]
  exact fun _ none => absurd none List.not_mem_nil

end Special

namespace Library

/-- A look-up in a library finds one of the functions that were put there. -/
theorem mem_of_get?_ofList {fs : List Function} {name : String} {f : Function}
    (found : (ofList fs).get? name = some f) : f ∈ fs := by
  suffices kept : ∀ lib : Library, (fs.foldl register lib).get? name = some f →
      f ∈ fs ∨ lib.get? name = some f from
    (kept empty found).resolve_right (by simp [empty, get?])
  clear found
  induction fs with
  | nil => exact fun lib found => .inr found
  | cons g rest ih =>
    intro lib found
    rcases ih (lib.register g) found with later | here
    · exact .inl (List.mem_cons_of_mem _ later)
    · simp only [get?, register, Std.ExtTreeMap.getElem?_insert] at here
      split at here
      · cases here
        exact .inl List.mem_cons_self
      · exact .inr here

private theorem get?_register (lib : Library) (f : Function) (name : String) :
    (lib.register f).get? name =
      if Text.asciiUpper f.name = Text.asciiUpper name then some f else lib.get? name := by
  simp only [get?, register, Std.ExtTreeMap.getElem?_insert, Std.LawfulEqCmp.compare_eq_iff_eq]

private theorem get?_foldl_register (lib : Library) (fs : List Function) (name : String)
    (none : ∀ f ∈ fs, Text.asciiUpper f.name ≠ Text.asciiUpper name) :
    (fs.foldl register lib).get? name = lib.get? name := by
  induction fs generalizing lib with
  | nil => rfl
  | cons f rest ih =>
    obtain ⟨first, others⟩ := List.forall_mem_cons.mp none
    rw [List.foldl_cons, ih _ others, get?_register, if_neg first]

/-- Functions of distinct names are all found under their names. -/
theorem get?_ofList {fs : List Function}
    (distinct : (fs.map fun f => Text.asciiUpper f.name).Nodup) {f : Function} (listed : f ∈ fs) :
    (ofList fs).get? f.name = some f := by
  obtain ⟨before, after, rfl⟩ := List.append_of_mem listed
  rw [List.map_append, List.map_cons, List.nodup_append] at distinct
  have later := (List.nodup_cons.mp distinct.2.1).1
  rw [ofList, List.foldl_append, List.foldl_cons, get?_foldl_register, get?_register, if_pos rfl]
  exact fun g given same => later (List.mem_map.mpr ⟨g, given, same⟩)

theorem get?_standard {f : Function} (listed : f ∈ standardFunctions) :
    standard.get? f.name = some f := by
  refine get?_ofList ?_ listed
  decide +kernel

/-- What holds of the functions of each family holds of every function that is found. -/
theorem of_families {holds : Function → Prop} (dates : ∀ f ∈ Dates.functions, holds f)
    (special : ∀ f ∈ Special.functions, holds f) (loans : ∀ f ∈ Loans.functions, holds f)
    (bonds : ∀ f ∈ Bonds.functions, holds f) (inspection : ∀ f ∈ Inspection.functions, holds f)
    (logic : ∀ f ∈ Logic.functions, holds f) (arithmetic : ∀ f ∈ Arithmetic.functions, holds f)
    (wording : ∀ f ∈ Wording.functions, holds f) {name : String} {f : Function}
    (found : standard.get? name = some f) : holds f := by
  have listed := mem_of_get?_ofList found
  simp only [standardFunctions, List.mem_append] at listed
  rcases listed with ((((((here | here) | here) | here) | here) | here) | here) | here
  · exact dates f here
  · exact special f here
  · exact loans f here
  · exact bonds f here
  · exact inspection f here
  · exact logic f here
  · exact arithmetic f here
  · exact wording f here

theorem makesNoBlock {name : String} {f : Function} (found : standard.get? name = some f) :
    f.MakesNoBlock :=
  of_families Dates.makesNoBlock Special.makesNoBlock Loans.makesNoBlock Bonds.makesNoBlock
    Inspection.makesNoBlock Logic.makesNoBlock Arithmetic.makesNoBlock Wording.makesNoBlock found

end Library

end Recalc
