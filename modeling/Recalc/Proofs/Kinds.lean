import Recalc.Proofs.Bare
import Recalc.Proofs.Reading
import Recalc.Proofs.Returns

/-!
# Kinds of values

A kind says which values are of it, and of which elements a block of it consists. Whatever the kind,
operators and functions keep to it, so a formula computes a value of a kind if its literals and the
cells that it reads are of it, and those in a range that it reads are elements of it
(`ValueKind.holds_of_formula`).
-/
namespace Recalc

namespace Value

/-! ### Single values and blocks -/

theorem single_or_array (v : Value) : v.Single ∨ ∃ b, v = array b := by
  cases v with
  | array b => exact .inr ⟨b, rfl⟩
  | _ => exact .inl rfl

theorem Single.unwrapSingle_eq {v : Value} (single : v.Single) : v.unwrapSingle = v := by
  cases v with
  | array b => cases single
  | _ => rfl

theorem Single.toResult_eq {v : Value} (single : v.Single) : v.toResult = v.finiteOrNum := by
  cases v with
  | array b => cases single
  | _ => rfl

theorem Single.mapElements_eq {v : Value} (single : v.Single) (f : Value → Value) :
    v.mapElements f = f v := by
  cases v with
  | array b => cases single
  | _ => rfl

/-! ### What operators make -/

/-- Whether a value is single, and finite if it is a number. -/
def Settled : Value → Prop
  | number x => x.isFinite = true
  | array _ => False
  | _ => True

theorem Settled.single {v : Value} (settled : v.Settled) : v.Single := by
  cases v with
  | array b => exact settled.elim
  | _ => rfl

theorem settled_of_isError {v : Value} (isError : v.isError = true) : v.Settled := by
  cases v with
  | error e => trivial
  | _ => cases isError

/-- A single value is settled once numbers that are not finite have been replaced. -/
theorem Single.settled_finiteOrNum {v : Value} (single : v.Single) : v.finiteOrNum.Settled := by
  cases v with
  | number x =>
    by_cases finite : x.isFinite = true
    · simp [finiteOrNum, finite, Settled]
    · simp [finiteOrNum, finite, Settled, ofKind]
  | array b => cases single
  | _ => trivial

end Value

theorem settled_requireFinite (x : Float) :
    Outcome.Gives (do return .number (← requireFinite x)) Value.Settled := by
  unfold requireFinite
  split
  next finite => exact .ok finite
  next => exact .error _

theorem Outcome.Gives.toValue {outcome : Outcome Value} (gives : outcome.Gives Value.Settled) :
    outcome.toValue.Settled := by
  cases outcome with
  | error e => trivial
  | ok v => exact gives v rfl

namespace UnaryOp

theorem settled_numeric (f : Float → Float) (v : Value) : (numeric f v).Settled :=
  Outcome.Gives.toValue (.bind fun _ => settled_requireFinite _)

end UnaryOp

namespace BinaryOp

private theorem settled_arithmetic (f : Float → Float → Outcome Float) (a b : Value) :
    (arithmetic f a b).Gives Value.Settled :=
  .bind fun _ => .bind fun _ => .bind fun _ => settled_requireFinite _

private theorem settled_applyProper (op : BinaryOp) (a b : Value) :
    (op.applyProper a b).Gives Value.Settled := by
  cases op with
  | add | sub | mul | div | pow => exact settled_arithmetic _ a b
  | concat => exact .bind fun _ => .bind fun _ => .ok trivial
  | eq | ne | lt | le | gt | ge => exact .ok trivial

/-- Applied to two scalars, an operator makes a single value, whatever it is applied to. -/
theorem settled_apply (op : BinaryOp) (a b : Value) : (op.apply a b).Settled := by
  unfold apply
  split
  · trivial
  · trivial
  · exact (settled_applyProper op _ _).toValue

theorem settled_applyUnlessError (op : BinaryOp) (a b : Value) :
    (Value.applyUnlessError op.apply a b).Settled := by
  unfold Value.applyUnlessError
  split
  next left => exact Value.settled_of_isError left
  next =>
    split
    next right => exact Value.settled_of_isError right
    next => exact settled_apply op a b

end BinaryOp

/-! ### Blocks -/

namespace Block

variable {α : Type}

theorem exists_of_mem_ofFn {rows cols : Nat} {f : Nat → Nat → α} {x : α}
    (listed : x ∈ (ofFn rows cols f).toList) : ∃ row < rows, ∃ col < cols, x = f row col := by
  simp only [ofFn, toList, Array.toList_ofFn, List.mem_ofFn] at listed
  obtain ⟨k, rfl⟩ := listed
  have wide : 0 < cols := Nat.pos_of_mul_pos_left (Nat.zero_lt_of_lt k.isLt)
  exact ⟨_, (Nat.div_lt_iff_lt_mul wide).mpr k.isLt, _, Nat.mod_lt k.val wide, rfl⟩

theorem mem_of_only? {b : Block α} {x : α} (only : b.only? = some x) : x ∈ b.toList := by
  unfold only? at only
  split at only
  · exact Array.mem_toList_iff.mpr (Array.mem_of_getElem? only)
  · cases only

theorem mem_of_ofRows {rows : List (List α)} {b : Block α} (made : ofRows rows = .ok b) {x : α}
    (listed : x ∈ b.toList) : ∃ row ∈ rows, x ∈ row := by
  unfold ofRows at made
  simp only at made
  split at made
  · cases made
  · split at made
    · cases made
    · cases made
      exact List.mem_flatten.mp listed

end Block

/-! ### Kinds -/

/-- A kind of values, given by its values and by the elements of its blocks. It admits all settled
values, and every element of a block is a value of the kind again. -/
structure ValueKind where
  holds : Value → Prop
  element : Value → Prop
  array_iff : ∀ b, holds (.array b) ↔ ∀ v ∈ b.toList, element v
  single_iff : ∀ v, v.Single → (holds v ↔ element v)
  holds_of_element : ∀ v, element v → holds v
  element_of_settled : ∀ v, v.Settled → element v

namespace ValueKind

variable {k : ValueKind} {v : Value}

theorem holds_of_settled (settled : v.Settled) : k.holds v :=
  k.holds_of_element v (k.element_of_settled v settled)

theorem holds_array_map {f : Value → Value} {b : Block Value}
    (one : ∀ x, k.element x → k.element (f x)) (holds : k.holds (.array b)) :
    k.holds (.array (b.map f)) := by
  refine (k.array_iff _).mpr fun x listed => ?_
  rw [Block.toList_map] at listed
  obtain ⟨y, inside, rfl⟩ := List.mem_map.mp listed
  exact one y ((k.array_iff b).mp holds y inside)

/-! ### Computed values -/

theorem holds_unwrapSingle (holds : k.holds v) : k.holds v.unwrapSingle := by
  rcases v.single_or_array with single | ⟨b, rfl⟩
  · rwa [single.unwrapSingle_eq]
  · show k.holds (b.only?.getD (.array b))
    cases only : b.only? with
    | none => exact holds
    | some x => exact k.holds_of_element x ((k.array_iff b).mp holds x (Block.mem_of_only? only))

private theorem element_finiteOrNum (element : k.element v) : k.element v.finiteOrNum := by
  cases v with
  | number x => exact k.element_of_settled _ (Value.Single.settled_finiteOrNum rfl)
  | _ => exact element

theorem holds_toResult_of_single (single : v.Single) : k.holds v.toResult := by
  rw [single.toResult_eq]
  exact holds_of_settled single.settled_finiteOrNum

theorem holds_toResult (holds : k.holds v) : k.holds v.toResult := by
  have inner := holds_unwrapSingle holds
  -- only one level of a block is unwrapped, so the element may be a block itself
  unfold Value.toResult
  split
  next b shown =>
    rw [shown] at inner
    exact holds_array_map (fun _ => element_finiteOrNum) inner
  next scalar =>
    rcases v.unwrapSingle.single_or_array with single | ⟨b, block⟩
    · exact holds_of_settled single.settled_finiteOrNum
    · exact absurd block (scalar b)

/-- What a cell takes from its formula is of the kind if what the formula is evaluated to is. -/
theorem holds_map_toResult {outcome : Except Fault Value} (holds : ∀ w, outcome = .ok w → k.holds w)
    (delivered : outcome.map Value.toResult = .ok v) : k.holds v := by
  cases outcome with
  | error fault => cases delivered
  | ok w =>
    cases delivered
    exact holds_toResult (holds w rfl)

/-! ### Operators and functions -/

theorem holds_mapElements (op : UnaryOp) (holds : k.holds v) : k.holds (v.mapElements op.apply) := by
  have one : ∀ x, k.element x → k.element (op.apply x) := by
    intro x element
    cases op with
    | plus => exact element
    | minus => exact k.element_of_settled _ (UnaryOp.settled_numeric _ x)
    | percent => exact k.element_of_settled _ (UnaryOp.settled_numeric _ x)
  rcases v.single_or_array with single | ⟨b, rfl⟩
  · rw [single.mapElements_eq]
    exact k.holds_of_element _ (one v ((k.single_iff v single).mp holds))
  · exact holds_array_map one holds

theorem holds_broadcast (k : ValueKind) (op : BinaryOp) (l r : Value) :
    k.holds (Value.broadcast op.apply l r) := by
  rw [Value.broadcast_eq]
  split
  -- the operator makes every element anew, so nothing is asked of the operands
  · refine (k.array_iff _).mpr fun x listed => ?_
    obtain ⟨row, -, col, -, rfl⟩ := Block.exists_of_mem_ofFn listed
    exact k.element_of_settled _ (op.settled_applyUnlessError _ _)
  · exact holds_of_settled (op.settled_apply l r)

/-- A function hands on nothing but arguments, and makes single values otherwise. -/
theorem holds_call {f : Function} (makes : f.MakesNoBlock) {args : List Value}
    (held : ∀ v ∈ args, k.holds v) (ambient : Ambient) (drawn : Nat) :
    k.holds (f.call ambient drawn args).1 := by
  rw [Function.call_fst]
  split
  · cases computed : f.compute ambient drawn args with
    | error e => exact holds_of_settled trivial
    | ok v =>
      show k.holds v.toResult
      rcases makes.stems ambient drawn args v computed with single | ⟨x, given, rfl | rfl⟩
      · exact holds_toResult_of_single single
      · exact holds_toResult (held _ given)
      · exact holds_toResult (holds_unwrapSingle (held x given))
  · exact holds_of_settled trivial

/-! ### Array literals -/

theorem element_arrayElement (holds : k.holds v) : k.element (Formula.arrayElement v) := by
  have inner := holds_unwrapSingle holds
  unfold Formula.arrayElement
  split
  next => exact k.element_of_settled _ trivial
  next scalar =>
    rcases v.unwrapSingle.single_or_array with single | ⟨b, block⟩
    · exact (k.single_iff _ single).mp inner
    · exact absurd block (scalar b)

theorem holds_arrayOfRows {rows : List (List Value)} (elements : ∀ row ∈ rows, ∀ v ∈ row, k.element v)
    (made : Formula.arrayOfRows rows = .ok v) : k.holds v := by
  unfold Formula.arrayOfRows at made
  split at made
  next b block =>
    cases made
    refine (k.array_iff b).mpr fun x listed => ?_
    obtain ⟨row, given, inside⟩ := Block.mem_of_ofRows block listed
    exact elements row given x inside
  next => cases made

end ValueKind

/-! ### Trees -/

/-- Whether a computation, unless it ends in a fault, gives results of some kind. -/
def Evaluation.Gives {α : Type} (run : Evaluation α) (kind : α → Prop) : Prop :=
  ∀ drawn result after, run drawn = .ok (result, after) → kind result

namespace Evaluation.Gives

variable {α β : Type} {kind : α → Prop} {other : β → Prop}

theorem pure {result : α} (holds : kind result) : Gives (Pure.pure result) kind := by
  rintro drawn _ _ ⟨⟩
  exact holds

theorem throw (fault : Fault) : Gives (throw fault) kind :=
  nofun

theorem lift {outcome : Except Fault α} (gives : ∀ result, outcome = .ok result → kind result) :
    Gives (outcome : Evaluation α) kind := by
  rintro drawn result after done
  cases outcome with
  | error fault => cases done
  | ok a =>
    cases done
    exact gives _ rfl

theorem modifyGet {f : Nat → α × Nat} (gives : ∀ drawn, kind (f drawn).1) :
    Gives (modifyGet f) kind := by
  intro drawn result after done
  obtain same : f drawn = (result, after) := Except.ok.inj done
  simpa [same] using gives drawn

theorem bind {run : Evaluation α} {next : α → Evaluation β} (first : Gives run kind)
    (later : ∀ a, kind a → Gives (next a) other) : Gives (run >>= next) other := by
  intro drawn result after done
  have joined : (run >>= next) drawn =
      (run drawn).bind fun (result, after) => next result after := rfl
  rw [joined] at done
  cases ran : run drawn with
  | error fault => simp [ran, Except.bind] at done
  | ok outcome =>
    rw [ran] at done
    exact later outcome.1 (first _ _ _ ran) _ _ _ done

end Evaluation.Gives

namespace ValueKind

/-- Whether a leaf of a tree gives values of a kind. Nothing is asked of other trees. -/
def Leaf (k : ValueKind) (view : View) (home : Address) : Formula → Prop
  | .literal v => k.holds v
  | .reference r => ∀ v, r.evaluate view home = .ok v → k.holds v
  | _ => True

section Trees

open Evaluation Formula

variable {k : ValueKind} {view : View} {home : Address}

mutual

private theorem holds_evaluate
    (functions : ∀ name f, view.function? name = some f → f.MakesNoBlock) :
    ∀ x : Formula, (∀ y ∈ x.subtrees, k.Leaf view home y) → Gives (x.evaluate view home) k.holds
  | literal v, leaves => Gives.pure (leaves (literal v) (by simp [subtrees]))
  | reference r, leaves => Gives.lift (leaves (reference r) (by simp [subtrees]))
  | unary op x, leaves => by
    have operand := holds_evaluate functions x fun y member => leaves y (by simp [subtrees, member])
    rw [evaluate]
    exact operand.bind fun v holds => .pure (holds_mapElements op holds)
  | binary op l r, leaves => by
    have left := holds_evaluate functions l fun y member => leaves y (by simp [subtrees, member])
    have right := holds_evaluate functions r fun y member => leaves y (by simp [subtrees, member])
    rw [evaluate]
    exact left.bind fun a _ => right.bind fun b _ => .pure (k.holds_broadcast op a b)
  | call name args, leaves => by
    have values := holds_evaluateList functions args fun y member =>
      leaves y (by simp [subtrees, member])
    rw [evaluate]
    cases found : view.function? name with
    | none => exact .throw _
    | some f =>
      -- an argument may be handed on, so it has to be of the kind itself
      refine values.bind fun vs held => .modifyGet fun drawn => ?_
      exact holds_call (functions name f found) held _ drawn
  | array rows, leaves => by
    have values := holds_evaluateRows functions rows fun y member =>
      leaves y (by simp [subtrees, member])
    rw [evaluate]
    exact values.bind fun vs elements => .lift fun v made => holds_arrayOfRows elements made

private theorem holds_evaluateList
    (functions : ∀ name f, view.function? name = some f → f.MakesNoBlock) :
    ∀ l : List Formula, (∀ y ∈ subtreesOfList l, k.Leaf view home y) →
      Gives (evaluateList view home l) fun vs => ∀ v ∈ vs, k.holds v
  | [], _ => Gives.pure (by simp)
  | x :: rest, leaves => by
    have first := holds_evaluate functions x fun y member =>
      leaves y (by simp [subtreesOfList, member])
    have others := holds_evaluateList functions rest fun y member =>
      leaves y (by simp [subtreesOfList, member])
    rw [evaluateList]
    exact first.bind fun v holds => others.bind fun vs held =>
      .pure (List.forall_mem_cons.mpr ⟨holds, held⟩)

private theorem holds_evaluateRows
    (functions : ∀ name f, view.function? name = some f → f.MakesNoBlock) :
    ∀ rows : List (List Formula), (∀ y ∈ subtreesOfRows rows, k.Leaf view home y) →
      Gives (evaluateRows view home rows) fun vss => ∀ vs ∈ vss, ∀ v ∈ vs, k.element v
  | [], _ => Gives.pure (by simp)
  | row :: rest, leaves => by
    have first := holds_evaluateList functions row fun y member =>
      leaves y (by simp [subtreesOfRows, member])
    have others := holds_evaluateRows functions rest fun y member =>
      leaves y (by simp [subtreesOfRows, member])
    rw [evaluateRows]
    refine first.bind fun vs held => others.bind fun vss elements => .pure ?_
    refine List.forall_mem_cons.mpr ⟨fun v listed => ?_, elements⟩
    -- only here, where a value becomes an element of a block, its own blocks are refused
    obtain ⟨w, inside, rfl⟩ := List.mem_map.mp listed
    exact element_arrayElement (held w inside)

end

/-- The value of a tree is of a kind if its literals and what its references give are. -/
theorem holds_value (functions : ∀ name f, view.function? name = some f → f.MakesNoBlock)
    {x : Formula} (leaves : ∀ y ∈ x.subtrees, k.Leaf view home y) {v : Value}
    (computed : x.value view home = .ok v) : k.holds v := by
  have gives := holds_evaluate functions x leaves 0
  simp only [Formula.value, StateT.run'] at computed
  cases ran : x.evaluate view home 0 with
  | error fault =>
    rw [ran] at computed
    cases computed
  | ok outcome =>
    rw [ran] at computed
    cases computed
    exact gives _ _ ran

end Trees

end ValueKind

/-! ### Formulas of cells -/

namespace Region

theorem exists_of_mem_values {g : Region} {value : Address → Value} {v : Value}
    (listed : v ∈ (g.values value).toList) : ∃ a, g.contains a = true ∧ v = value a := by
  obtain ⟨row, low, col, left, rfl⟩ := Block.exists_of_mem_ofFn listed
  refine ⟨_, ?_, rfl⟩
  simp only [Rectangle.height, Rectangle.width] at low left
  simp [contains, Rectangle.contains]
  omega

end Region

namespace Reference

/-- Whether a reference is written as a range, so that its values are read as a block. -/
def isRange : Reference → Bool
  | range .. => true
  | _ => false

/-- The regions that a reference reads as blocks, be it by a name. -/
def ranges (ref : Reference) (book : Workbook) (home : Address) : List Region :=
  ((ref.expand book home.unit).filter isRange).filterMap fun t => t.region? book home

end Reference

/-- The regions that a formula reads as blocks. -/
def CellFormula.ranges (f : CellFormula) (book : Workbook) (home : Address) : List Region :=
  f.tree.references.flatMap fun ref => ref.ranges book home

namespace ValueKind

variable {k : ValueKind} {book : Workbook} {value : Address → Value} {lib : Library} {now : Float}
  {seed : UInt64} {home : Address} {v : Value}

private theorem holds_direct? {ref : Reference} (cells : ∀ a, k.holds (value a))
    (ranges : ref.isRange = true → ∀ r, ref.region? book home = some r →
      ∀ a, r.contains a = true → k.element (value a))
    (direct : ref.direct? (book.viewWith value lib now seed) home = some (.ok v)) : k.holds v := by
  cases ref with
  | name n => cases direct
  | cell place row col =>
    simp only [Reference.direct?] at direct
    cases found : place.locate (book.viewWith value lib now seed) home with
    | error e =>
      simp only [found] at direct
      cases direct
      exact holds_of_settled trivial
    | ok location =>
      simp only [found] at direct
      cases direct
      exact cells _
  | range place rectangle =>
    by_cases ordered : rectangle.Ordered
    · simp only [Reference.direct?, Rectangle.check, if_pos ordered] at direct
      cases found : place.locate (book.viewWith value lib now seed) home with
      | error e =>
        simp only [found] at direct
        cases direct
        exact holds_of_settled trivial
      | ok location =>
        simp only [found] at direct
        cases direct
        have target : Reference.target? (.range place rectangle) = some (place, rectangle) :=
          if_pos ordered
        have region := Reference.region?_of_locate target found
        refine (k.array_iff _).mpr fun x listed => ?_
        obtain ⟨a, inside, rfl⟩ := Region.exists_of_mem_values listed
        exact ranges rfl _ region a inside
    · simp only [Reference.direct?, Rectangle.check, if_neg ordered] at direct
      cases direct

/-- A reference to one cell gives what is there, a range a block of it, and a name what it stands
for. -/
theorem holds_of_reference {ref : Reference} (cells : ∀ a, k.holds (value a))
    (ranges : ∀ r ∈ ref.ranges book home, ∀ a, r.contains a = true → k.element (value a))
    (computed : ref.evaluate (book.viewWith value lib now seed) home = .ok v) : k.holds v := by
  have direct : ∀ t ∈ ref.expand book home.unit, ∀ w,
      t.direct? (book.viewWith value lib now seed) home = some (.ok w) → k.holds w := by
    intro t stands w
    refine holds_direct? cells fun isRange r region => ranges r ?_
    exact List.mem_filterMap.mpr ⟨t, List.mem_filter.mpr ⟨stands, isRange⟩, region⟩
  cases ref with
  | cell place row col =>
    exact direct _ (List.mem_singleton_self _) v (congrArg some computed)
  | range place rectangle =>
    exact direct _ (List.mem_singleton_self _) v (congrArg some computed)
  | name n =>
    have unknown : k.holds (Value.complain (.unknownName n)) := holds_of_settled trivial
    have resolved : ((book.definedName? home.unit n).bind fun t =>
        t.direct? (book.viewWith value lib now seed) home).getD
          (.ok (Value.complain (.unknownName n))) = .ok v := computed
    cases known : book.definedName? home.unit n with
    | none =>
      rw [known] at resolved
      cases resolved
      exact unknown
    | some t =>
      rw [known, Option.bind_some] at resolved
      cases given : t.direct? (book.viewWith value lib now seed) home with
      | none =>
        rw [given] at resolved
        cases resolved
        exact unknown
      | some outcome =>
        rw [given, Option.getD_some] at resolved
        exact direct t (by simp [Reference.expand, known]) v (given.trans (congrArg some resolved))

variable {f : CellFormula}

/-- The value of a formula is of a kind if its literals and all cells are, and what it reads as a
block consists of elements of the kind. -/
theorem holds_of_formula (functions : ∀ name g, lib.get? name = some g → g.MakesNoBlock)
    (literals : ∀ w, .literal w ∈ f.tree.subtrees → k.holds w) (cells : ∀ a, k.holds (value a))
    (ranges : ∀ r ∈ f.ranges book home, ∀ a, r.contains a = true → k.element (value a))
    (computed : f.tree.value (book.viewWith value lib now seed) home = .ok v) : k.holds v := by
  refine holds_value functions (fun y member => ?_) computed
  cases y with
  | literal w => exact literals w member
  | reference ref =>
    intro w given
    refine holds_of_reference cells (fun r inside => ranges r ?_) given
    exact List.mem_flatMap.mpr ⟨ref, Formula.mem_references.mpr member, inside⟩
  | _ => trivial

theorem holds_of_cellValue (functions : ∀ name g, lib.get? name = some g → g.MakesNoBlock)
    (literals : ∀ w, .literal w ∈ f.tree.subtrees → k.holds w) (cells : ∀ a, k.holds (value a))
    (ranges : ∀ r ∈ f.ranges book home, ∀ a, r.contains a = true → k.element (value a))
    (computed : f.tree.cellValue (book.viewWith value lib now seed) home = .ok v) : k.holds v := by
  exact holds_map_toResult (fun w => holds_of_formula functions literals cells ranges) computed

end ValueKind

end Recalc
