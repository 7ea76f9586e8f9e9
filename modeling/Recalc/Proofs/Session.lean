import Recalc.Proofs.Edits
import Recalc.Proofs.Interruption
import Recalc.Proofs.Solution

/-!
# Sessions

A host edits a workbook, lets passes run over it, and writes back the results that they deliver,
each of these at any time. A result is written back whole, so one that was delivered while a cell
still held a formula replaces a constant that has been typed there since. What a cell reads after it
was made a constant is the last of the constants and of those results (`value_of_constant`); results
that were delivered later never speak of it.

A pass is a single action here: it reads one state of the workbook and delivers at once. A pass that
runs beside edits counts as taken where it begins, which fixes the state that it reads, so for it
"delivered before" means "begun before".
-/
namespace Recalc

/-! ### Writing results back -/

namespace Workbook

variable {b : Workbook}

theorem formula?_applyResults (r : Results) (a : Address) :
    (b.applyResults r).formula? a = b.formula? a :=
  foldl_kept (fun b : Workbook => b.formula? a) (fun b x listed => by rfl) b

/-- A cell reads what a result has for it, and otherwise what it read before. -/
theorem value_applyResults_eq {r : Results} (once : (r.cells.map Prod.fst).Nodup) (a : Address) :
    (b.applyResults r).value a = (r.value? a).getD (b.value a) := by
  cases found : r.value? a with
  | some v => exact value_applyResults_of_mem once ((Results.value?_eq_some_iff once).mp found)
  | none =>
    refine value_applyResults_of_notMem fun listed => ?_
    obtain ⟨⟨_, v⟩, member, rfl⟩ := List.mem_map.mp listed
    rw [(Results.value?_eq_some_iff once).mpr member] at found
    cases found

theorem formula?_setValue (b : Workbook) (a : Address) (v : Value) :
    (b.setValue a v).formula? a = none :=
  Std.ExtTreeMap.getElem?_erase_self

/-- A blank is not stored, but reads as one. -/
theorem value_setValue (b : Workbook) (a : Address) (v : Value) : (b.setValue a v).value a = v := by
  show ((if v.isBlank then b.values.erase a else b.values.insert a v)[a]?).getD .blank = v
  split
  next blank =>
    rw [Std.ExtTreeMap.getElem?_erase_self]
    cases v <;> first | rfl | cases blank
  next => rw [Std.ExtTreeMap.getElem?_insert_self, Option.getD_some]

end Workbook

/-! ### What passes deliver -/

namespace Engine

variable {e : Engine} {book : Workbook} {q : Request} {answers : List Checkpoint}

/-- The results of every pass, interrupted or not, list a cell once. -/
theorem nodup_cells_runPass (e : Engine) (book : Workbook) (q : Request) (answers : List Checkpoint) :
    ((e.runPass book q answers).results.cells.map Prod.fst).Nodup := by
  obtain ⟨k, -, results, -⟩ := e.runPass_performs book q answers
  have carried := (e.carries_take book q k).nodup_carried (e.nodup_trace_take book q k)
  rw [results]
  exact carried.of_append_left

/-- The results of every pass speak only of cells that held a formula when it ran. -/
theorem value?_runPass_of_constant {a : Address} (constant : book.formula? a = none) :
    (e.runPass book q answers).results.value? a = none := by
  refine Option.eq_none_iff_forall_ne_some.mpr fun v found => ?_
  have listed := (Results.value?_eq_some_iff (e.nodup_cells_runPass book q answers)).mp found
  obtain ⟨k, -, results, -⟩ := e.runPass_performs book q answers
  rw [results, (e.carries_take book q k).mem_cells] at listed
  have computed := (PassContext.trace_prefix ∅ _ k).mem listed
  obtain ⟨f, formula⟩ := exists_formula (q := q) (e := e) (List.mem_map_of_mem computed)
  rw [constant] at formula
  cases formula

end Engine

/-! ### Sessions -/

/-- A workbook in use, and the results that passes over it have delivered, of which any may be
written back at any later time. -/
structure Session where
  book : Workbook
  delivered : List Results

namespace Session

/-- What can happen in a session: an edit, a pass of some engine over the workbook as it is then, and
writing back the results that were delivered under a number. -/
inductive Action where
  | edit (edit : Edit)
  | calculate (e : Engine) (q : Request) (answers : List Checkpoint)
  | apply (k : Nat)

def opened (book : Workbook) : Session :=
  ⟨book, []⟩

/-- What an action leaves behind. A pass reads the workbook as the actions before it have left it, and
has delivered before the next action: between its beginning and its end nothing happens. -/
def act (s : Session) : Action → Session
  | .edit edit => { s with book := edit.apply s.book }
  | .calculate e q answers =>
    { s with delivered := s.delivered ++ [(e.runPass s.book q answers).results] }
  | .apply k => { s with book := (s.delivered[k]?).elim s.book s.book.applyResults }

def actAll (s : Session) (actions : List Action) : Session :=
  actions.foldl act s

/-- What an action writes to a cell, if it types a constant there or writes back a given result that
has a value for the cell. -/
def Action.written? (given : List Results) (c : Address) : Action → Option Value
  | .edit (.setValue a v) => if a = c then some v else none
  | .apply k => (given[k]?).bind fun r => r.value? c
  | _ => none

variable {s : Session} {c : Address} {given : List Results}

theorem nodup_act (once : ∀ r ∈ s.delivered, (r.cells.map Prod.fst).Nodup) (action : Action) :
    ∀ r ∈ (s.act action).delivered, (r.cells.map Prod.fst).Nodup := by
  intro r listed
  cases action with
  | edit edit => exact once r listed
  | apply k => exact once r listed
  | calculate e q answers =>
    rcases List.mem_append.mp listed with earlier | last
    · exact once r earlier
    · rw [List.mem_singleton.mp last]
      exact e.nodup_cells_runPass s.book q answers

/-- All results of a session list a cell once. -/
theorem nodup_delivered (book : Workbook) (actions : List Action) :
    ∀ r ∈ ((opened book).actAll actions).delivered, (r.cells.map Prod.fst).Nodup := by
  suffices kept : ∀ s : Session, (∀ r ∈ s.delivered, (r.cells.map Prod.fst).Nodup) →
      ∀ r ∈ (s.actAll actions).delivered, (r.cells.map Prod.fst).Nodup from kept (opened book) nofun
  induction actions with
  | nil => exact fun _ once => once
  | cons action rest ih => exact fun s once => ih (s.act action) (nodup_act once action)

/-- A cell has been a constant since some results had been delivered: it holds no formula, and what
has been delivered since does not speak of it. -/
structure ConstantSince (given : List Results) (c : Address) (s : Session) : Prop where
  constant : s.book.formula? c = none
  delivered : ∃ later, s.delivered = given ++ later ∧ ∀ r ∈ later, r.value? c = none
  once : ∀ r ∈ s.delivered, (r.cells.map Prod.fst).Nodup

namespace ConstantSince

/-- An edit that is no formula for the cell leaves a constant there. -/
private theorem constant_edit (since : s.ConstantSince given c) {edit : Edit}
    (noFormula : ∀ f, edit ≠ .setFormula c f) :
    (edit.apply s.book).formula? c = none ∧
      (edit.apply s.book).value c = ((Action.edit edit).written? given c).getD (s.book.value c) := by
  by_cases here : edit.cell? = some c
  · cases edit with
    | setValue a v =>
      cases here
      refine ⟨s.book.formula?_setValue c v, (s.book.value_setValue c v).trans ?_⟩
      simp [Action.written?]
    | setFormula a f =>
      cases here
      exact absurd rfl (noFormula f)
    | defineName unit name target => cases here
    | renameSheet unit sheet name => cases here
  · obtain ⟨formula, value⟩ := Edit.contents_apply (b := s.book) here
    refine ⟨formula.trans since.constant, value.trans ?_⟩
    cases edit with
    | setValue a v => simp [Action.written?, show a ≠ c from fun same => here (congrArg some same)]
    | setFormula a f => rfl
    | defineName unit name target => rfl
    | renameSheet unit sheet name => rfl

/-- What is written back to the cell stems from the results delivered before it was a constant. -/
private theorem value?_delivered (since : s.ConstantSince given c) (k : Nat) :
    ((s.delivered[k]?).bind fun r => r.value? c) = (given[k]?).bind fun r => r.value? c := by
  obtain ⟨later, split, silent⟩ := since.delivered
  rw [split, List.getElem?_append]
  split
  · rfl
  next beyond =>
    rw [List.getElem?_eq_none (Nat.le_of_not_lt beyond), Option.bind_none]
    refine Option.bind_eq_none_iff.mpr fun r found => ?_
    exact silent r (List.mem_of_getElem? found)

/-- One action keeps the cell a constant, and the cell reads what the action writes to it. -/
theorem act (since : s.ConstantSince given c) {action : Action}
    (noFormula : ∀ f, action ≠ .edit (.setFormula c f)) :
    (s.act action).ConstantSince given c ∧
      (s.act action).book.value c = (action.written? given c).getD (s.book.value c) := by
  cases action with
  | edit edit =>
    have other : ∀ f, edit ≠ .setFormula c f := fun f same =>
      noFormula f (congrArg Action.edit same)
    obtain ⟨constant, value⟩ := since.constant_edit other
    exact ⟨⟨constant, since.delivered, since.once⟩, value⟩
  | calculate e q answers =>
    obtain ⟨later, split, silent⟩ := since.delivered
    refine ⟨⟨since.constant, ⟨later ++ [(e.runPass s.book q answers).results], ?_, ?_⟩,
      nodup_act since.once _⟩, rfl⟩
    · rw [← List.append_assoc, ← split]
      rfl
    -- a pass computes formulas only, so its results do not speak of the cell
    · intro r listed
      rcases List.mem_append.mp listed with earlier | last
      · exact silent r earlier
      · rw [List.mem_singleton.mp last]
        exact Engine.value?_runPass_of_constant since.constant
  | apply k =>
    -- only a result that was delivered before the cell was a constant can have a value for it
    have written := since.value?_delivered k
    simp only [Session.act, Action.written?, ← written]
    cases found : s.delivered[k]? with
    | none => exact ⟨since, rfl⟩
    | some r =>
      have once := since.once r (List.mem_of_getElem? found)
      exact ⟨⟨(Workbook.formula?_applyResults r c).trans since.constant, since.delivered, since.once⟩,
        Workbook.value_applyResults_eq once c⟩

theorem actAll (since : s.ConstantSince given c) {actions : List Action}
    (noFormula : ∀ f, .edit (.setFormula c f) ∉ actions) :
    (s.actAll actions).ConstantSince given c ∧
      (s.actAll actions).book.value c =
        ((actions.filterMap (Action.written? given c)).getLast?).getD (s.book.value c) := by
  induction actions generalizing s with
  | nil => exact ⟨since, rfl⟩
  | cons action rest ih =>
    have first : ∀ f, action ≠ .edit (.setFormula c f) := fun f same =>
      noFormula f (same ▸ List.mem_cons_self)
    obtain ⟨next, value⟩ := since.act first
    obtain ⟨after, read⟩ := ih next fun f later => noFormula f (List.mem_cons_of_mem _ later)
    refine ⟨after, read.trans ?_⟩
    -- a later write wins over what this action wrote
    cases written : action.written? given c with
    | none => rw [List.filterMap_cons_none written, value, written, Option.getD_none]
    | some v =>
      rw [List.filterMap_cons_some written, List.getLast?_cons, value, written, Option.getD_some,
        Option.getD_some]

end ConstantSince

/-- A cell that is made a constant and given no formula after that reads the last of the constants
typed there and of the results written back since, of which only those count that had been delivered
before, by passes that had begun before. Nothing that is delivered later, by a pass that reads the
cell as a constant, speaks of it. -/
theorem value_of_constant (book : Workbook) (before later : List Action) (c : Address) (v : Value)
    (noFormula : ∀ f, .edit (.setFormula c f) ∉ later) :
    let s := (opened book).actAll before
    let t := s.actAll (.edit (.setValue c v) :: later)
    t.book.value c = ((later.filterMap (Action.written? s.delivered c)).getLast?).getD v ∧
      t.book.formula? c = none ∧
      ∀ r ∈ t.delivered.drop s.delivered.length, r.value? c = none := by
  intro s t
  have typed : (s.act (.edit (.setValue c v))).ConstantSince s.delivered c := by
    refine ⟨s.book.formula?_setValue c v, ⟨[], (List.append_nil _).symm, nofun⟩, ?_⟩
    exact nodup_delivered book before
  obtain ⟨since, value⟩ := typed.actAll noFormula
  refine ⟨value.trans ?_, since.constant, ?_⟩
  · exact congrArg _ (s.book.value_setValue c v)
  · obtain ⟨rest, split, silent⟩ := since.delivered
    rw [show t.delivered = s.delivered ++ rest from split, List.drop_left]
    exact silent

/-- A result that is delivered after a constant was typed leaves it alone. -/
theorem fresh_result_keeps_constant :
    let e : Engine := ⟨⟨false, 1, 256, 100, true, 0, 0⟩, .standard⟩
    let here : Address := ⟨"u", "s", 0, 0⟩
    let book := Workbook.empty.setFormula here ⟨.literal (.boolean true), []⟩
    let early := (opened book).actAll [.calculate e .full []]
    (early.actAll [.edit (.setValue here (.text "typed")), .calculate e .full [],
      .apply 1]).book.value here = .text "typed" := by
  intro e here book early
  have noFormula : ∀ f, Action.edit (.setFormula here f) ∉ [.calculate e .full [], .apply 1] := by
    simp
  obtain ⟨value, -, -⟩ :=
    value_of_constant book [.calculate e .full []] _ here (.text "typed") noFormula
  -- one result had been delivered before, and it is not the one that is written back
  refine value.trans ?_
  simp [actAll, act, opened, Action.written?]

/-- A result that was delivered before a constant was typed replaces it, although the cell holds no
formula any more and no pass will compute it again. -/
theorem stale_result_replaces_constant :
    let e : Engine := ⟨⟨false, 1, 256, 100, true, 0, 0⟩, .standard⟩
    let here : Address := ⟨"u", "s", 0, 0⟩
    let book := Workbook.empty.setFormula here ⟨.literal (.boolean true), []⟩
    let after := (opened book).actAll [.calculate e .full [], .edit (.setValue here (.text "typed")),
      .apply 0]
    after.book.formula? here = none ∧ after.book.value here ≠ .text "typed" := by
  intro e here book after
  have read : (after.book.value here).isText = false := by decide +kernel
  constructor
  · have typed := book.formula?_setValue here (.text "typed")
    exact (Workbook.formula?_applyResults _ here).trans typed
  · intro typed
    rw [typed] at read
    cases read

end Session

end Recalc
