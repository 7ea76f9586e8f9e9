import Recalc.Proofs.Incremental

/-!
# Formulas without a value

Whether a formula has a value at all does not depend on any cell: the fault of a tree can be told
from the tree, the functions and the defined names (`errorOf?_cellValue`). A pass shows the fault
to readers as long as it lasts and stores nothing for it, so what a reader finds depends on whether
the pass computes the faulty cell as well (`found_of_fault`).
-/
namespace Recalc

/-! ### Where evaluation ends -/

/-- The error of an outcome, if it is one. -/
def errorOf? {ε α : Type} : Except ε α → Option ε
  | .error e => some e
  | .ok _ => none

theorem errorOf?_eq_some_iff {ε α : Type} {outcome : Except ε α} {e : ε} :
    errorOf? outcome = some e ↔ outcome = .error e := by
  cases outcome <;> simp [errorOf?]

/-- Whether a computation ends in a given fault, or, without one, in a result of some kind, however
many samples have been drawn before. -/
structure Evaluation.Ends {α : Type} (run : Evaluation α) (fault : Option Fault) (kind : α → Prop) :
    Prop where
  fault : ∀ drawn, errorOf? (run drawn) = fault
  result : ∀ drawn result after, run drawn = .ok (result, after) → kind result

namespace Evaluation.Ends

variable {α β : Type} {run : Evaluation α} {kind : α → Prop} {other : β → Prop}
  {first second : Option Fault}

theorem pure {result : α} (holds : kind result) : Ends (Pure.pure result) none kind where
  fault _ := rfl
  result := by
    rintro drawn _ _ ⟨⟩
    exact holds

theorem throw (fault : Fault) : Ends (throw fault : Evaluation α) (some fault) kind where
  fault _ := rfl
  result := nofun

theorem lift (outcome : Except Fault α) :
    Ends (outcome : Evaluation α) (errorOf? outcome) fun _ => True where
  fault _ := by cases outcome <;> rfl
  result _ _ _ _ := trivial

theorem modifyGet (f : Nat → α × Nat) : Ends (modifyGet f : Evaluation α) none fun _ => True where
  fault _ := rfl
  result _ _ _ _ := trivial

/-- The first fault is the fault of the whole. -/
theorem bind {next : α → Evaluation β} (ends : Ends run first kind)
    (later : ∀ result, kind result → Ends (next result) second other) :
    Ends (run >>= next) (first.or second) other := by
  have joined : ∀ drawn, (run >>= next) drawn =
      (run drawn).bind fun (result, after) => next result after := fun _ => rfl
  constructor
  · intro drawn
    rw [joined, ← ends.fault drawn]
    cases done : run drawn with
    | error fault => rfl
    | ok outcome => exact (later outcome.1 (ends.result drawn _ _ done)).fault outcome.2
  · intro drawn result after both
    rw [joined] at both
    cases done : run drawn with
    | error fault =>
      rw [done] at both
      cases both
    | ok outcome =>
      rw [done] at both
      exact (later outcome.1 (ends.result drawn _ _ done)).result outcome.2 result after both

/-- What follows without a fault of its own adds none. -/
theorem bind_faultless {next : α → Evaluation β} (ends : Ends run first kind)
    (later : ∀ result, kind result → Ends (next result) none other) :
    Ends (run >>= next) first other := by
  simpa only [Option.or_none] using ends.bind later

end Evaluation.Ends

/-! ### Faults of trees -/

namespace Block

variable {α β : Type}

theorem firstRagged_congr {rows : List (List α)} {others : List (List β)}
    (same : rows.map List.length = others.map List.length) (cols i : Nat) :
    firstRagged cols i rows = firstRagged cols i others := by
  induction rows generalizing others i with
  | nil =>
    cases others with
    | nil => rfl
    | cons other rest => cases same
  | cons row rest ih =>
    cases others with
    | nil => cases same
    | cons other more =>
      obtain ⟨length, lengths⟩ := List.cons.inj same
      rw [firstRagged, firstRagged, length, ih lengths]

/-- Whether rows make a block is a matter of their lengths. -/
theorem errorOf?_ofRows_congr {rows : List (List α)} {others : List (List β)}
    (same : rows.map List.length = others.map List.length) :
    errorOf? (ofRows rows) = errorOf? (ofRows others) := by
  have width : (rows.headD []).length = (others.headD []).length := by
    have heads := congrArg (List.headD · 0) same
    cases rows <;> cases others <;> simp_all
  simp only [ofRows, width, firstRagged_congr same]
  split
  · rfl
  · split <;> rfl

end Block

namespace Reference

/-- The fault of a reference to cells. -/
def directFault? : Reference → Option Fault
  | .range _ rectangle => (errorOf? rectangle.check).map .invalidRange
  | _ => none

/-- The fault of a reference, which is that of what it stands for. -/
def fault? (ref : Reference) (book : Workbook) (home : Address) : Option Fault :=
  (ref.expand book home.unit).findSome? directFault?

end Reference

namespace Formula

mutual

/-- The first fault of a tree in the order of evaluation, if it has one. -/
def fault? (book : Workbook) (lib : Library) (home : Address) : Formula → Option Fault
  | literal _ => none
  | reference r => r.fault? book home
  | unary _ x => x.fault? book lib home
  | binary _ l r => (l.fault? book lib home).or (r.fault? book lib home)
  | call name args =>
    match lib.get? name with
    | none => some (.unknownFunction (Text.asciiUpper name))
    | some _ => faultOfList? book lib home args
  | array rows =>
    (faultOfRows? book lib home rows).or ((errorOf? (Block.ofRows rows)).map .malformedArray)

def faultOfList? (book : Workbook) (lib : Library) (home : Address) : List Formula → Option Fault
  | [] => none
  | x :: rest => (x.fault? book lib home).or (faultOfList? book lib home rest)

def faultOfRows? (book : Workbook) (lib : Library) (home : Address) :
    List (List Formula) → Option Fault
  | [] => none
  | row :: rest => (faultOfList? book lib home row).or (faultOfRows? book lib home rest)

end

end Formula

section Faults

open Evaluation

variable {book : Workbook} {value : Address → Value} {lib : Library} {now : Float} {seed : UInt64}
  {home : Address}

private theorem Reference.errorOf?_direct? {ref : Reference} {outcome : Except Fault Value}
    (direct : ref.direct? (book.viewWith value lib now seed) home = some outcome) :
    errorOf? outcome = ref.directFault? := by
  cases ref with
  | name n => cases direct
  | cell place row col =>
    cases direct
    rfl
  | range place rectangle =>
    cases direct
    simp only [directFault?]
    cases rectangle.check with
    | error e => rfl
    | ok r => rfl

theorem Reference.errorOf?_evaluate (ref : Reference) :
    errorOf? (ref.evaluate (book.viewWith value lib now seed) home) = ref.fault? book home := by
  cases ref with
  | cell place row col => rfl
  | range place rectangle =>
    -- a range that is written out stands for itself
    have itself : fault? (.range place rectangle) book home = directFault? (.range place rectangle) := by
      simp [fault?, expand]
    exact (errorOf?_direct? rfl).trans itself.symm
  | name n =>
    simp only [evaluate, Workbook.viewWith, fault?, expand]
    cases book.definedName? home.unit n with
    | none => rfl
    | some target =>
      have itself : [target].findSome? directFault? = target.directFault? := by simp
      refine Eq.trans ?_ itself.symm
      -- what stands for another name is an error value, which is no fault
      cases target with
      | name m => rfl
      | cell place row col => rfl
      | range place rectangle => exact errorOf?_direct? rfl

namespace Formula

mutual

/-- A tree ends in its fault, whatever is in the cells that it reads. -/
private theorem evaluate_ends : ∀ x : Formula,
    Ends (x.evaluate (book.viewWith value lib now seed) home) (x.fault? book lib home) fun _ => True
  | literal _ => Ends.pure trivial
  | reference r => by
    have same : errorOf? (r.evaluate (book.viewWith value lib now seed) home) = r.fault? book home :=
      r.errorOf?_evaluate
    simp only [fault?, evaluate, ← same]
    exact Ends.lift _
  | unary op x => by
    simp only [fault?, evaluate]
    exact (evaluate_ends x).bind_faultless fun v _ => Ends.pure trivial
  | binary op l r => by
    simp only [fault?, evaluate]
    refine (evaluate_ends l).bind fun a _ => ?_
    exact (evaluate_ends r).bind_faultless fun b _ => Ends.pure trivial
  | call name args => by
    -- an unknown function is a fault before any fault of its arguments
    have functions : (book.viewWith value lib now seed).function? = lib.get? := rfl
    simp only [fault?, evaluate, functions]
    cases lib.get? name with
    | none => exact Ends.throw _
    | some f => exact (evaluateList_ends args).bind_faultless fun values _ => Ends.modifyGet _
  | array rows => by
    simp only [fault?, evaluate]
    refine (evaluateRows_ends rows).bind fun values lengths => ?_
    -- the values stand in rows of the lengths that are written in the tree
    have error : errorOf? (arrayOfRows values) =
        (errorOf? (Block.ofRows rows)).map .malformedArray := by
      rw [← Block.errorOf?_ofRows_congr lengths, arrayOfRows]
      cases Block.ofRows values <;> rfl
    exact error ▸ Ends.lift _

private theorem evaluateList_ends : ∀ l : List Formula,
    Ends (evaluateList (book.viewWith value lib now seed) home l) (faultOfList? book lib home l)
      fun values => values.length = l.length
  | [] => Ends.pure rfl
  | x :: rest => by
    simp only [faultOfList?, evaluateList]
    refine (evaluate_ends x).bind fun v _ => ?_
    refine (evaluateList_ends rest).bind_faultless fun vs length => Ends.pure ?_
    simp [length]

private theorem evaluateRows_ends : ∀ rows : List (List Formula),
    Ends (evaluateRows (book.viewWith value lib now seed) home rows) (faultOfRows? book lib home rows)
      fun values => values.map List.length = rows.map List.length
  | [] => Ends.pure rfl
  | row :: rest => by
    simp only [faultOfRows?, evaluateRows]
    refine (evaluateList_ends row).bind fun vs length => ?_
    refine (evaluateRows_ends rest).bind_faultless fun others lengths => Ends.pure ?_
    simp [length, lengths]

end

/-- The fault of the value of a formula is that of its tree: no cell value has a part in it. -/
theorem errorOf?_cellValue (x : Formula) :
    errorOf? (x.cellValue (book.viewWith value lib now seed) home) = x.fault? book lib home := by
  have ends : Ends (x.evaluate (book.viewWith value lib now seed) home) (x.fault? book lib home) _ :=
    evaluate_ends x
  rw [← ends.fault 0]
  show errorOf? (((x.evaluate (book.viewWith value lib now seed) home 0).map Prod.fst).map
    Value.toResult) = _
  cases x.evaluate (book.viewWith value lib now seed) home 0 with
  | error fault => rfl
  | ok outcome => rfl

end Formula

end Faults

/-! ### Faults in passes -/

namespace Engine

variable {e : Engine} {book : Workbook} {q : Request} {a c : Address} {f : CellFormula}
  {fault : Fault}

/-- What the step of a pass with some number finds in a cell: what the steps before it have left
there, or what is stored. -/
def found (e : Engine) (book : Workbook) (q : Request) (k : Nat) : Address → Value :=
  (e.context book q).value ((e.context book q).performAll ((e.steps book q).take k)).overlay

theorem exists_sweeps (plain : q.options.iterative = false) (e : Engine) (book : Workbook) :
    ∃ vertices, e.Sweeps book q vertices := by
  cases forced : q.forced with
  | true => exact ⟨_, sweeps_of_forced forced plain e book⟩
  | false => exact ⟨_, sweeps_of_unforced forced plain e book⟩

/-- A cell that is read is as it will be at the end of the pass: nothing that is evaluated together
with its reader or later changes it. -/
theorem found_of_reads (plain : q.options.iterative = false) {k : Nat} {vs : List Nat}
    (step : (e.steps book q)[k]? = some (.cells vs)) (evaluated : a ∈ (e.plan book q).1.addresses vs)
    (reads : book.Reads a c) :
    e.found book q k c = (Assignment.after book (e.trace book q)).seen c := by
  obtain ⟨vertices, sweeps⟩ := exists_sweeps plain e book
  obtain ⟨bounded, here⟩ := List.getElem?_eq_some_iff.mp step
  have split : e.steps book q =
      (e.steps book q).take k ++ .cells vs :: (e.steps book q).drop (k + 1) := by
    rw [← here, List.cons_getElem_drop_succ, List.take_append_drop]
  have ready := sweeps.ready
  rw [split] at ready
  -- what is evaluated from this step on does not include the cell
  have unchanged : ∀ overlay, (PassContext.record overlay ((e.context book q).trace overlay
      (.cells vs :: (e.steps book q).drop (k + 1))))[c]? = overlay[c]? := by
    intro overlay
    apply PassContext.record_of_notMem
    rw [PassContext.addresses_trace]
    intro remaining
    obtain ⟨w, later, y, target, rfl⟩ := DependencyGraph.mem_addresses.mp remaining
    obtain ⟨v, inside, x, source, rfl⟩ := DependencyGraph.mem_addresses.mp evaluated
    have edge := (DependencyGraph.mem_next_iff source target).mpr reads
    exact ready.of_append_right.1 v inside w edge later
  rw [← e.seen_after book q, trace, found, (e.carries_take book q k).overlay]
  conv_rhs => rw [split, PassContext.trace_append, PassContext.record_append]
  simp only [PassContext.value, unchanged]

/-- A formula whose tree has a fault and that is on no cycle ends in this fault, if it is computed. -/
theorem mem_trace_of_fault (plain : q.options.iterative = false) (formula : book.formula? c = some f)
    (faulty : f.tree.fault? book e.library c = some fault) (acyclic : ¬book.OnCycle c)
    (computed : c ∈ (e.trace book q).map Prod.fst) : (c, .error fault) ∈ e.trace book q := by
  obtain ⟨vertices, sweeps⟩ := exists_sweeps plain e book
  have equation := (sweeps.after_holdsAt formula computed).formula acyclic
  have failed : errorOf? (Assignment.after book (e.trace book q) c) = some fault := by
    rw [equation, Formula.errorOf?_cellValue, faulty]
  obtain ⟨⟨_, outcome⟩, member, rfl⟩ := List.mem_map.mp computed
  rw [Assignment.after_of_mem (e.nodup_trace book q) member, errorOf?_eq_some_iff] at failed
  exact failed ▸ member

/-- No pass delivers a value for such a formula, so what is stored for it stays. -/
theorem value_applyResults_of_fault (plain : q.options.iterative = false)
    (formula : book.formula? c = some f) (faulty : f.tree.fault? book e.library c = some fault)
    (acyclic : ¬book.OnCycle c) (answers : List Checkpoint) :
    (book.applyResults (e.runPass book q answers).results).value c = book.value c := by
  apply Workbook.value_applyResults_of_notMem
  intro listed
  obtain ⟨⟨_, v⟩, member, rfl⟩ := List.mem_map.mp listed
  obtain ⟨k, -, results, -⟩ := e.runPass_performs book q answers
  rw [results, (e.carries_take book q k).mem_cells] at member
  have computed := (PassContext.trace_prefix ∅ _ k).mem member
  have failed := mem_trace_of_fault plain formula faulty acyclic (List.mem_map_of_mem computed)
  cases PassContext.outcome_unique (e.nodup_trace book q) computed failed

/-- What a formula finds in a cell whose own formula has a fault, in any pass without iteration. If
the pass computes that cell too, it is the marker of the fault, or the circular reference if the cell
is on a cycle; a forced pass does. Otherwise it is the stored value, which no pass replaces. -/
theorem found_of_fault (plain : q.options.iterative = false) {k : Nat} {vs : List Nat}
    (step : (e.steps book q)[k]? = some (.cells vs)) (evaluated : a ∈ (e.plan book q).1.addresses vs)
    (reads : book.Reads a c) (formula : book.formula? c = some f)
    (faulty : f.tree.fault? book e.library c = some fault) :
    let computed := (e.trace book q).map Prod.fst
    (¬book.OnCycle c →
        e.found book q k c = (if c ∈ computed then fault.marker else book.value c) ∧
          ∀ answers, (book.applyResults (e.runPass book q answers).results).value c = book.value c) ∧
      (book.OnCycle c →
        e.found book q k c = if c ∈ computed then PassContext.circular else book.value c) ∧
      (q.forced = true → c ∈ computed) := by
  intro computed
  have nodup := e.nodup_trace book q
  rw [found_of_reads plain step evaluated reads, Assignment.seen]
  refine ⟨fun acyclic => ⟨?_, ?_⟩, fun cycle => ?_, fun forced => ?_⟩
  · split
    next scheduled =>
      rw [Assignment.after_of_mem nodup (mem_trace_of_fault plain formula faulty acyclic scheduled)]
      rfl
    next absent =>
      rw [Assignment.after_of_notMem absent]
      rfl
  · exact value_applyResults_of_fault plain formula faulty acyclic
  · split
    next scheduled =>
      obtain ⟨vertices, sweeps⟩ := exists_sweeps plain e book
      rw [(sweeps.after_holdsAt formula scheduled).circular cycle]
      rfl
    next absent =>
      rw [Assignment.after_of_notMem absent]
      rfl
  · exact (computed_of_forced forced e book c).mpr (Workbook.mem_formulaCells.mpr ⟨f, formula⟩)

/-- A forced pass shows the fault of an inverted range to its reader; a pass that computes the reader
alone finds the blank that is stored. -/
theorem inverted_range_is_found :
    let e : Engine := ⟨⟨false, 1, 256, 100, true, 0, 0⟩, .empty⟩
    let faulty : Address := ⟨"u", "s", 0, 0⟩
    let reader : Address := ⟨"u", "s", 0, 1⟩
    let inverted : Formula := .reference (.range ⟨none, none⟩ ⟨5, 5, 4, 4⟩)
    let book := (Workbook.empty.setFormula faulty ⟨inverted, []⟩).setFormula reader
      ⟨.reference (.cell ⟨none, none⟩ 0 0), []⟩
    let q := Request.empty.withRegion (.ofAddress reader)
    ∃ fault, inverted.fault? book .empty faulty = some fault ∧
      e.found book .full 1 faulty = fault.marker ∧ e.found book q 0 faulty = .blank := by
  intro e faulty reader inverted book q
  have formula : book.formula? faulty = some ⟨inverted, []⟩ := by
    refine (SortedMap.getElem?_insert _ reader faulty _).trans ((if_neg (by decide)).trans ?_)
    exact Std.ExtTreeMap.getElem?_insert_self
  have other : book.formula? reader = some ⟨.reference (.cell ⟨none, none⟩ 0 0), []⟩ :=
    Std.ExtTreeMap.getElem?_insert_self
  have reads : book.Reads reader faulty :=
    ⟨_, other, .ofAddress faulty, CellFormula.mem_regions.mpr
      ⟨.cell ⟨none, none⟩ 0 0, by simp [Formula.references, Formula.subtrees], _,
        List.mem_singleton_self _, rfl⟩, by decide⟩
  have regions : (CellFormula.precedents ⟨inverted, []⟩ book faulty).regions = [] := by
    decide +kernel
  have acyclic : ¬book.OnCycle faulty := by
    intro cycle
    obtain ⟨_, ⟨_, same, r, listed, _⟩, _⟩ := Relation.TransGen.head'_iff.mp cycle
    rw [formula] at same
    cases same
    rw [regions] at listed
    cases listed
  refine ⟨_, rfl, ?_, ?_⟩
  · have step : (e.steps book .full)[1]? = some (.cells [1]) := by decide +kernel
    have evaluated : reader ∈ (e.plan book .full).1.addresses [1] := by decide +kernel
    obtain ⟨plain, -, forced⟩ := found_of_fault rfl step evaluated reads formula rfl
    exact (plain acyclic).1.trans (if_pos (forced rfl))
  · have step : (e.steps book q)[0]? = some (.cells [1]) := by decide +kernel
    have evaluated : reader ∈ (e.plan book q).1.addresses [1] := by decide +kernel
    obtain ⟨plain, -, -⟩ := found_of_fault rfl step evaluated reads formula rfl
    exact (plain acyclic).1.trans (if_neg (by decide +kernel))

/-- After a forced pass has been written back and another input of the reader edited, an incremental
pass gives the reader another value than a forced one. -/
theorem reader_of_fault_is_stale :
    let e : Engine := ⟨⟨false, 1, 256, 100, true, 0, 0⟩, .empty⟩
    let faulty : Address := ⟨"u", "s", 0, 0⟩
    let input : Address := ⟨"u", "s", 0, 1⟩
    let reader : Address := ⟨"u", "s", 1, 0⟩
    let inverted : Formula := .reference (.range ⟨none, none⟩ ⟨5, 5, 4, 4⟩)
    let book := (Workbook.empty.setFormula faulty ⟨inverted, []⟩).setFormula reader
      ⟨.reference (.range ⟨none, none⟩ ⟨0, 0, 0, 1⟩), []⟩
    let edited := (book.applyResults (e.runPass book .full []).results).setValue input (.text "y")
    let q := Request.empty.withRegion (.ofAddress input)
    (e.runPass edited q []).results.value? reader ≠
      (e.runPass edited .full []).results.value? reader := by
  intro e faulty input reader inverted book edited q same
  -- the reader holds the block of both cells, the first of which is the faulty one
  let stale : Value := .array ⟨1, 2, #[.blank, .text "y"]⟩
  have incremental : ((e.runPass edited q []).results.value? reader).any stale.same = true := by
    decide +kernel
  have forced : ((e.runPass edited .full []).results.value? reader).any stale.same = false := by
    decide +kernel
  rw [same, forced] at incremental
  cases incremental

end Engine

end Recalc
