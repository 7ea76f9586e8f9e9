import Recalc.Proofs.Affected
import Recalc.Proofs.Edits
import Recalc.Proofs.ForcedPass

/-!
# Incremental passes

A pass that is told what changed recomputes the affected formulas only. Every other formula reads
what it read before and finds the values that it found before (`steady_of_notComputed`), so what is
stored there already solves the equations of the changed workbook, and an incremental pass leaves
behind what a full one would (`incremental_eq_full`).
-/
namespace Recalc

namespace Engine

variable {e : Engine} {book : Workbook} {q : Request} {answers : List Checkpoint} {s : Assignment}

/-! ### Settled workbooks -/

/-- What a forced pass delivers. -/
def fullResults (e : Engine) (book : Workbook) : Results :=
  (e.runPass book .full []).results

/-- Whether every formula cell stores what a forced pass delivers for it, without a fault. -/
def Settled (e : Engine) (book : Workbook) : Prop :=
  (e.fullResults book).faults = [] ∧
    ∀ a ∈ book.formulaCells, (e.fullResults book).value? a = some (book.value a)

/-- The stored values of all cells. -/
def stored (book : Workbook) : Assignment := fun a => .ok (book.value a)

theorem nodup_of_delivers {r : Results} (delivers : r.Delivers book s) :
    (r.cells.map Prod.fst).Nodup :=
  (delivers.once.nodup_iff.mpr book.nodup_formulaCells).of_append_left

theorem value?_of_delivers {r : Results} (delivers : r.Delivers book s) {a : Address} {v : Value} :
    r.value? a = some v ↔ a ∈ book.formulaCells ∧ s a = .ok v :=
  (Results.value?_eq_some_iff (nodup_of_delivers delivers)).trans (delivers.cells a v)

theorem fullResults_delivers (solves : e.Solves book s) : (e.fullResults book).Delivers book s :=
  delivers_of_forced rfl rfl (e.uninterrupted_nil book .full) solves

/-- In a settled workbook the stored values solve the equations. -/
theorem Settled.solves (settled : e.Settled book) : e.Solves book (stored book) := by
  have solves := solves_of_forced (q := .full) rfl rfl e book
  have same : Assignment.after book (e.trace book .full) = stored book := by
    funext a
    cases formula : book.formula? a with
    | none => exact solves.stored a formula
    | some f =>
      have found := settled.2 a (Workbook.mem_formulaCells.mpr ⟨f, formula⟩)
      exact ((value?_of_delivers (fullResults_delivers solves)).mp found).2
  rwa [same] at solves

/-- Writing back what a forced pass without a fault delivers settles a workbook. -/
theorem settled_applyResults (healthy : (e.fullResults book).faults = []) :
    e.Settled (book.applyResults (e.fullResults book)) := by
  have delivers := fullResults_delivers (solves_of_forced (q := .full) rfl rfl e book)
  have same := applyResults_sameFormulas delivers
  -- a forced pass does not look at what was written, so it delivers the same once more
  have again : e.fullResults (book.applyResults (e.fullResults book)) = e.fullResults book :=
    congrArg PassOutcome.results (runPass_of_sameFormulas rfl rfl same
      (fun _ => value_applyResults_of_constant delivers) [])
  rw [Settled, again]
  refine ⟨healthy, fun a formula => ?_⟩
  have listed : a ∈ book.formulaCells := by rwa [Workbook.formulaCells, same.formulas] at formula
  have value := ok_of_healthy delivers healthy listed
  rw [value?_of_delivers delivers, Workbook.value_applyResults_of_mem (nodup_of_delivers delivers)
    ((delivers.cells a _).mpr ⟨listed, value⟩)]
  exact ⟨listed, value⟩

/-! ### Formulas that a pass leaves alone -/

section Steady

variable {edits : List Edit} {a : Address} {f : CellFormula}

/-- A formula that a pass after some edits does not compute, and that is right as it is: it is the
same as before, and so are the cells that it reads, none of which the pass computes either. -/
structure Steady (e : Engine) (before : Workbook) (edits : List Edit) (q : Request) (a : Address)
    (f : CellFormula) : Prop where
  formula : before.formula? a = some f
  value : (Edit.applyAll before edits).value a = before.value a
  places : f.SamePlaces (Edit.applyAll before edits) before a
  reads : ∀ c, (Edit.applyAll before edits).Reads a c →
    c ∉ (e.trace (Edit.applyAll before edits) q).map Prod.fst ∧
      (Edit.applyAll before edits).formula? c = before.formula? c ∧
      (Edit.applyAll before edits).value c = before.value c

/-- A formula that an unforced pass does not compute is touched by no mark and reads nothing that
the pass computes. -/
theorem untouched_of_notComputed (unforced : q.forced = false) (plain : q.options.iterative = false)
    (formula : book.formula? a = some f) (absent : a ∉ (e.trace book q).map Prod.fst) :
    ¬q.Touches (DependencyGraph.vertexAt book e.library a f) ∧
      ∀ c, book.Reads a c → c ∉ (e.trace book q).map Prod.fst := by
  have sweeps := sweeps_of_unforced unforced plain e book
  obtain ⟨v, found⟩ := DependencyGraph.exists_vertexAt e.library formula
  have outside : v ∉ (e.plan book q).1.dependencies.known
      ((q.marks e.config.recalcVolatile).affected (e.plan book q).1) := fun inside => by
    rw [trace, PassContext.addresses_trace] at absent
    have listed := sweeps.mem_computed.mpr inside
    exact absent (DependencyGraph.mem_addresses.mpr ⟨v, listed, _, found, rfl⟩)
  -- a touched formula is a seed, and a reader of what is computed is computed
  constructor
  · intro touched
    refine outside (Digraph.mem_known.mpr ⟨DirtyMarks.mem_affected_of_touches found ?_, ?_⟩)
    · exact (q.touches_marks _ _).mpr (.inl touched)
    · exact (DependencyGraph.size_dependencies _).symm ▸ DependencyGraph.lt_size found
  · intro c reads computed
    rw [trace, PassContext.addresses_trace] at computed
    obtain ⟨w, listed, y, target, rfl⟩ := DependencyGraph.mem_addresses.mp computed
    refine outside (sweeps.closed v w (sweeps.mem_computed.mp listed) ?_)
    exact (DependencyGraph.mem_next_iff found target).mpr reads

/-- What an announced pass does not compute is steady. -/
theorem steady_of_notComputed (onSheets : ∀ edit ∈ edits, edit.OnSheet book)
    (distinct : book.DistinctNames) (announces : q.Announces edits (Edit.applyAll book edits))
    (unforced : q.forced = false) (plain : q.options.iterative = false)
    (formula : (Edit.applyAll book edits).formula? a = some f)
    (absent : a ∉ (e.trace (Edit.applyAll book edits) q).map Prod.fst) :
    e.Steady book edits q a f := by
  obtain ⟨untouched, reads⟩ := untouched_of_notComputed unforced plain formula absent
  -- an edit of the cell itself would have been announced and touch it
  have itself : ∀ edit ∈ edits, edit.cell? ≠ some a := fun edit listed changed =>
    untouched (.region (announces.cells edit listed a changed)
      (.inl (Region.contains_ofAddress.mpr rfl)))
  have same := Edit.contents_applyAll (b := book) itself
  refine ⟨same.1.symm.trans formula, same.2,
    samePlaces_of_untouched onSheets distinct announces untouched, fun c read => ⟨reads c read, ?_⟩⟩
  -- an edit of a cell that it reads would touch it too
  refine Edit.contents_applyAll fun edit listed changed => untouched ?_
  obtain ⟨g, also, r, region, inside⟩ := read
  rw [formula] at also
  cases also
  refine .region (announces.cells edit listed c changed) (.inr (List.any_eq_true.mpr ⟨r, region, ?_⟩))
  rwa [Region.intersects_ofAddress]

/-- A steady formula reads the same cells as before. -/
theorem Steady.reads_iff (steady : e.Steady book edits q a f)
    (formula : (Edit.applyAll book edits).formula? a = some f) (c : Address) :
    (Edit.applyAll book edits).Reads a c ↔ book.Reads a c := by
  simp only [Workbook.Reads, formula, steady.formula, Option.some.injEq, exists_eq_left',
    steady.places.mem_regions_iff]

/-- Paths of one relation are paths of another if they never leave a set on which the first is part
of the second. -/
private theorem path_within {R S : Address → Address → Prop} {inside : Address → Prop}
    (same : ∀ a, inside a → ∀ c, R a c → S a c)
    (stays : ∀ a c d, inside a → R a c → R c d → inside c) {a c : Address} (start : inside a)
    (path : Relation.TransGen R a c) : Relation.TransGen S a c := by
  induction path using Relation.TransGen.head_induction_on with
  | single edge => exact .single (same _ start _ edge)
  | head edge rest ih =>
    obtain ⟨d, next, _⟩ := Relation.TransGen.head'_iff.mp rest
    exact .head (same _ start _ edge) (ih (stays _ _ d start edge next))

/-- A steady formula lies on a cycle exactly if it did before, since the cycle consists of steady
formulas. -/
theorem onCycle_iff_of_steady
    (steady : ∀ a f, (Edit.applyAll book edits).formula? a = some f →
      a ∉ (e.trace (Edit.applyAll book edits) q).map Prod.fst → e.Steady book edits q a f)
    (formula : (Edit.applyAll book edits).formula? a = some f)
    (absent : a ∉ (e.trace (Edit.applyAll book edits) q).map Prod.fst) :
    (Edit.applyAll book edits).OnCycle a ↔ book.OnCycle a := by
  -- a path that starts among the formulas left alone stays among them, in both workbooks
  let inside (a : Address) : Prop := (∃ f, (Edit.applyAll book edits).formula? a = some f) ∧
    a ∉ (e.trace (Edit.applyAll book edits) q).map Prod.fst
  have same : ∀ a, inside a → ∀ c, (Edit.applyAll book edits).Reads a c ↔ book.Reads a c :=
    fun a ⟨⟨f, formula⟩, absent⟩ => (steady a f formula absent).reads_iff formula
  have start : inside a := ⟨⟨f, formula⟩, absent⟩
  constructor
  · refine path_within (fun a here c => (same a here c).mp) (fun a c d here read next => ?_) start
    obtain ⟨⟨f, formula⟩, absent⟩ := here
    obtain ⟨g, also, _⟩ := next
    exact ⟨⟨g, also⟩, ((steady a f formula absent).reads c read).1⟩
  · refine path_within (fun a here c => (same a here c).mpr) (fun a c d here read next => ?_) start
    have after := (same a here c).mpr read
    obtain ⟨⟨f, formula⟩, absent⟩ := here
    obtain ⟨g, also, _⟩ := next
    obtain ⟨outside, unchanged, _⟩ := (steady a f formula absent).reads c after
    exact ⟨⟨g, unchanged.trans also⟩, outside⟩

/-- The outcomes of an announced pass and the stored values of all other formulas solve the equations
of the changed workbook. -/
theorem solves_after_edits (settled : e.Settled book) (onSheets : ∀ edit ∈ edits, edit.OnSheet book)
    (distinct : book.DistinctNames) (announces : q.Announces edits (Edit.applyAll book edits))
    (unforced : q.forced = false) (plain : q.options.iterative = false) :
    e.Solves (Edit.applyAll book edits)
      (.after (Edit.applyAll book edits) (e.trace (Edit.applyAll book edits) q)) where
  stored a none := by
    refine Assignment.after_of_notMem fun computed => ?_
    obtain ⟨f, formula⟩ := exists_formula computed
    rw [none] at formula
    cases formula
  formulas a f formula := by
    by_cases computed : a ∈ (e.trace (Edit.applyAll book edits) q).map Prod.fst
    · exact (sweeps_of_unforced unforced plain e _).after_holdsAt formula computed
    · have steady : ∀ a f, (Edit.applyAll book edits).formula? a = some f →
          a ∉ (e.trace (Edit.applyAll book edits) q).map Prod.fst → e.Steady book edits q a f :=
        fun a f => steady_of_notComputed onSheets distinct announces unforced plain
      have here := steady a f formula computed
      -- nothing that the formula depends on has changed, so its old equation is its new one
      have before := settled.solves.formulas a f here.formula
      have cycles := onCycle_iff_of_steady steady formula computed
      have value : Assignment.after (Edit.applyAll book edits) _ a = .ok (book.value a) :=
        here.value ▸ Assignment.after_of_notMem computed
      refine ⟨fun cycle => value.trans (before.circular (cycles.mp cycle)), fun acyclic => ?_⟩
      refine value.trans ((before.formula (mt cycles.mpr acyclic)).trans ?_)
      refine (CellFormula.cellValue_congr here.places fun r listed c inside => ?_).symm
      obtain ⟨outside, _, same⟩ := here.reads c ⟨f, formula, r, listed, inside⟩
      rw [Assignment.seen, Assignment.after_of_notMem outside, same]
      rfl

end Steady

/-- After edits of a settled workbook, an incremental pass that is told of them leaves in every
formula cell what a forced pass would deliver. -/
theorem incremental_eq_full {edits : List Edit} (settled : e.Settled book)
    (onSheets : ∀ edit ∈ edits, edit.OnSheet book) (distinct : book.DistinctNames)
    (healthy : (e.fullResults (Edit.applyAll book edits)).faults = [])
    (announces : q.Announces edits (Edit.applyAll book edits)) (unforced : q.forced = false)
    (plain : q.options.iterative = false)
    (whole : e.Uninterrupted (Edit.applyAll book edits) q answers) :
    let after := Edit.applyAll book edits
    let updated := after.applyResults (e.runPass after q answers).results
    ∀ a ∈ after.formulaCells, (e.fullResults after).value? a = some (updated.value a) := by
  intro after updated a formula
  have solves := solves_after_edits settled onSheets distinct announces unforced plain
  have full := fullResults_delivers solves
  obtain ⟨state, carries, results⟩ := carries_of_uninterrupted whole
  have nodup := e.nodup_trace after q
  -- a fault of the incremental pass would be a fault of the full one
  have harmless : state.results.faults = [] := by
    rw [carries.faults, List.eq_nil_iff_forall_not_mem]
    intro fault listed
    obtain ⟨why, member, _⟩ := PassContext.mem_filterMap_fault?.mp listed
    have computed := List.mem_map_of_mem (f := Prod.fst) member
    have value := ok_of_healthy full healthy (Workbook.mem_formulaCells.mpr (exists_formula computed))
    rw [Assignment.after_of_mem nodup member] at value
    cases value
  rw [value?_of_delivers full]
  refine ⟨formula, (ok_of_healthy full healthy formula).trans (congrArg Except.ok ?_)⟩
  rw [show updated = after.applyResults state.results from congrArg after.applyResults results]
  exact (value_applyResults carries harmless a).symm

/-! ### A ledger -/

/-- Two amounts, one of them computed, their sum, and the sum over a defined name. -/
def ledger : Workbook :=
  Edit.applyAll (Workbook.empty.addSheet "u" "s" "Sheet") [
    .setValue ⟨"u", "s", 0, 0⟩ (.number 1),
    .setFormula ⟨"u", "s", 0, 1⟩
      ⟨.binary .add (.reference (.cell ⟨none, none⟩ 0 0)) (.literal (.number 1)), []⟩,
    .setValue ⟨"u", "s", 1, 1⟩ (.number 5),
    .setFormula ⟨"u", "s", 2, 1⟩
      ⟨.call "SUM" [.reference (.range ⟨none, none⟩ ⟨0, 1, 1, 1⟩)], []⟩,
    .setFormula ⟨"u", "s", 3, 1⟩ ⟨.call "SUM" [.reference (.name "total")], []⟩,
    .defineName "u" "total" (.cell ⟨none, none⟩ 2 1)]

/-- Another amount, more cells under the name, a new name of the sheet, and a formula that reads a
cell by it. -/
def bookings : List Edit := [
  .setValue ⟨"u", "s", 1, 1⟩ (.number 10),
  .defineName "u" "total" (.range ⟨none, none⟩ ⟨0, 1, 2, 1⟩),
  .setFormula ⟨"u", "s", 4, 1⟩
    ⟨.unary .minus (.reference (.cell ⟨none, some (.displayName "Ledger")⟩ 3 1)), []⟩,
  .renameSheet "u" "s" "Ledger"]

/-- A pass that is told of the bookings leaves the computed amount alone, which they do not touch,
computes the sums anew, and leaves in all formula cells what a forced pass would deliver. -/
theorem ledger_after_bookings :
    let e : Engine := ⟨⟨true, 4, 256, 100, true, 0, 0⟩, .ofList Arithmetic.functions⟩
    let settled := ledger.applyResults (e.fullResults ledger)
    let after := Edit.applyAll settled bookings
    let results := (e.runPass after (Edit.announceAll .empty bookings) [.go, .go, .go]).results
    e.Settled settled ∧ (results.value? ⟨"u", "s", 0, 1⟩).isNone = true ∧
      (results.value? ⟨"u", "s", 3, 1⟩).any (Value.same (.number 24)) = true ∧
      ∀ a ∈ after.formulaCells,
        (e.fullResults after).value? a = some ((after.applyResults results).value a) := by
  intro e settled after results
  have healthy : (e.fullResults ledger).faults.isEmpty = true := by decide +kernel
  have healthy' : (e.fullResults after).faults.isEmpty = true := by decide +kernel
  have settles : e.Settled settled := settled_applyResults (List.isEmpty_iff.mp healthy)
  have only : settled.sheets.keys = [⟨"u", "s"⟩] := by decide +kernel
  have sheet : ∀ key, key ∈ settled.sheets ↔ key = ⟨"u", "s"⟩ := by
    intro key
    rw [← Std.ExtTreeMap.mem_keys, only, List.mem_singleton]
  have onSheets : ∀ edit ∈ bookings, edit.OnSheet settled := by
    simp [bookings, Edit.OnSheet, Edit.cell?, Address.onSheet, sheet]
  have distinct : settled.DistinctNames := by
    have named : ∀ (key : Scoped) shown, settled.sheets[key]? = some shown → key = ⟨"u", "s"⟩ :=
      fun key _ found => (sheet key).mp (Std.ExtTreeMap.mem_iff_isSome_getElem?.mpr (by simp [found]))
    exact fun key other shown also here there _ _ => (named _ _ here).trans (named _ _ there).symm
  refine ⟨settles, ?_, ?_, ?_⟩
  · decide +kernel
  · decide +kernel
  · exact incremental_eq_full settles onSheets distinct (List.isEmpty_iff.mp healthy')
      (Edit.announces_announceAll .empty onSheets) rfl rfl (uninterrupted_of_go (by simp))

end Engine

end Recalc
