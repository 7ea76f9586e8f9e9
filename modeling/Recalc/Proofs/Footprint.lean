import Recalc.Proofs.Graph
import Recalc.Proofs.Marks
import Recalc.Proofs.Reading

/-!
# Footprints

The vertex of a formula cell lists every region that its formula can read. Whatever a formula is
evaluated over, once the meaning of names, the functions, the clock and the seed are given, its value
or its fault is settled by the cells in these regions (`outcome_of_footprint`).
-/
namespace Recalc

namespace View

/-- Whether a view finds sheets and defined names as a workbook does. -/
structure Resolves (view : View) (book : Workbook) : Prop where
  sheets : view.sheetId? = book.sheetId?
  names : view.definedName? = book.definedName?

/-- Whether two views have the same functions, the same clock and the same seed. -/
structure SameAmbience (view other : View) : Prop where
  functions : view.function? = other.function?
  now : view.now = other.now
  seed : view.seed = other.seed

end View

namespace Reference

variable {view : View} {book : Workbook} {home : Address}

/-- A reference looks up cells, sheets and defined names, and nothing else of a view. -/
theorem evaluate_of_resolves (resolves : view.Resolves book) (ref : Reference) :
    ref.evaluate view home = ref.evaluate (book.viewWith view.value .empty 0 0) home := by
  obtain ⟨value, sheetId?, definedName?, function?, now, seed⟩ := view
  obtain ⟨sheets, names⟩ := resolves
  simp only at sheets names
  subst sheets names
  cases ref with
  | cell place row col => rfl
  | range place rectangle => rfl
  | name n =>
    simp only [evaluate, Workbook.viewWith]
    cases book.definedName? home.unit n with
    | none => rfl
    -- what a name stands for is read like a reference that is written out
    | some target => cases target <;> rfl

end Reference

namespace DependencyGraph

variable {book : Workbook} {lib : Library} {a : Address}

/-- The graph misses no read: every formula cell has a vertex, and views that agree on the cells in
the precedent regions of that vertex give the formula the same value, or the same fault. -/
theorem outcome_of_footprint (lib : Library) {f : CellFormula} (formula : book.formula? a = some f) :
    ∃ v x, (ofWorkbook book lib).vertexOf? a = some v ∧ (ofWorkbook book lib).vertex? v = some x ∧
      x.address = a ∧ x.formula = f ∧
      ∀ view other : View, view.Resolves book → other.Resolves book → view.SameAmbience other →
        (∀ r ∈ x.precedents.regions, ∀ c, r.contains c = true → view.value c = other.value c) →
        f.tree.cellValue view a = f.tree.cellValue other a := by
  obtain ⟨v, found⟩ := exists_vertexAt lib formula
  refine ⟨v, _, vertexOf?_eq_some_iff.mpr ⟨_, found, rfl⟩, found, rfl, rfl, ?_⟩
  intro view other here there ambience agree
  refine Formula.cellValue_congr view other ambience.functions ambience.now ambience.seed ?_
  intro ref written
  rw [Reference.evaluate_of_resolves here, Reference.evaluate_of_resolves there]
  -- both views resolve references as the workbook does, so only the values can differ
  refine Reference.evaluate_congr rfl (fun _ _ => rfl) fun t stands r region => ?_
  exact agree r (CellFormula.mem_regions.mpr ⟨ref, written, t, stands, region⟩)

/-- A formula that reads a cell of another sheet through a defined name does not notice what all other
cells hold. -/
theorem named_cell_footprint :
    let rate : Address := ⟨"u", "t", 1, 1⟩
    let here : Address := ⟨"u", "s", 0, 0⟩
    let tree : Formula := .binary .concat (.reference (.name "Rate")) (.literal (.text "%"))
    let book := (Workbook.empty.defineName "u" "Rate"
      (.cell ⟨none, some (.id "t")⟩ 1 1)).setFormula here ⟨tree, []⟩
    let view (others : Value) : View := book.viewWith
      (fun c => if c = rate then .text "5" else others) .standard 0 0
    tree.cellValue (view .blank) here = tree.cellValue (view (.boolean true)) here := by
  intro rate here tree book view
  have formula : book.formula? here = some ⟨tree, []⟩ := Std.ExtTreeMap.getElem?_insert_self
  have named : book.definedName? here.unit "Rate" = some (.cell ⟨none, some (.id "t")⟩ 1 1) :=
    Std.ExtTreeMap.getElem?_insert_self
  obtain ⟨v, x, -, found, address, written, settled⟩ := outcome_of_footprint .standard formula
  refine settled _ _ ⟨rfl, rfl⟩ ⟨rfl, rfl⟩ ⟨rfl, rfl, rfl⟩ fun r listed c inside => ?_
  rw [(eq_vertexAt found).2, address, written] at listed
  obtain ⟨ref, used, t, stands, region⟩ := CellFormula.mem_regions.mp listed
  -- the only reference is the name, which stands for the rate, on which both views agree
  obtain rfl : ref = .name "Rate" := by
    simpa [tree, Formula.references, Formula.subtrees] using used
  simp only [Reference.expand, named, Option.toList_some, List.mem_singleton] at stands
  subst stands
  obtain rfl : .ofAddress rate = r := Option.some.inj region
  obtain rfl := Region.contains_ofAddress.mp inside
  simp only [view, Workbook.viewWith, if_true]

end DependencyGraph

end Recalc
