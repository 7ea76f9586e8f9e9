import Recalc.Dependency.Graph
import Recalc.Calculation.Results
import Recalc.Proofs.Maps

/-!
# Writing results back

Writing results back changes the stored values of the cells that have one (`value_applyResults`) and
nothing else (`applyResults_sameFormulas`). Workbooks that differ only in stored values have the same
graph and resolve references alike.
-/
namespace Recalc.Workbook

variable {b other : Workbook}

/-! ### Workbooks that differ in stored values -/

/-- Everything but the stored values is the same. -/
structure SameFormulas (b other : Workbook) : Prop where
  sheets : b.sheets = other.sheets
  formulas : b.formulas = other.formulas
  names : b.names = other.names

namespace SameFormulas

theorem refl (b : Workbook) : b.SameFormulas b :=
  ⟨rfl, rfl, rfl⟩

theorem trans {third : Workbook} (first : b.SameFormulas other) (second : other.SameFormulas third) :
    b.SameFormulas third :=
  ⟨first.sheets.trans second.sheets, first.formulas.trans second.formulas,
    first.names.trans second.names⟩

theorem formula? (same : b.SameFormulas other) (a : Address) : b.formula? a = other.formula? a := by
  rw [Workbook.formula?, Workbook.formula?, same.formulas]

theorem viewWith (same : b.SameFormulas other) (value : Address → Value) (lib : Library)
    (now : Float) (seed : UInt64) :
    b.viewWith value lib now seed = other.viewWith value lib now seed := by
  obtain ⟨sheets, _, names⟩ := same
  cases b
  cases other
  cases sheets
  cases names
  rfl

theorem precedents (same : b.SameFormulas other) (f : CellFormula) (a : Address) :
    f.precedents b a = f.precedents other a := by
  obtain ⟨sheets, _, names⟩ := same
  cases b
  cases other
  cases sheets
  cases names
  rfl

theorem ofWorkbook (same : b.SameFormulas other) (lib : Library) :
    DependencyGraph.ofWorkbook b lib = DependencyGraph.ofWorkbook other lib := by
  simp only [DependencyGraph.ofWorkbook, formulaCells, same.formulas, same.formula?, same.precedents]

end SameFormulas

/-! ### Writing back -/

theorem sheets_ensureSheet {a : Address} (here : a.onSheet ∈ b.sheets) :
    (b.ensureSheet a).sheets = b.sheets := by
  refine Std.ExtTreeMap.ext_getElem? fun key => ?_
  show (b.sheets.insertIfNew a.onSheet a.sheet)[key]? = _
  rw [Std.ExtTreeMap.getElem?_insertIfNew, if_neg fun new => new.2 here]

theorem writeBack_sameFormulas {a : Address} (here : a.onSheet ∈ b.sheets) (v : Value) :
    (b.writeBack a v).SameFormulas b where
  sheets := sheets_ensureSheet here
  formulas := rfl
  names := rfl

theorem value_writeBack (a c : Address) (v : Value) :
    (b.writeBack a v).value c = if a = c then v else b.value c := by
  show ((b.values.insert a v)[c]?).getD .blank = _
  rw [SortedMap.getElem?_insert]
  split
  · rfl
  · rfl

private theorem writeBacks_sameFormulas {cells : List (Address × Value)}
    (onSheets : ∀ x ∈ cells, x.1.onSheet ∈ b.sheets) :
    (cells.foldl (fun b (a, v) => b.writeBack a v) b).SameFormulas b := by
  induction cells generalizing b with
  | nil => exact .refl b
  | cons x rest ih =>
    have first := writeBack_sameFormulas (onSheets x List.mem_cons_self) x.2
    -- no sheet was added, so the later cells still lie on sheets that are there
    refine SameFormulas.trans (ih fun y later => ?_) first
    rw [first.sheets]
    exact onSheets y (List.mem_cons_of_mem _ later)

private theorem value_writeBacks_of_notMem {cells : List (Address × Value)} {c : Address}
    (absent : c ∉ cells.map Prod.fst) :
    (cells.foldl (fun b (a, v) => b.writeBack a v) b).value c = b.value c :=
  foldl_kept (fun b : Workbook => b.value c) (fun b x listed => by
    rw [value_writeBack, if_neg fun same => absent (List.mem_map.mpr ⟨x, listed, same⟩)]) b

private theorem value_writeBacks_of_mem {cells : List (Address × Value)}
    (nodup : (cells.map Prod.fst).Nodup) {c : Address} {v : Value} (member : (c, v) ∈ cells) :
    (cells.foldl (fun b (a, v) => b.writeBack a v) b).value c = v := by
  induction cells generalizing b with
  | nil => cases member
  | cons x rest ih =>
    rw [List.map_cons, List.nodup_cons] at nodup
    rcases List.mem_cons.mp member with rfl | later
    · rw [List.foldl_cons, value_writeBacks_of_notMem nodup.1, value_writeBack, if_pos rfl]
    · exact ih nodup.2 later

theorem applyResults_sameFormulas {r : Results}
    (onSheets : ∀ x ∈ r.cells, x.1.onSheet ∈ b.sheets) : (b.applyResults r).SameFormulas b :=
  writeBacks_sameFormulas onSheets

theorem value_applyResults_of_notMem {r : Results} {a : Address}
    (absent : a ∉ r.cells.map Prod.fst) : (b.applyResults r).value a = b.value a :=
  value_writeBacks_of_notMem absent

theorem value_applyResults_of_mem {r : Results} (nodup : (r.cells.map Prod.fst).Nodup) {a : Address}
    {v : Value} (member : (a, v) ∈ r.cells) : (b.applyResults r).value a = v :=
  value_writeBacks_of_mem nodup member

end Recalc.Workbook
