import Recalc.Proofs.Contents
import Recalc.Proofs.Kinds

/-!
# Blocks inside blocks

An array literal refuses blocks as elements, and no operator or function puts one there. A range
does: it is read as a block of whatever its cells hold, and a formula cell may hold a block
(`Session.range_over_block_nests`). That is the only way, so blocks do not nest as long as ranges
keep away from the cells that may hold one (`Session.flat_actAll`).
-/
namespace Recalc

namespace Value

/-- The elements of a block. -/
def elements : Value → List Value
  | array b => b.toList
  | _ => []

/-- Whether a value is single or a block of single values. -/
def Flat (v : Value) : Prop :=
  ∀ x ∈ v.elements, x.Single

instance (v : Value) : Decidable v.Flat :=
  inferInstanceAs (Decidable (∀ x ∈ v.elements, x.isArray = false))

theorem Single.flat {v : Value} (single : v.Single) : v.Flat := by
  cases v with
  | array b => cases single
  | _ => exact nofun

end Value

/-- Values without a block inside a block. -/
def ValueKind.flat : ValueKind where
  holds := Value.Flat
  element := Value.Single
  array_iff _ := Iff.rfl
  single_iff _ single := ⟨fun _ => single, fun _ => single.flat⟩
  holds_of_element _ := Value.Single.flat
  element_of_settled _ := Value.Settled.single

/-! ### Keeping ranges away from blocks -/

/-- Only some cells of a workbook may hold a block, as far as stored values and formulas go, and no
range of a formula covers one of them. -/
structure Workbook.Confines (b : Workbook) (lib : Library) (blocks : Address → Prop) : Prop where
  stored : ∀ a, ¬blocks a → (b.value a).Single
  computed : ∀ a f, b.formula? a = some f → ¬blocks a →
    ∀ value : Address → Value, (∀ c, (value c).Flat ∧ (¬blocks c → (value c).Single)) →
    ∀ now seed v, f.tree.cellValue (b.viewWith value lib now seed) a = .ok v → v.Single
  unread : ∀ a f, b.formula? a = some f → ∀ r ∈ f.ranges b a, ∀ c, r.contains c = true → ¬blocks c

namespace Workbook.Confines

variable {b : Workbook} {blocks : Address → Prop}

/-- Where ranges read no blocks, a formula computes a flat value from flat values. -/
theorem flat_value (confines : b.Confines .standard blocks)
    (literals : ∀ a f, b.formula? a = some f → ∀ v, .literal v ∈ f.tree.subtrees → v.Flat)
    {a : Address} {f : CellFormula} (formula : b.formula? a = some f) {value : Address → Value}
    (held : ∀ c, (value c).Flat ∧ (¬blocks c → (value c).Single)) {now : Float} {seed : UInt64}
    {v : Value} (gives : f.tree.value (b.viewWith value .standard now seed) a = .ok v) : v.Flat := by
  refine ValueKind.flat.holds_of_formula (fun _ _ => Library.makesNoBlock)
    (literals a f formula) (fun c => (held c).1) (fun r read c inside => ?_) gives
  exact (held c).2 (confines.unread a f formula r read c inside)

theorem preserves (confines : b.Confines .standard blocks)
    (literals : ∀ a f, b.formula? a = some f → ∀ v, .literal v ∈ f.tree.subtrees → v.Flat) :
    b.Preserves .standard fun a v => v.Flat ∧ (¬blocks a → v.Single) where
  error _ _ := ⟨Value.Single.flat rfl, fun _ => rfl⟩
  computed a f formula value held now seed v gives := by
    refine ⟨?_, fun outside => confines.computed a f formula outside value held now seed v gives⟩
    exact ValueKind.flat.holds_map_toResult (fun w => confines.flat_value literals formula held) gives

end Workbook.Confines

namespace Session

/-- If no block is nested in what is stored and written in formulas, and no range covers a cell that
may hold a block, then no block is nested in what passes deliver, in what is stored when results have
been written back, and in what any formula is evaluated to between two steps of a pass. -/
theorem flat_actAll (book : Workbook) (stored : ∀ a, (book.value a).Flat)
    (literals : ∀ a f, book.formula? a = some f → ∀ v, .literal v ∈ f.tree.subtrees → v.Flat)
    {blocks : Address → Prop} (confines : book.Confines .standard blocks)
    {actions : List Action} (recalculates : ∀ action ∈ actions, action.Recalculates .standard) :
    let s := (opened book).actAll actions
    (∀ r ∈ s.delivered, ∀ x ∈ r.cells, x.2.Flat) ∧ (∀ a, (s.book.value a).Flat) ∧
      ∀ e : Engine, e.library = .standard → ∀ q k a f v, s.book.formula? a = some f →
        f.tree.value (s.book.viewWith (e.seenAfter s.book q k) e.library e.config.now e.config.seed)
          a = .ok v → v.Flat := by
  intro s
  have preserves := confines.preserves literals
  have single : ∀ a, (book.value a).Flat ∧ (¬blocks a → (book.value a).Single) :=
    fun a => ⟨stored a, confines.stored a⟩
  have held := holds_actAll preserves single recalculates
  refine ⟨fun r given x listed => (held.delivered r given x listed).2.1,
    fun a => (held.stored a).1, fun e standard q k a f v formula gives => ?_⟩
  rw [← standard] at preserves
  have seen := e.holds_seenAfter (preserves.of_sameFormulas held.same) held.stored q k
  rw [held.same.formula?] at formula
  rw [held.same.viewWith, standard] at gives
  exact confines.flat_value literals formula seen gives

/-! ### A block and a range -/

/-- A workbook with a block of two Booleans in its first cell, and a range in the cell beside it. -/
def blockAndRange (rectangle : Rectangle) : Workbook :=
  (Workbook.empty.setFormula ⟨"u", "s", 0, 0⟩
    ⟨.array [[.literal (.boolean true), .literal (.boolean true)]], []⟩).setFormula
    ⟨"u", "s", 0, 1⟩ ⟨.reference (.range ⟨none, none⟩ rectangle), []⟩

section BlockAndRange

variable {rectangle : Rectangle} {a : Address} {f : CellFormula}

private theorem value_blockAndRange : (blockAndRange rectangle).value a = .blank := by
  simp [blockAndRange, Workbook.value, Workbook.setFormula, Workbook.ensureSheet, Workbook.empty]

private theorem formula?_blockAndRange (formula : (blockAndRange rectangle).formula? a = some f) :
    (a = ⟨"u", "s", 0, 1⟩ ∧ f = ⟨.reference (.range ⟨none, none⟩ rectangle), []⟩) ∨
      (a = ⟨"u", "s", 0, 0⟩ ∧
        f = ⟨.array [[.literal (.boolean true), .literal (.boolean true)]], []⟩) := by
  simp only [blockAndRange, Workbook.formula?, Workbook.setFormula, Workbook.ensureSheet,
    Workbook.empty, SortedMap.getElem?_insert] at formula
  split at formula
  next here =>
    cases formula
    exact .inl ⟨here.symm, rfl⟩
  next =>
    split at formula
    next here =>
      cases formula
      exact .inr ⟨here.symm, rfl⟩
    next => simp at formula

private theorem flat_literals_blockAndRange
    (formula : (blockAndRange rectangle).formula? a = some f) {v : Value}
    (written : .literal v ∈ f.tree.subtrees) : v.Flat := by
  rcases formula?_blockAndRange formula with ⟨-, rfl⟩ | ⟨-, rfl⟩
  · simp [Formula.subtrees] at written
  · simp [Formula.subtrees, Formula.subtreesOfRows, Formula.subtreesOfList] at written
    exact written ▸ Value.Single.flat rfl

/-- A range below the block reads no block, so the first row may hold blocks. -/
private theorem confines_blockAndRange :
    (blockAndRange ⟨1, 0, 2, 0⟩).Confines .standard fun a => a.row = 0 where
  stored a _ := by
    rw [value_blockAndRange]
    rfl
  computed a f formula outside := by
    rcases formula?_blockAndRange formula with ⟨rfl, -⟩ | ⟨rfl, -⟩
    · exact absurd rfl outside
    · exact absurd rfl outside
  unread a f formula r read c inside := by
    rcases formula?_blockAndRange formula with ⟨rfl, rfl⟩ | ⟨rfl, rfl⟩
    · simp [CellFormula.ranges, Formula.references, Formula.subtrees, Reference.ranges,
        Reference.expand, Reference.isRange, Reference.region?, Reference.target?,
        Rectangle.Ordered] at read
      subst read
      simp [Region.contains, Rectangle.contains] at inside
      omega
    · simp [CellFormula.ranges, Formula.references, Formula.subtrees, Formula.subtreesOfRows,
        Formula.subtreesOfList] at read

end BlockAndRange

/-- A range below a block: the block and the values of the range are delivered, and nothing nests. -/
theorem flat_of_range_beside_block :
    let e : Engine := ⟨⟨false, 1, 256, 100, true, 0, 0⟩, .standard⟩
    let s := (opened (blockAndRange ⟨1, 0, 2, 0⟩)).actAll [.calculate e .full [], .apply 0,
      .calculate e .full [.go, .stop]]
    (∀ r ∈ s.delivered, ∀ x ∈ r.cells, x.2.Flat) ∧ ∀ a, (s.book.value a).Flat := by
  intro e s
  have stored : ∀ a, ((blockAndRange ⟨1, 0, 2, 0⟩).value a).Flat := fun a => by
    rw [value_blockAndRange]
    exact Value.Single.flat rfl
  have recalculates : ∀ action ∈ [.calculate e .full [], .apply 0, .calculate e .full [.go, .stop]],
      Action.Recalculates .standard action := by
    simp [Action.Recalculates, e]
  have flat := flat_actAll (blockAndRange ⟨1, 0, 2, 0⟩) stored
    (fun a f formula v written => flat_literals_blockAndRange formula written)
    confines_blockAndRange recalculates
  exact ⟨flat.1, flat.2.1⟩

/-- A range over the block is delivered as a block with that block inside, although nothing that is
stored or written nests. -/
theorem range_over_block_nests :
    let e : Engine := ⟨⟨false, 1, 256, 100, true, 0, 0⟩, .standard⟩
    let book := blockAndRange ⟨0, 0, 1, 0⟩
    (∀ a, (book.value a).Flat) ∧
      (∀ a f, book.formula? a = some f → ∀ v, .literal v ∈ f.tree.subtrees → v.Flat) ∧
      ∃ r ∈ ((opened book).actAll [.calculate e .full []]).delivered, ∃ x ∈ r.cells, ¬x.2.Flat := by
  intro e book
  refine ⟨fun a => ?_, fun a f formula v written => flat_literals_blockAndRange formula written,
    _, List.mem_singleton_self _, ?_⟩
  · rw [value_blockAndRange]
    exact Value.Single.flat rfl
  · have nested : (e.runPass book .full []).results.cells.any (fun x => !decide x.2.Flat) = true := by
      decide +kernel
    simpa [opened] using nested

end Session

end Recalc
