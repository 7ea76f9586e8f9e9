import Mathlib.Data.Fintype.EquivFin
import Recalc.Proofs.Affected
import Recalc.Proofs.Edits

/-!
# Marks that add up

A mark only adds to what is affected, with one exception. Of the new display names of a sheet the
last one is kept, so a rename forgets an earlier one of the same sheet, and formulas that used the
earlier name are no longer touched unless another mark touches them. `affected_mark_iff` says exactly
when that happens.
-/
namespace Recalc

/-- What can be marked between two calculations. -/
inductive Mark where
  | region (r : Region)
  | rename (unit sheet newName : String)
  | name (unit name : String)
  | feature (key : FeatureKey)
  | volatiles

namespace DirtyMarks

def mark (m : DirtyMarks) : Mark → DirtyMarks
  | .region r => m.markRegion r
  | .rename unit sheet newName => m.markRename unit sheet newName
  | .name unit name => m.markName unit name
  | .feature key => m.markFeature key
  | .volatiles => m.markVolatiles

/-- Whether a mark loses an earlier one: it gives a sheet another name than the one that is marked,
and no other sheet of the unit is marked with the earlier name. -/
def Forgets (m : DirtyMarks) : Mark → Prop
  | .rename unit sheet newName =>
    ∃ old, m.renames[(⟨unit, sheet⟩ : Scoped)]? = some old ∧
      Text.sameIgnoringCase old newName = false ∧
      ∀ other given, m.renames[(⟨unit, other⟩ : Scoped)]? = some given → other ≠ sheet →
        Text.sameIgnoringCase given old = false
  | _ => False

variable {m : DirtyMarks} {mark : Mark} {v : Vertex}

/-! ### What is kept -/

section Kept

variable {unit sheet old new : String} {use : SheetNameUse}

/-- A rename touches a use through the sheet, whatever its new name, or through the new name. -/
private theorem renameTouches_cases (touched : renameTouches ⟨unit, sheet⟩ old use = true) :
    (∀ new, renameTouches ⟨unit, sheet⟩ new use = true) ∨
      use.unit = unit ∧ use.sheet.isSome ∧ Text.sameIgnoringCase use.name old = true := by
  simp only [renameTouches, Bool.and_eq_true, beq_iff_eq] at touched ⊢
  obtain ⟨rfl, touched⟩ := touched
  cases found : use.sheet with
  | none => exact .inl fun _ => ⟨rfl, rfl⟩
  | some s =>
    rw [found] at touched
    rcases (Bool.or_eq_true _ _).mp touched with same | same
    · exact .inl fun _ => ⟨rfl, by simp [same]⟩
    · exact .inr ⟨rfl, rfl, same⟩

private theorem renameTouches_of_name {other given : String} (unitSame : use.unit = unit)
    (resolved : use.sheet.isSome) (same : Text.sameIgnoringCase use.name given = true) :
    renameTouches ⟨unit, other⟩ given use = true := by
  obtain ⟨s, found⟩ := Option.isSome_iff_exists.mp resolved
  simp [renameTouches, unitSame, found, same]

/-- A formula that a rename touched is still touched after the sheet has been given another name,
unless the first name is forgotten. -/
private theorem renamedBy_markRename (marked : m.renames[(⟨unit, sheet⟩ : Scoped)]? = some old)
    (kept : ¬m.Forgets (.rename unit sheet new)) (renamed : v.RenamedBy ⟨unit, sheet⟩ old) :
    ∃ key given, (m.markRename unit sheet new).renames[key]? = some given ∧
      v.RenamedBy key given := by
  obtain ⟨use, used, touched⟩ := renamed
  have last : (m.markRename unit sheet new).renames[(⟨unit, sheet⟩ : Scoped)]? = some new :=
    Std.ExtTreeMap.getElem?_insert_self
  rcases renameTouches_cases touched with always | ⟨here, resolved, named⟩
  · exact ⟨_, new, last, use, used, always new⟩
  by_cases again : Text.sameIgnoringCase old new = true
  · have same : Text.sameIgnoringCase use.name new = true := by
      simp only [Text.sameIgnoringCase, beq_iff_eq] at named again ⊢
      exact named.trans again
    exact ⟨_, new, last, use, used, renameTouches_of_name here resolved same⟩
  -- the earlier name is not forgotten, so another sheet is marked with it
  · simp only [Forgets, not_exists, not_and, not_forall, Bool.not_eq_false] at kept
    obtain ⟨other, given, also, ne, same⟩ :=
      kept old marked (Bool.eq_false_of_not_eq_true again)
    refine ⟨⟨unit, other⟩, given, ?_, use, used, renameTouches_of_name here resolved ?_⟩
    · rw [markRename, SortedMap.getElem?_insert, if_neg fun equal => ne (Scoped.mk.inj equal).2.symm]
      exact also
    · exact Workbook.sameIgnoringCase_trans named same

end Kept

/-- A mark that forgets nothing touches every formula that was touched before. -/
theorem touches_mark (kept : ¬m.Forgets mark) (touched : m.touches v = true) :
    (m.mark mark).touches v = true := by
  cases mark with
  | region r => exact (m.touches_markRegion r v).mpr (.inl touched)
  | name unit name => exact (m.touches_markName unit name v).mpr (.inl touched)
  | feature key => exact (m.touches_markFeature key v).mpr (.inl touched)
  | volatiles => exact (m.touches_markVolatiles v).mpr (.inl touched)
  | rename unit sheet new =>
    rcases touches_iff.mp touched with volatile | region | ⟨key, given, marked, renamed⟩ | others
    · exact touches_iff.mpr (.inl volatile)
    · exact touches_iff.mpr (.inr (.inl region))
    · refine touches_iff.mpr (.inr (.inr (.inl ?_)))
      by_cases here : (⟨unit, sheet⟩ : Scoped) = key
      · subst here
        exact renamedBy_markRename marked kept renamed
      · refine ⟨key, given, ?_, renamed⟩
        exact (SortedMap.getElem?_insert m.renames _ key new).trans ((if_neg here).trans marked)
    · exact touches_iff.mpr (.inr (.inr (.inr others)))

theorem affected_mono {other : DirtyMarks} {g : DependencyGraph}
    (more : ∀ x, m.touches x = true → other.touches x = true) {u : Nat} (before : u ∈ m.affected g) :
    u ∈ other.affected g := by
  obtain ⟨bounded, v, seed, path⟩ := Digraph.mem_reachable.mp before
  obtain ⟨x, found, touched⟩ := mem_seeds.mp seed
  exact Digraph.mem_reachable.mpr ⟨bounded, v, mem_seeds.mpr ⟨x, found, more x touched⟩, path⟩

/-! ### What is lost -/

section Lost

variable {unit sheet old new fresh : String}

/-- A workbook with one formula. Its only reference uses a display name for a sheet of another unit
than its own. -/
private def onlyUser (unit fresh name : String) : Workbook :=
  (Workbook.empty.addSheet unit fresh name).setFormula ⟨fresh, fresh, 0, 0⟩
    ⟨.reference (.cell ⟨some unit, some (.displayName name)⟩ 0 0), []⟩

private theorem sheetId?_onlyUser (apart : fresh ≠ unit) (name : String) :
    (onlyUser unit fresh name).sheetId? unit name = some fresh := by
  have sheets : ∀ s, (onlyUser unit fresh name).sheets[(⟨unit, s⟩ : Scoped)]? =
      if fresh = s then some name else none := by
    intro s
    have other : (Address.onSheet ⟨fresh, fresh, 0, 0⟩) ≠ (⟨unit, s⟩ : Scoped) := fun same =>
      apart (Scoped.mk.inj same).1
    show (((∅ : SortedMap Scoped String).insert ⟨unit, fresh⟩ name).insertIfNew _ _)[_]? = _
    rw [Std.ExtTreeMap.getElem?_insertIfNew, SortedMap.getElem?_insert]
    simp [other]
  -- the display name is listed for one sheet only, so that sheet is found
  have listed := sheets fresh
  rw [if_pos rfl] at listed
  obtain ⟨s, found⟩ := Workbook.exists_sheetId? listed (beq_self_eq_true _)
  obtain ⟨shown, there, -⟩ := Workbook.exists_of_sheetId? found
  rw [sheets] at there
  split at there
  next same => rw [found, same]
  next => cases there

/-- Every vertex of that workbook reads nothing but the cell it finds by the display name. -/
private theorem precedents_onlyUser (apart : fresh ≠ unit) {name : String} {k : Nat} {x : Vertex}
    (found : (DependencyGraph.ofWorkbook (onlyUser unit fresh name) .empty).vertex? k = some x) :
    x.address.unit = fresh ∧ x.isVolatile = false ∧
      x.precedents = ⟨[⟨unit, fresh, .ofPosition 0 0⟩], [⟨unit, name, some fresh⟩], [], []⟩ := by
  obtain ⟨formula, same⟩ := DependencyGraph.eq_vertexAt found
  have only : ∀ a f, (onlyUser unit fresh name).formula? a = some f → a = ⟨fresh, fresh, 0, 0⟩ ∧
      f = ⟨.reference (.cell ⟨some unit, some (.displayName name)⟩ 0 0), []⟩ := by
    intro a f held
    rw [show (onlyUser unit fresh name).formula? a = ((∅ : SortedMap Address CellFormula).insert
      ⟨fresh, fresh, 0, 0⟩ _)[a]? from rfl, SortedMap.getElem?_insert] at held
    split at held
    next same => exact ⟨same.symm, (Option.some.inj held).symm⟩
    next => simp at held
  obtain ⟨address, written⟩ := only _ _ formula
  have resolved := sheetId?_onlyUser apart name
  refine ⟨congrArg Address.unit address, ?_, ?_⟩
  · rw [congrArg Vertex.isVolatile same]
    simp [DependencyGraph.vertexAt, CellFormula.isVolatile, written, Formula.functionNames,
      Formula.subtrees]
  · rw [congrArg Vertex.precedents same]
    simp [DependencyGraph.vertexAt, CellFormula.precedents, written, address, Formula.references,
      Formula.subtrees, Reference.expand, Reference.region?, Reference.sheetNameUse?,
      Reference.scopedName?, Reference.target?, resolved, Region.sortDistinct, List.eraseReps,
      List.eraseRepsBy, List.eraseRepsBy.loop]

/-- Marks that do not mention the fresh name in a region touch that workbook's formula through renames
only. -/
private theorem touches_onlyUser (apart : fresh ≠ unit) {name : String} {k : Nat} {x : Vertex}
    (found : (DependencyGraph.ofWorkbook (onlyUser unit fresh name) .empty).vertex? k = some x)
    (noUnit : fresh ∉ m.regions.map Region.unit) (noSheet : fresh ∉ m.regions.map Region.sheet) :
    m.touches x = true ↔ ∃ key given, m.renames[key]? = some given ∧
      renameTouches key given ⟨unit, name, some fresh⟩ = true := by
  obtain ⟨address, plain, precedents⟩ := precedents_onlyUser apart found
  have noRegion : ¬∃ r ∈ m.regions, x.MeetsRegion r := by
    rintro ⟨r, listed, inside | reads⟩
    · simp only [Region.contains, Bool.and_eq_true, beq_iff_eq] at inside
      exact noUnit (List.mem_map.mpr ⟨r, listed, inside.1.1.trans address⟩)
    · simp only [Vertex.readsFrom, precedents, List.any_cons, List.any_nil, Bool.or_false,
        Region.intersects, Bool.and_eq_true, beq_iff_eq] at reads
      exact noSheet (List.mem_map.mpr ⟨r, listed, reads.1.2.symm⟩)
  simp [touches_iff, noRegion, plain, precedents, Vertex.RenamedBy]

/-- Where a rename forgets the earlier name, a formula that used that name for another sheet is lost,
as long as no other mark touches it. -/
private theorem exists_lost (forgets : m.Forgets (.rename unit sheet new)) :
    ∃ book lib, ∃ v ∈ m.affected (.ofWorkbook book lib),
      v ∉ (m.markRename unit sheet new).affected (.ofWorkbook book lib) := by
  obtain ⟨old, marked, renamed, alone⟩ := forgets
  -- a unit and a sheet that no mark mentions
  obtain ⟨fresh, unused⟩ := Infinite.exists_notMem_finset (unit :: sheet ::
    (m.regions.map Region.unit ++ m.regions.map Region.sheet ++
      m.renames.keys.map Scoped.name)).toFinset
  simp only [List.toFinset_cons, Finset.mem_insert, List.mem_toFinset, List.mem_append, not_or]
    at unused
  obtain ⟨otherUnit, otherSheet, ⟨noUnit, noSheet⟩, noKey⟩ := unused
  have formula : (onlyUser unit fresh old).formula? ⟨fresh, fresh, 0, 0⟩ = some _ :=
    Std.ExtTreeMap.getElem?_insert_self
  obtain ⟨k, found⟩ := DependencyGraph.exists_vertexAt .empty formula
  refine ⟨onlyUser unit fresh old, .empty, k, mem_affected_of_touches found ?_, fun after => ?_⟩
  · refine (touches_onlyUser otherUnit found noUnit noSheet).mpr ⟨_, old, marked, ?_⟩
    simp [renameTouches, Text.sameIgnoringCase]
  · obtain ⟨w, marked, -⟩ := mem_affected_iff.mp after
    obtain ⟨x, seed, touched⟩ := mem_seeds.mp marked
    obtain ⟨⟨u, s⟩, given, listed, touches⟩ :=
      (touches_onlyUser (m := m.markRename unit sheet new) otherUnit seed noUnit noSheet).mp touched
    rw [markRename, SortedMap.getElem?_insert] at listed
    simp only [renameTouches, Bool.and_eq_true, Bool.or_eq_true, beq_iff_eq] at touches
    obtain ⟨rfl, touches⟩ := touches
    split at listed
    -- the renamed sheet has a name now that the formula does not use
    next same =>
      cases listed
      obtain rfl := (Scoped.mk.inj same).2
      refine touches.elim otherSheet fun again => ?_
      exact Bool.false_ne_true (renamed.symm.trans again)
    -- the other renamed sheets are neither the fresh one nor shown under the earlier name
    next apart =>
      have known : (⟨u, s⟩ : Scoped) ∈ m.renames.keys := by
        rw [Std.ExtTreeMap.mem_keys, Std.ExtTreeMap.mem_iff_isSome_getElem?, listed]
        rfl
      rcases touches with here | again
      · exact noKey (List.mem_map.mpr ⟨_, known, here.symm⟩)
      · have differs := alone s given listed fun same => apart (by rw [same])
        rw [Text.sameIgnoringCase, BEq.comm] at differs
        exact Bool.false_ne_true (differs.symm.trans again)

end Lost

/-- A mark keeps everything affected, over the graph of every workbook, exactly if it forgets no
earlier mark. -/
theorem affected_mark_iff (m : DirtyMarks) (mark : Mark) :
    (∀ book lib, ∀ v ∈ m.affected (.ofWorkbook book lib),
      v ∈ (m.mark mark).affected (.ofWorkbook book lib)) ↔ ¬m.Forgets mark := by
  constructor
  · intro kept forgets
    cases mark with
    | rename unit sheet new =>
      obtain ⟨book, lib, v, before, lost⟩ := exists_lost forgets
      exact lost (kept book lib v before)
    | region r => exact forgets
    | name unit name => exact forgets
    | feature key => exact forgets
    | volatiles => exact forgets
  · exact fun kept book lib v => affected_mono fun x => touches_mark kept

/-- A formula that uses the first of two new names of a sheet for another sheet is affected between the
two renames, and no longer after the second one. -/
theorem second_rename_loses_reader :
    let here : Address := ⟨"u", "r", 0, 0⟩
    let ref : Reference := .cell ⟨none, some (.displayName "D")⟩ 0 0
    let book := ((Workbook.empty.addSheet "u" "s" "D").addSheet "u" "t" "E").setFormula here
      ⟨.reference ref, []⟩
    let once := DirtyMarks.empty.mark (.rename "u" "t" "D")
    once.affected (.ofWorkbook book .empty) = [0] ∧
      (once.mark (.rename "u" "t" "F")).affected (.ofWorkbook book .empty) = [] := by
  decide +kernel

end DirtyMarks

end Recalc
