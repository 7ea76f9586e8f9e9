import Recalc.Proofs.Edits

/-!
# Changes of resolution

An edit may change which sheet a display name stands for, or what a defined name stands for. A
tracker that carries the mark of the edit has every formula among its seeds that finds other cells
than before (`mem_seeds_of_changed`), with two exceptions: a name that is now found on a sheet that
the edit has created, and one that stood for the renamed sheet and stands for another one now. The
mark of a rename indeed says nothing of the latter (`not_renameTouches`), and neither occurs where
display names are distinct and sheets are there before their cells (`not_escapes_of_distinct`).
-/
namespace Recalc

/-! ### The first sheet with a name -/

namespace Workbook

variable {b other : Workbook} {unit name : String}

/-- Of the sheets with a display name the first one is found. -/
theorem isLE_of_sheetId? {s t shown : String} (found : b.sheetId? unit name = some s)
    (listed : b.sheets[(⟨unit, t⟩ : Scoped)]? = some shown)
    (same : Text.sameIgnoringCase shown name = true) :
    (compare (⟨unit, s⟩ : Scoped) ⟨unit, t⟩).isLE = true := by
  obtain ⟨⟨⟨u, s⟩, first⟩, here, rfl⟩ := Option.map_eq_some_iff.mp found
  obtain ⟨matching, before, after, split, earlier⟩ := List.find?_eq_some_iff_append.mp here
  simp only [Bool.and_eq_true, beq_iff_eq] at matching
  obtain ⟨rfl, -⟩ := matching
  have member := Std.ExtTreeMap.mem_toList_iff_getElem?_eq_some.mpr listed
  -- the sheets are searched in ascending order, and none before the one that is found matches
  have ordered := Std.ExtTreeMap.ordered_keys_toList (t := b.sheets)
  rw [split] at member ordered
  rcases List.mem_append.mp member with passed | rest
  · have refused := earlier _ passed
    simp [same] at refused
  · rcases List.mem_cons.mp rest with itself | later
    · cases itself
      exact Std.ReflCmp.isLE_rfl
    · have above := List.rel_of_pairwise_cons (List.pairwise_append.mp ordered).2.1 later
      exact Ordering.isLE_of_eq_lt above

/-- Two workbooks that agree on the sheets that a name stands for in them find the same sheet. -/
theorem sheetId?_congr
    (agree : ∀ s, b.sheetId? unit name = some s ∨ other.sheetId? unit name = some s →
      b.sheets[(⟨unit, s⟩ : Scoped)]? = other.sheets[(⟨unit, s⟩ : Scoped)]?) :
    b.sheetId? unit name = other.sheetId? unit name := by
  cases found : b.sheetId? unit name with
  | some s =>
    obtain ⟨shown, here, same⟩ := exists_of_sheetId? found
    have there := (agree s (.inl found)).symm.trans here
    obtain ⟨t, also⟩ := exists_sheetId? there same
    obtain ⟨given, second, matching⟩ := exists_of_sheetId? also
    have first := (agree t (.inr also)).trans second
    -- each of the two sheets comes no later than the other
    have below := isLE_of_sheetId? found first matching
    have above := isLE_of_sheetId? also there same
    have equal := Std.LawfulEqOrd.eq_of_compare (Std.OrientedCmp.isLE_antisymm below above)
    rw [also, (Scoped.mk.inj equal).2]
  | none =>
    cases also : other.sheetId? unit name with
    | none => rfl
    | some t =>
      obtain ⟨shown, second, matching⟩ := exists_of_sheetId? also
      obtain ⟨s, here⟩ := exists_sheetId? ((agree t (.inr also)).trans second) matching
      rw [found] at here
      cases here

end Workbook

/-! ### Edits and their marks -/

namespace Edit

variable {b : Workbook} {edit : Edit}

/-- Marks what an edit reports: its cell, the defined name, or the sheet with its new name. -/
def mark (m : DirtyMarks) : Edit → DirtyMarks
  | setValue a _ => m.markRegion (.ofAddress a)
  | setFormula a _ => m.markRegion (.ofAddress a)
  | defineName unit name _ => m.markName unit name
  | renameSheet unit sheet name => m.markRename unit sheet name

/-- The uses of a display name that find another sheet after an edit, though its mark does not say
so. -/
inductive Escapes (b : Workbook) : Edit → SheetNameUse → Prop
  /-- The sheet of the edited cell is new, and the name finds it now. -/
  | created {edit : Edit} {a : Address} {use : SheetNameUse} : edit.cell? = some a →
      a.onSheet ∉ b.sheets → use.unit = a.unit → use.sheet = some a.sheet → Escapes b edit use
  /-- The name stood for the renamed sheet, and finds another sheet now. -/
  | passedOn {unit sheet new next : String} {use : SheetNameUse} : use.unit = unit →
      b.sheetId? unit use.name = some sheet → use.sheet = some next → next ≠ sheet →
      Escapes b (.renameSheet unit sheet new) use

/-- The display name of a sheet changes by a rename, or by creating the sheet. -/
theorem sheets_apply_cases (b : Workbook) (edit : Edit) (key : Scoped) :
    (edit.apply b).sheets[key]? = b.sheets[key]? ∨ edit.sheet? = some key ∨
      ∃ a, edit.cell? = some a ∧ a.onSheet = key ∧ key ∉ b.sheets := by
  by_cases renamed : edit.sheet? = some key
  · exact .inr (.inl renamed)
  by_cases onSheet : edit.OnSheet b
  · exact .inl (sheets_apply onSheet renamed)
  simp only [OnSheet, not_forall] at onSheet
  obtain ⟨a, edited, new⟩ := onSheet
  by_cases here : a.onSheet = key
  · exact .inr (.inr ⟨a, edited, here, here ▸ new⟩)
  · have inserted : (edit.apply b).sheets = b.sheets.insertIfNew a.onSheet a.sheet := by
      cases edit with
      | setValue c v =>
        cases edited
        rfl
      | setFormula c f =>
        cases edited
        rfl
      | defineName unit name target => cases edited
      | renameSheet unit sheet name => cases edited
    left
    rw [inserted, Std.ExtTreeMap.getElem?_insertIfNew, if_neg]
    exact fun new => here (Std.LawfulEqOrd.eq_of_compare new.1)

/-- A use that a new display name does not touch finds the same sheet as before, unless it escapes. -/
theorem sheetId?_of_not_escapes {use : SheetNameUse}
    (resolved : use.sheet = (edit.apply b).sheetId? use.unit use.name) (kept : ¬edit.Escapes b use)
    (untouched : ∀ unit sheet new, edit = .renameSheet unit sheet new →
      ¬DirtyMarks.renameTouches ⟨unit, sheet⟩ new use = true) :
    (edit.apply b).sheetId? use.unit use.name = b.sheetId? use.unit use.name := by
  refine Workbook.sheetId?_congr fun s found => ?_
  rcases sheets_apply_cases b edit ⟨use.unit, s⟩ with same | renamed | created
  · exact same
  -- a renamed sheet was found, and an untouched use finds another one: the name is passed on
  · exfalso
    cases edit with
    | renameSheet unit sheet new =>
      cases renamed
      have outside := untouched _ _ new rfl
      simp only [DirtyMarks.renameTouches, beq_self_eq_true, Bool.true_and] at outside
      cases now : use.sheet with
      | none => simp [now] at outside
      | some next =>
        simp only [now, Bool.or_eq_true, beq_iff_eq, not_or] at outside
        rcases found with after | before
        · rw [← resolved, now] at after
          exact outside.1 (Option.some.inj after)
        · exact kept (.passedOn rfl before now outside.1)
    | setValue c v => cases renamed
    | setFormula c f => cases renamed
    | defineName unit name target => cases renamed
  -- a sheet that was not there cannot have been found before
  · exfalso
    obtain ⟨a, edited, here, new⟩ := created
    rcases found with after | before
    · refine kept (.created edited (here ▸ new) (congrArg Scoped.unit here).symm ?_)
      rw [resolved, after]
      exact congrArg (some ∘ Scoped.name) here.symm
    · obtain ⟨shown, listed, -⟩ := Workbook.exists_of_sheetId? before
      exact new (Std.ExtTreeMap.mem_iff_isSome_getElem?.mpr (listed ▸ rfl))

namespace Escapes

variable {use : SheetNameUse}

theorem exists_sheet (escapes : edit.Escapes b use) : ∃ s, use.sheet = some s := by
  cases escapes with
  | created _ _ _ now => exact ⟨_, now⟩
  | passedOn _ _ now _ => exact ⟨_, now⟩

/-- The sheet that is found instead of a renamed one showed the name before. -/
private theorem exists_shown {unit sheet new name next : String} (ne : next ≠ sheet)
    (now : ((renameSheet unit sheet new).apply b).sheetId? unit name = some next) :
    ∃ shown, b.sheets[(⟨unit, next⟩ : Scoped)]? = some shown ∧
      Text.sameIgnoringCase shown name = true := by
  obtain ⟨shown, listed, same⟩ := Workbook.exists_of_sheetId? now
  have other : (renameSheet unit sheet new).sheet? ≠ some ⟨unit, next⟩ := fun same =>
    ne (Scoped.mk.inj (Option.some.inj same)).2.symm
  have onSheet : (renameSheet unit sheet new).OnSheet b := nofun
  exact ⟨shown, (sheets_apply onSheet other).symm.trans listed, same⟩

/-- A new display name does not touch the uses that escape it. -/
theorem not_renameTouches {unit sheet new : String}
    (escapes : (renameSheet unit sheet new).Escapes b use)
    (resolved : use.sheet = ((renameSheet unit sheet new).apply b).sheetId? use.unit use.name) :
    ¬DirtyMarks.renameTouches ⟨unit, sheet⟩ new use = true := by
  cases escapes with
  | created edited => cases edited
  | @passedOn _ _ _ next _ here before now ne =>
    subst here
    simp only [DirtyMarks.renameTouches, now, beq_self_eq_true, Bool.true_and, Bool.or_eq_true,
      beq_iff_eq, not_or]
    refine ⟨ne, fun same => ne ?_⟩
    have found := resolved.symm.trans now
    obtain ⟨shown, listed, -⟩ := Workbook.exists_of_sheetId? before
    have there : b.sheets.contains ⟨use.unit, sheet⟩ = true :=
      Std.ExtTreeMap.contains_iff_mem.mpr (Std.ExtTreeMap.mem_iff_isSome_getElem?.mpr (listed ▸ rfl))
    have renamed : ((renameSheet use.unit sheet new).apply b).sheets[(⟨use.unit, sheet⟩ : Scoped)]? =
        some new := by
      rw [apply, Workbook.renameSheet, if_pos there]
      exact Std.ExtTreeMap.getElem?_insert_self
    -- if the new name is the one in use, both sheets show it before and after
    obtain ⟨other, second, showing⟩ := exists_shown ne found
    have matching : Text.sameIgnoringCase new use.name = true := by
      rwa [Text.sameIgnoringCase, BEq.comm]
    have below := Workbook.isLE_of_sheetId? before second showing
    have above := Workbook.isLE_of_sheetId? found renamed matching
    have equal := Std.LawfulEqOrd.eq_of_compare (Std.OrientedCmp.isLE_antisymm above below)
    exact (Scoped.mk.inj equal).2

end Escapes

/-- Where display names are distinct and cells are edited on sheets that are there, no use escapes. -/
theorem not_escapes_of_distinct {use : SheetNameUse} (onSheet : edit.OnSheet b)
    (distinct : b.DistinctNames)
    (resolved : use.sheet = (edit.apply b).sheetId? use.unit use.name) : ¬edit.Escapes b use := by
  intro escapes
  cases escapes with
  | created edited new => exact new (onSheet _ edited)
  | @passedOn _ sheet new next _ here before now ne =>
    subst here
    obtain ⟨shown, listed, matching⟩ := Workbook.exists_of_sheetId? before
    obtain ⟨other, second, showing⟩ := Escapes.exists_shown ne (resolved.symm.trans now)
    have same := Workbook.sameIgnoringCase_trans showing matching
    exact ne (Scoped.mk.inj (distinct _ _ _ _ second listed rfl same)).2

theorem touches_mark_of_name {v : Vertex} {n : Scoped} (m : DirtyMarks) (defined : edit.name? = some n)
    (used : n ∈ v.precedents.names) : (edit.mark m).touches v = true := by
  cases edit with
  | defineName unit name target =>
    cases defined
    exact (m.touches_markName unit name v).mpr (.inr used)
  | setValue a x => cases defined
  | setFormula a f => cases defined
  | renameSheet unit sheet new => cases defined

theorem touches_mark_of_rename {v : Vertex} {unit sheet new : String} (m : DirtyMarks)
    (renamed : v.RenamedBy ⟨unit, sheet⟩ new) :
    ((renameSheet unit sheet new).mark m).touches v = true := by
  refine DirtyMarks.touches_iff.mpr (.inr (.inr (.inl ⟨⟨unit, sheet⟩, new, ?_, renamed⟩)))
  exact Std.ExtTreeMap.getElem?_insert_self

/-- After an edit, every formula whose references stand for other cells than before is among the
seeds of a tracker that carries the mark of the edit, unless it uses a display name that escapes. -/
theorem mem_seeds_of_changed (b : Workbook) (edit : Edit) (m : DirtyMarks) (lib : Library)
    {a : Address} {f : CellFormula} (formula : (edit.apply b).formula? a = some f)
    (changed : ¬f.SamePlaces (edit.apply b) b a) :
    let graph := DependencyGraph.ofWorkbook (edit.apply b) lib
    ∃ v, graph.vertexOf? a = some v ∧ (v ∈ (edit.mark m).seeds graph ∨
      ∃ use ∈ (f.precedents (edit.apply b) a).sheetNames, edit.Escapes b use) := by
  intro graph
  obtain ⟨v, found⟩ := DependencyGraph.exists_vertexAt lib formula
  refine ⟨v, DependencyGraph.vertexOf?_eq_some_iff.mpr ⟨_, found, rfl⟩, ?_⟩
  -- a formula that no mark touches, and of which no use escapes, finds what it found before
  by_contra neither
  obtain ⟨notSeed, kept⟩ := not_or.mp neither
  have untouched : ¬(edit.mark m).touches (DependencyGraph.vertexAt (edit.apply b) lib a f) = true :=
    fun touched => notSeed (DirtyMarks.mem_seeds.mpr ⟨_, found, touched⟩)
  refine changed (CellFormula.samePlaces_of_resolved (fun n used => ?_) fun use used => ?_)
  · exact names_apply fun defined => untouched (touches_mark_of_name m defined used)
  · refine sheetId?_of_not_escapes (CellFormula.sheet_of_mem_sheetNames used) ?_ ?_
    · exact fun escapes => kept ⟨use, used, escapes⟩
    · rintro unit sheet new rfl touched
      exact untouched (touches_mark_of_rename m ⟨use, used, touched⟩)

/-- A formula that no longer finds a sheet under its old name is a seed after the rename. -/
theorem lost_name_is_seeded :
    let here : Address := ⟨"u", "r", 0, 0⟩
    let ref : Reference := .cell ⟨none, some (.displayName "D")⟩ 0 0
    let b := (Workbook.empty.addSheet "u" "s" "D").setFormula here ⟨.reference ref, []⟩
    let edit : Edit := .renameSheet "u" "s" "E"
    0 ∈ (edit.mark .empty).seeds (.ofWorkbook (edit.apply b) .empty) := by
  intro here ref b edit
  have elsewhere : edit.cell? ≠ some here := nofun
  have formula : (edit.apply b).formula? here = some ⟨.reference ref, []⟩ :=
    (contents_apply elsewhere).1.trans Std.ExtTreeMap.getElem?_insert_self
  have before : ref.region? b here = some ⟨"u", "s", .ofPosition 0 0⟩ := by decide +kernel
  have after : ref.region? (edit.apply b) here = none := by decide +kernel
  have changed : ¬CellFormula.SamePlaces ⟨.reference ref, []⟩ (edit.apply b) b here := by
    intro same
    have equal := same.regions ref (by simp [Formula.references, Formula.subtrees]) ref
      (List.mem_singleton_self _)
    rw [before, after] at equal
    cases equal
  have number : (DependencyGraph.ofWorkbook (edit.apply b) .empty).vertexOf? here = some 0 := by
    decide +kernel
  have uses : (CellFormula.precedents ⟨.reference ref, []⟩ (edit.apply b) here).sheetNames =
      [⟨"u", "D", none⟩] := by decide +kernel
  obtain ⟨v, same, seed | ⟨use, used, escapes⟩⟩ :=
    mem_seeds_of_changed b edit .empty .empty formula changed
  · rw [number] at same
    exact Option.some.inj same ▸ seed
  · rw [uses, List.mem_singleton] at used
    subst used
    obtain ⟨s, now⟩ := escapes.exists_sheet
    cases now

/-- Where two sheets show the same name, the formula that found the first one finds the second one
once the first is renamed, and is no seed. -/
theorem passed_on_name_is_missed :
    let here : Address := ⟨"u", "r", 0, 0⟩
    let ref : Reference := .cell ⟨none, some (.displayName "D")⟩ 0 0
    let b := ((Workbook.empty.addSheet "u" "s" "D").addSheet "u" "t" "D").setFormula here
      ⟨.reference ref, []⟩
    let edit : Edit := .renameSheet "u" "s" "E"
    ref.region? b here = some ⟨"u", "s", .ofPosition 0 0⟩ ∧
      ref.region? (edit.apply b) here = some ⟨"u", "t", .ofPosition 0 0⟩ ∧
      (DependencyGraph.ofWorkbook (edit.apply b) .empty).vertexOf? here = some 0 ∧
      (edit.mark .empty).seeds (.ofWorkbook (edit.apply b) .empty) = [] := by
  decide +kernel

/-- A formula that finds a sheet which an edit has created is no seed if it reads another cell of that
sheet than the edited one. -/
example :
    let here : Address := ⟨"u", "r", 0, 0⟩
    let ref : Reference := .cell ⟨none, some (.displayName "D")⟩ 1 1
    let b := Workbook.empty.setFormula here ⟨.reference ref, []⟩
    let edit : Edit := .setValue ⟨"u", "D", 0, 0⟩ (.boolean true)
    ref.region? b here = none ∧
      ref.region? (edit.apply b) here = some ⟨"u", "D", .ofPosition 1 1⟩ ∧
      (DependencyGraph.ofWorkbook (edit.apply b) .empty).vertexOf? here = some 0 ∧
      (edit.mark .empty).seeds (.ofWorkbook (edit.apply b) .empty) = [] := by
  decide +kernel

end Edit

end Recalc
