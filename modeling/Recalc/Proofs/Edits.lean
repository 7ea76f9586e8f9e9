import Recalc.Calculation.Request
import Recalc.Proofs.Graph
import Recalc.Proofs.Marks
import Recalc.Proofs.Reading
import Recalc.Proofs.WriteBack

/-!
# Edits

An edit changes the contents of one cell, one defined name, or the display name of one sheet. What a
batch of edits does not mention stays as it was (`contents_applyAll`, `names_applyAll`,
`sheets_applyAll`), and a formula that no announcement of the batch touches finds the same cells as
before (`samePlaces_of_untouched`). A request that is told of each edit in turn announces them all
(`announces_announceAll`).
-/
namespace Recalc

/-- A change to a workbook. -/
inductive Edit where
  | setValue (a : Address) (v : Value)
  | setFormula (a : Address) (f : CellFormula)
  | defineName (unit name : String) (target : Reference)
  | renameSheet (unit sheet name : String)

namespace Edit

def apply (b : Workbook) : Edit → Workbook
  | setValue a v => b.setValue a v
  | setFormula a f => b.setFormula a f
  | defineName unit name target => b.defineName unit name target
  | renameSheet unit sheet name => b.renameSheet unit sheet name

/-- Makes changes in turn. -/
def applyAll (b : Workbook) (edits : List Edit) : Workbook :=
  edits.foldl apply b

/-- The cell whose contents change. -/
def cell? : Edit → Option Address
  | setValue a _ => some a
  | setFormula a _ => some a
  | _ => none

/-- The defined name that changes, in upper case. -/
def name? : Edit → Option Scoped
  | defineName unit name _ => some ⟨unit, Text.asciiUpper name⟩
  | _ => none

/-- The sheet that gets another display name. -/
def sheet? : Edit → Option Scoped
  | renameSheet unit sheet _ => some ⟨unit, sheet⟩
  | _ => none

/-- Whether the cell of an edit lies on a sheet that is there. -/
def OnSheet (b : Workbook) (edit : Edit) : Prop :=
  ∀ a, edit.cell? = some a → a.onSheet ∈ b.sheets

/-! ### What one edit leaves alone -/

variable {b : Workbook} {edit : Edit}

theorem contents_apply {a : Address} (other : edit.cell? ≠ some a) :
    (edit.apply b).formula? a = b.formula? a ∧ (edit.apply b).value a = b.value a := by
  cases edit with
  | setValue c v =>
    have ne : c ≠ a := fun same => other (congrArg some same)
    constructor
    · show (b.formulas.erase c)[a]? = b.formulas[a]?
      rw [Std.ExtTreeMap.getElem?_erase, if_neg fun same => ne (Std.LawfulEqOrd.eq_of_compare same)]
    · show ((if v.isBlank then b.values.erase c else b.values.insert c v)[a]?).getD .blank = _
      split
      · rw [Std.ExtTreeMap.getElem?_erase, if_neg fun same => ne (Std.LawfulEqOrd.eq_of_compare same)]
        rfl
      · rw [SortedMap.getElem?_insert, if_neg ne]
        rfl
  | setFormula c f =>
    have ne : c ≠ a := fun same => other (congrArg some same)
    refine ⟨?_, rfl⟩
    show (b.formulas.insert c f)[a]? = b.formulas[a]?
    rw [SortedMap.getElem?_insert, if_neg ne]
  | defineName unit name target => exact ⟨rfl, rfl⟩
  | renameSheet unit sheet name =>
    simp only [apply, Workbook.renameSheet]
    split
    · exact ⟨rfl, rfl⟩
    · exact ⟨rfl, rfl⟩

theorem names_apply {n : Scoped} (other : edit.name? ≠ some n) :
    (edit.apply b).names[n]? = b.names[n]? := by
  cases edit with
  | setValue c v => rfl
  | setFormula c f => rfl
  | defineName unit name target =>
    show (b.names.insert ⟨unit, Text.asciiUpper name⟩ target)[n]? = b.names[n]?
    rw [SortedMap.getElem?_insert, if_neg fun same => other (congrArg some same)]
  | renameSheet unit sheet name =>
    simp only [apply, Workbook.renameSheet]
    split
    · rfl
    · rfl

theorem sheets_apply {sheet : Scoped} (onSheet : edit.OnSheet b) (other : edit.sheet? ≠ some sheet) :
    (edit.apply b).sheets[sheet]? = b.sheets[sheet]? := by
  cases edit with
  | setValue c v => exact congrArg (·[sheet]?) (Workbook.sheets_ensureSheet (onSheet c rfl))
  | setFormula c f => exact congrArg (·[sheet]?) (Workbook.sheets_ensureSheet (onSheet c rfl))
  | defineName unit name target => rfl
  | renameSheet unit id name =>
    simp only [apply, Workbook.renameSheet]
    split
    · show (b.sheets.insert ⟨unit, id⟩ name)[sheet]? = b.sheets[sheet]?
      rw [SortedMap.getElem?_insert, if_neg fun same => other (congrArg some same)]
    · rfl

theorem mem_sheets_apply {sheet : Scoped} (onSheet : edit.OnSheet b) :
    sheet ∈ (edit.apply b).sheets ↔ sheet ∈ b.sheets := by
  by_cases other : edit.sheet? = some sheet
  · cases edit with
    | renameSheet unit id name =>
      cases other
      simp only [apply, Workbook.renameSheet]
      split
      next known =>
        exact ⟨fun _ => Std.ExtTreeMap.mem_iff_contains.mpr known,
          fun _ => Std.ExtTreeMap.mem_insert_self⟩
      next => rfl
    | setValue c v => cases other
    | setFormula c f => cases other
    | defineName unit name target => cases other
  · rw [Std.ExtTreeMap.mem_iff_isSome_getElem?, Std.ExtTreeMap.mem_iff_isSome_getElem?,
      sheets_apply onSheet other]

/-! ### What a batch leaves alone -/

variable {edits : List Edit}

theorem contents_applyAll {a : Address} (other : ∀ edit ∈ edits, edit.cell? ≠ some a) :
    (applyAll b edits).formula? a = b.formula? a ∧ (applyAll b edits).value a = b.value a :=
  ⟨foldl_kept (fun b : Workbook => b.formula? a)
      (fun _ edit listed => (contents_apply (other edit listed)).1) b,
    foldl_kept (fun b : Workbook => b.value a)
      (fun _ edit listed => (contents_apply (other edit listed)).2) b⟩

theorem names_applyAll {n : Scoped} (other : ∀ edit ∈ edits, edit.name? ≠ some n) :
    (applyAll b edits).names[n]? = b.names[n]? :=
  foldl_kept (fun b : Workbook => b.names[n]?) (fun _ edit listed => names_apply (other edit listed)) b

theorem onSheet_apply {next : Edit} (onSheet : edit.OnSheet b) (also : next.OnSheet b) :
    next.OnSheet (edit.apply b) :=
  fun a here => (mem_sheets_apply onSheet).mpr (also a here)

theorem sheets_applyAll {sheet : Scoped} (onSheets : ∀ edit ∈ edits, edit.OnSheet b)
    (other : ∀ edit ∈ edits, edit.sheet? ≠ some sheet) :
    (applyAll b edits).sheets[sheet]? = b.sheets[sheet]? := by
  induction edits generalizing b with
  | nil => rfl
  | cons edit rest ih =>
    have first := onSheets edit List.mem_cons_self
    refine (ih (b := edit.apply b) (fun next later => ?_) fun next later => ?_).trans
      (sheets_apply first (other edit List.mem_cons_self))
    · exact onSheet_apply first (onSheets next (List.mem_cons_of_mem _ later))
    · exact other next (List.mem_cons_of_mem _ later)

theorem mem_sheets_applyAll {sheet : Scoped} (onSheets : ∀ edit ∈ edits, edit.OnSheet b) :
    sheet ∈ (applyAll b edits).sheets ↔ sheet ∈ b.sheets := by
  induction edits generalizing b with
  | nil => rfl
  | cons edit rest ih =>
    have first := onSheets edit List.mem_cons_self
    refine (ih (b := edit.apply b) fun next later => ?_).trans (mem_sheets_apply first)
    exact onSheet_apply first (onSheets next (List.mem_cons_of_mem _ later))

end Edit

/-! ### Sheets by display name -/

namespace Workbook

variable {b : Workbook} {unit name : String}

/-- Whether no two sheets of a unit have the same display name up to the case of ASCII letters. -/
def DistinctNames (b : Workbook) : Prop :=
  ∀ key other : Scoped, ∀ shown also : String, b.sheets[key]? = some shown →
    b.sheets[other]? = some also → key.unit = other.unit →
    Text.sameIgnoringCase shown also = true → key = other

theorem exists_of_sheetId? {sheet : String} (found : b.sheetId? unit name = some sheet) :
    ∃ shown, b.sheets[(⟨unit, sheet⟩ : Scoped)]? = some shown ∧
      Text.sameIgnoringCase shown name = true := by
  obtain ⟨⟨⟨u, s⟩, shown⟩, first, rfl⟩ := Option.map_eq_some_iff.mp found
  have listed := Std.ExtTreeMap.mem_toList_iff_getElem?_eq_some.mp (List.mem_of_find?_eq_some first)
  have here := List.find?_some first
  simp only [Bool.and_eq_true, beq_iff_eq] at here
  obtain ⟨rfl, same⟩ := here
  exact ⟨shown, listed, same⟩

theorem exists_sheetId? {sheet shown : String}
    (listed : b.sheets[(⟨unit, sheet⟩ : Scoped)]? = some shown)
    (same : Text.sameIgnoringCase shown name = true) : ∃ s, b.sheetId? unit name = some s := by
  cases found : b.sheetId? unit name with
  | some s => exact ⟨s, rfl⟩
  | none =>
    have absent := List.find?_eq_none.mp (Option.map_eq_none_iff.mp found) _
      (Std.ExtTreeMap.mem_toList_iff_getElem?_eq_some.mpr listed)
    simp [same] at absent

theorem sameIgnoringCase_trans {r s t : String} (first : Text.sameIgnoringCase r s = true)
    (second : Text.sameIgnoringCase t s = true) : Text.sameIgnoringCase r t = true := by
  simp only [Text.sameIgnoringCase, beq_iff_eq] at first second ⊢
  exact first.trans second.symm

/-- Among distinct names, a name stands for the sheet that shows it. -/
theorem sheetId?_of_distinct (distinct : b.DistinctNames) {sheet shown : String}
    (listed : b.sheets[(⟨unit, sheet⟩ : Scoped)]? = some shown)
    (same : Text.sameIgnoringCase shown name = true) : b.sheetId? unit name = some sheet := by
  obtain ⟨s, found⟩ := exists_sheetId? listed same
  obtain ⟨also, there, too⟩ := exists_of_sheetId? found
  have equal := distinct _ _ _ _ listed there rfl (sameIgnoringCase_trans same too)
  rw [found, (Scoped.mk.inj equal).2]

end Workbook

/-! ### Announcements -/

/-- A request that tells the cells, the defined names and the new display names that changed. -/
structure Request.Announces (q : Request) (edits : List Edit) (after : Workbook) : Prop where
  cells : ∀ edit ∈ edits, ∀ a, edit.cell? = some a → Region.ofAddress a ∈ q.regions
  names : ∀ edit ∈ edits, ∀ n, edit.name? = some n → q.MarksName n
  sheets : ∀ edit ∈ edits, ∀ sheet ∈ after.sheets, edit.sheet? = some sheet →
    q.newName? sheet = after.sheets[sheet]?

theorem Request.marksName_withName (q : Request) (unit name : String) (n : Scoped) :
    (q.withName unit name).MarksName n ↔
      q.MarksName n ∨ (⟨unit, Text.asciiUpper name⟩ : Scoped) = n := by
  obtain ⟨u, m⟩ := n
  simp only [MarksName, withName, SortedMap.getElem?_update, Scoped.mk.injEq]
  by_cases here : unit = u
  · subst here
    simp only [if_true, Option.some.injEq, exists_eq_left', Std.ExtTreeSet.mem_insert,
      Std.LawfulEqOrd.compare_eq_iff_eq, true_and]
    constructor
    -- names are marked in upper case and compared in upper case
    · rintro ⟨written, rfl | earlier, upper⟩
      · exact .inr ((Text.asciiUpper_asciiUpper name).symm.trans upper)
      · cases found : q.names[unit]? with
        | none => simp [found] at earlier
        | some names => exact .inl ⟨names, rfl, written, by simpa [found] using earlier, upper⟩
    · rintro (⟨names, found, written, member, upper⟩ | upper)
      · exact ⟨written, .inr (by simpa [found] using member), upper⟩
      · exact ⟨_, .inl rfl, (Text.asciiUpper_asciiUpper name).trans upper⟩
  · simp only [here, if_false, false_and, or_false]

theorem Request.newName?_withRename (q : Request) (unit sheet name : String) (key : Scoped) :
    (q.withRename unit sheet name).newName? key =
      if (⟨unit, sheet⟩ : Scoped) = key then some name else q.newName? key := by
  obtain ⟨u, s⟩ := key
  simp only [newName?, withRename, SortedMap.getElem?_update, Scoped.mk.injEq]
  by_cases here : unit = u
  · subst here
    simp only [if_true, Option.bind_some, SortedMap.getElem?_insert, true_and]
    cases q.renames[unit]? <;> simp
  · simp only [here, if_false, false_and]

/-- Tells a request of a change. -/
def Edit.announce (q : Request) : Edit → Request
  | setValue a _ => q.withRegion (.ofAddress a)
  | setFormula a _ => q.withRegion (.ofAddress a)
  | defineName unit name _ => q.withName unit name
  | renameSheet unit sheet name => q.withRename unit sheet name

/-- Tells a request of changes in turn. -/
def Edit.announceAll (q : Request) (edits : List Edit) : Request :=
  edits.foldl announce q

section Announcing

variable {b : Workbook} {q : Request} {edit : Edit} {edits before : List Edit}

theorem Edit.regions_announce {r : Region} (earlier : r ∈ q.regions) :
    r ∈ (edit.announce q).regions := by
  cases edit with
  | setValue c v => exact List.mem_append_left _ earlier
  | setFormula c f => exact List.mem_append_left _ earlier
  | defineName unit name target => exact earlier
  | renameSheet unit sheet name => exact earlier

theorem Edit.marksName_announce (q : Request) (edit : Edit) (n : Scoped) :
    (edit.announce q).MarksName n ↔ q.MarksName n ∨ edit.name? = some n := by
  cases edit with
  | setValue c v => simp [announce, name?, Request.MarksName, Request.withRegion]
  | setFormula c f => simp [announce, name?, Request.MarksName, Request.withRegion]
  | defineName unit name target =>
    rw [announce, q.marksName_withName, name?, Option.some.injEq]
  | renameSheet unit sheet name => simp [announce, name?, Request.MarksName, Request.withRename]

theorem Edit.newName?_announce {sheet : Scoped} (other : edit.sheet? ≠ some sheet) :
    (edit.announce q).newName? sheet = q.newName? sheet := by
  cases edit with
  | setValue c v => rfl
  | setFormula c f => rfl
  | defineName unit name target => rfl
  | renameSheet unit id name =>
    rw [announce, q.newName?_withRename, if_neg fun same => other (congrArg some same)]

/-- The last new name of a sheet that is there is the one that it shows. -/
theorem Edit.newName?_announce_self {sheet : Scoped} (renamed : edit.sheet? = some sheet)
    (there : sheet ∈ b.sheets) :
    (edit.announce q).newName? sheet = (edit.apply b).sheets[sheet]? := by
  cases edit with
  | setValue c v => cases renamed
  | setFormula c f => cases renamed
  | defineName unit name target => cases renamed
  | renameSheet unit id name =>
    cases renamed
    rw [announce, q.newName?_withRename, if_pos rfl, apply, Workbook.renameSheet,
      if_pos (Std.ExtTreeMap.mem_iff_contains.mp there)]
    exact Std.ExtTreeMap.getElem?_insert_self.symm

/-- A request that tells of some changes still does after one more of which it is told as well. -/
theorem Request.Announces.announce (announces : q.Announces before b) (onSheet : edit.OnSheet b) :
    (edit.announce q).Announces (before ++ [edit]) (edit.apply b) where
  cells e listed a changed := by
    rcases List.mem_append.mp listed with earlier | last
    · exact Edit.regions_announce (announces.cells e earlier a changed)
    · obtain rfl := List.mem_singleton.mp last
      cases e with
      | setValue c v =>
        cases changed
        exact List.mem_append_right _ (List.mem_singleton_self _)
      | setFormula c f =>
        cases changed
        exact List.mem_append_right _ (List.mem_singleton_self _)
      | defineName unit name target => cases changed
      | renameSheet unit sheet name => cases changed
  names e listed n changed := by
    rw [Edit.marksName_announce]
    rcases List.mem_append.mp listed with earlier | last
    · exact .inl (announces.names e earlier n changed)
    · exact .inr (List.mem_singleton.mp last ▸ changed)
  sheets e listed sheet there changed := by
    have known := (Edit.mem_sheets_apply onSheet).mp there
    -- the last change of a sheet decides
    by_cases renamed : edit.sheet? = some sheet
    · exact Edit.newName?_announce_self renamed known
    · rw [Edit.newName?_announce renamed, Edit.sheets_apply onSheet renamed]
      rcases List.mem_append.mp listed with earlier | last
      · exact announces.sheets e earlier sheet known changed
      · exact absurd (List.mem_singleton.mp last ▸ changed) renamed

theorem Request.Announces.announceAll (announces : q.Announces before b)
    (onSheets : ∀ edit ∈ edits, edit.OnSheet b) :
    (Edit.announceAll q edits).Announces (before ++ edits) (Edit.applyAll b edits) := by
  induction edits generalizing q b before with
  | nil => simpa [Edit.announceAll, Edit.applyAll] using announces
  | cons edit rest ih =>
    have first := onSheets edit List.mem_cons_self
    have later := ih (announces.announce first) fun next later =>
      Edit.onSheet_apply first (onSheets next (List.mem_cons_of_mem _ later))
    rwa [List.append_assoc] at later

/-- Telling a request of every change in turn announces them all. -/
theorem Edit.announces_announceAll (q : Request) (onSheets : ∀ edit ∈ edits, edit.OnSheet b) :
    (announceAll q edits).Announces edits (applyAll b edits) := by
  have none : q.Announces [] b := ⟨nofun, nofun, nofun⟩
  exact none.announceAll onSheets

end Announcing

section Untouched

variable {b : Workbook} {edits : List Edit} {q : Request}

/-- A new display name touches every use that could have found the sheet by its name before or
after. -/
theorem sheetId?_of_untouched (onSheets : ∀ edit ∈ edits, edit.OnSheet b) (distinct : b.DistinctNames)
    (announces : q.Announces edits (Edit.applyAll b edits)) {unit name : String}
    (untouched : ∀ sheet new, q.newName? sheet = some new → ¬DirtyMarks.renameTouches sheet new
      ⟨unit, name, (Edit.applyAll b edits).sheetId? unit name⟩ = true) :
    (Edit.applyAll b edits).sheetId? unit name = b.sheetId? unit name := by
  -- a sheet whose new name would touch the use was not renamed, for its name was announced
  have kept : ∀ sheet, (∀ new, DirtyMarks.renameTouches sheet new
      ⟨unit, name, (Edit.applyAll b edits).sheetId? unit name⟩ = true) →
      (Edit.applyAll b edits).sheets[sheet]? = b.sheets[sheet]? := by
    intro sheet touched
    by_cases there : sheet ∈ (Edit.applyAll b edits).sheets
    · refine Edit.sheets_applyAll onSheets fun edit listed renamed => ?_
      have given := announces.sheets edit listed sheet there renamed
      rw [Std.ExtTreeMap.getElem?_eq_some_getElem there] at given
      exact untouched sheet _ given (touched _)
    · have before : sheet ∉ b.sheets := mt (Edit.mem_sheets_applyAll onSheets).mpr there
      rw [Std.ExtTreeMap.getElem?_eq_none there, Std.ExtTreeMap.getElem?_eq_none before]
  cases found : (Edit.applyAll b edits).sheetId? unit name with
  | some s =>
    rw [found] at kept
    obtain ⟨shown, listed, same⟩ := Workbook.exists_of_sheetId? found
    -- the sheet that is found now showed the name before, and no other sheet did
    rw [kept ⟨unit, s⟩ fun new => by simp [DirtyMarks.renameTouches]] at listed
    exact (Workbook.sheetId?_of_distinct distinct listed same).symm
  | none =>
    rw [found] at kept
    -- the sheet that was found before would still show the name
    cases before : b.sheetId? unit name with
    | none => rfl
    | some s =>
      obtain ⟨shown, listed, same⟩ := Workbook.exists_of_sheetId? before
      rw [← kept ⟨unit, s⟩ fun new => by simp [DirtyMarks.renameTouches]] at listed
      obtain ⟨t, still⟩ := Workbook.exists_sheetId? listed same
      rw [found] at still
      cases still

variable {lib : Library} {f : CellFormula} {a : Address}

/-- A formula that an announcement of the changes does not touch finds the same cells as before. -/
theorem samePlaces_of_untouched (onSheets : ∀ edit ∈ edits, edit.OnSheet b)
    (distinct : b.DistinctNames) (announces : q.Announces edits (Edit.applyAll b edits))
    (untouched : ¬q.Touches (DependencyGraph.vertexAt (Edit.applyAll b edits) lib a f)) :
    f.SamePlaces (Edit.applyAll b edits) b a := by
  refine CellFormula.samePlaces_of_resolved (fun n used => ?_) (fun use used => ?_)
  · refine Edit.names_applyAll fun edit listed defined => untouched ?_
    exact .name (announces.names edit listed n defined) used
  · refine sheetId?_of_untouched onSheets distinct announces fun s new marked touched => untouched ?_
    rw [← CellFormula.sheet_of_mem_sheetNames used] at touched
    exact .rename marked ⟨use, used, touched⟩

end Untouched

end Recalc
