import Recalc.Proofs.Marking

/-!
# Sets of marks

What is dirty depends only on which marks have been made. As long as no sheet is given two different
names, a formula is touched exactly if one of the marks on its own touches it (`touches_markAll`). So
neither the order of the marks nor their number matters, nor do the regions that are dropped because an
earlier one covers them (`marks_form_set`).
-/
namespace Recalc

namespace Mark

/-- Whether a mark on its own touches a formula. -/
def Touches (v : Vertex) : Mark → Prop
  | region r => v.MeetsRegion r
  | rename unit sheet newName => v.RenamedBy ⟨unit, sheet⟩ newName
  | name unit n => (⟨unit, Text.asciiUpper n⟩ : Scoped) ∈ v.precedents.names
  | feature key => key ∈ v.precedents.features
  | volatiles => v.isVolatile = true

/-- Whether no sheet is given two names that differ in more than case. -/
def Agree (marks : List Mark) : Prop :=
  ∀ unit sheet first second, rename unit sheet first ∈ marks → rename unit sheet second ∈ marks →
    Text.sameIgnoringCase first second = true

def region? : Mark → Option Region
  | region r => some r
  | _ => none

end Mark

namespace DirtyMarks

/-- Makes marks one after the other. -/
def markAll (m : DirtyMarks) (marks : List Mark) : DirtyMarks :=
  marks.foldl mark m

/-- Whether a mark gives no sheet another name than the one it is marked with. -/
def Agrees (m : DirtyMarks) (mark : Mark) : Prop :=
  ∀ unit sheet old new, m.renames[(⟨unit, sheet⟩ : Scoped)]? = some old →
    mark = .rename unit sheet new → Text.sameIgnoringCase old new = true

variable {m : DirtyMarks} {mark : Mark} {marks : List Mark} {v : Vertex}

/-! ### One mark -/

theorem touches_mark_iff (agrees : m.Agrees mark) :
    (m.mark mark).touches v = true ↔ m.touches v = true ∨ mark.Touches v := by
  cases mark with
  | region r => exact m.touches_markRegion r v
  | rename unit sheet new =>
    exact touches_markRename (fun old marked => agrees unit sheet old new marked rfl) v
  | name unit n => exact m.touches_markName unit n v
  | feature key => exact m.touches_markFeature key v
  | volatiles => exact m.touches_markVolatiles v

/-- A rename is marked before or is made by the mark. -/
theorem renames_mark {key : Scoped} {given : String}
    (marked : (m.mark mark).renames[key]? = some given) :
    m.renames[key]? = some given ∨ mark = .rename key.unit key.name given := by
  cases mark with
  | region r =>
    simp only [DirtyMarks.mark, markRegion] at marked
    split at marked <;> exact .inl marked
  | rename unit sheet new =>
    simp only [DirtyMarks.mark, markRename, SortedMap.getElem?_insert] at marked
    split at marked
    next here =>
      cases here
      cases marked
      exact .inr rfl
    next => exact .inl marked
  | name unit n => exact .inl marked
  | feature key => exact .inl marked
  | volatiles => exact .inl marked

theorem meets_mark (m : DirtyMarks) (mark : Mark) (v : Vertex) :
    (∃ r ∈ (m.mark mark).regions, v.MeetsRegion r) ↔
      (∃ r ∈ m.regions, v.MeetsRegion r) ∨ ∃ r, mark.region? = some r ∧ v.MeetsRegion r := by
  cases mark with
  | region r => simp [DirtyMarks.mark, meets_markRegion, Mark.region?]
  | rename unit sheet new => simp [DirtyMarks.mark, markRename, Mark.region?]
  | name unit n => simp [DirtyMarks.mark, markName, Mark.region?]
  | feature key => simp [DirtyMarks.mark, markFeature, Mark.region?]
  | volatiles => simp [DirtyMarks.mark, markVolatiles, Mark.region?]

/-! ### All marks -/

theorem touches_markAll (agree : Mark.Agree marks) (agrees : ∀ k ∈ marks, m.Agrees k) :
    (m.markAll marks).touches v = true ↔ m.touches v = true ∨ ∃ k ∈ marks, k.Touches v := by
  induction marks generalizing m with
  | nil => simp [markAll]
  | cons k rest ih =>
    -- a name that is marked now was marked before or has just been given by `k`
    have later : ∀ next ∈ rest, (m.mark k).Agrees next := by
      intro next listed unit sheet old new marked renamed
      subst renamed
      rcases renames_mark marked with before | rfl
      · exact agrees _ (List.mem_cons_of_mem k listed) unit sheet old new before rfl
      · exact agree unit sheet old new List.mem_cons_self (List.mem_cons_of_mem _ listed)
    have rest := ih (fun unit sheet first second one two =>
      agree unit sheet first second (List.mem_cons_of_mem k one) (List.mem_cons_of_mem k two)) later
    rw [markAll, List.foldl_cons, ← markAll, rest, touches_mark_iff (agrees k List.mem_cons_self),
      or_assoc]
    simp only [List.mem_cons, exists_eq_or_imp]

theorem agrees_empty (mark : Mark) : empty.Agrees mark :=
  fun _ _ _ _ marked => by simp [empty] at marked

theorem touches_markAll_empty (agree : Mark.Agree marks) :
    (empty.markAll marks).touches v = true ↔ ∃ k ∈ marks, k.Touches v := by
  simp [touches_markAll agree fun k _ => agrees_empty k]

theorem touches_mark_empty : (empty.mark mark).touches v = true ↔ mark.Touches v := by
  simp [touches_mark_iff (agrees_empty mark)]

/-- Dropping regions that are covered does not change what the marks touch. -/
theorem touches_undropped (marks : List Mark) (v : Vertex) :
    { empty.markAll marks with regions := marks.filterMap Mark.region? }.touches v =
      (empty.markAll marks).touches v := by
  -- only the regions differ, and those that are left out meet nothing new
  have meets : (∃ r ∈ (empty.markAll marks).regions, v.MeetsRegion r) ↔
      ∃ r ∈ marks.filterMap Mark.region?, v.MeetsRegion r := by
    have all := foldl_iff (fun m : DirtyMarks => ∃ r ∈ m.regions, v.MeetsRegion r) _
      (fun m k => meets_mark m k v) marks empty
    rw [markAll, all]
    simp only [empty, List.not_mem_nil, false_and, exists_false, false_or, List.mem_filterMap]
    grind
  rw [Bool.eq_iff_iff, touches_iff, touches_iff, meets]

/-! ### What is dirty -/

/-- Whether two marks expand to the same formulas in the same order. -/
structure SameExpansion (m other : DirtyMarks) (g : DependencyGraph) : Prop where
  seeds : m.seeds g = other.seeds g
  affected : m.affected g = other.affected g
  schedule : m.schedule g = other.schedule g

theorem SameExpansion.of_touches {other : DirtyMarks} (same : ∀ v, m.touches v = other.touches v)
    (g : DependencyGraph) : SameExpansion m other g := by
  have seeds : m.seeds g = other.seeds g := congrArg g.select (funext same)
  have affected : m.affected g = other.affected g := congrArg g.readers.reachable seeds
  exact ⟨seeds, affected, congrArg g.dependencies.schedule affected⟩

theorem mem_seeds_mark (mark : Mark) (g : DependencyGraph) (v : Nat) :
    v ∈ (empty.mark mark).seeds g ↔ ∃ x, g.vertex? v = some x ∧ mark.Touches x := by
  simp only [mem_seeds, touches_mark_empty]

theorem mem_seeds_markAll (agree : Mark.Agree marks) (g : DependencyGraph) (v : Nat) :
    v ∈ (empty.markAll marks).seeds g ↔ ∃ mark ∈ marks, v ∈ (empty.mark mark).seeds g := by
  rw [mem_seeds]
  simp only [mem_seeds_mark, touches_markAll_empty agree]
  constructor
  · rintro ⟨x, found, k, made, touched⟩
    exact ⟨k, made, x, found, touched⟩
  · rintro ⟨k, made, x, found, touched⟩
    exact ⟨x, found, k, made, touched⟩

/-- Marks of which no two give a sheet different names have the seeds that each of them has on its own:
the formulas that it touches. So marks made in another order or more than once, and marks that keep the
regions covered by earlier ones, have the same seeds, affected formulas and schedule. -/
theorem marks_form_set {marks : List Mark} (agree : Mark.Agree marks) (g : DependencyGraph) :
    let m := empty.markAll marks
    (∀ v, v ∈ m.seeds g ↔ ∃ mark ∈ marks, v ∈ (empty.mark mark).seeds g) ∧
    (∀ mark v, v ∈ (empty.mark mark).seeds g ↔ ∃ x, g.vertex? v = some x ∧ mark.Touches x) ∧
    (∀ others : List Mark, (∀ mark, mark ∈ others ↔ mark ∈ marks) →
      SameExpansion (empty.markAll others) m g) ∧
    SameExpansion { m with regions := marks.filterMap Mark.region? } m g := by
  intro m
  refine ⟨mem_seeds_markAll agree g, fun mark v => mem_seeds_mark mark g v,
    fun others same => .of_touches (fun v => ?_) g, .of_touches (touches_undropped marks) g⟩
  have agree' : Mark.Agree others := fun unit sheet first second one two =>
    agree unit sheet first second ((same _).mp one) ((same _).mp two)
  rw [Bool.eq_iff_iff, touches_markAll_empty agree', touches_markAll_empty agree]
  simp only [same]

/-- A region that is covered, an inverted one, and a sheet that is renamed twice. Made in the opposite
order, the marks keep other regions and another spelling of the name. -/
theorem reversed_marks_agree :
    let big : Region := ⟨"u", "s", 0, 0, 9, 9⟩
    let marks : List Mark := [.region big, .region ⟨"u", "s", 3, 3, 3, 3⟩,
      .region ⟨"u", "s", 5, 5, 2, 2⟩, .rename "u" "t" "Data", .rename "u" "t" "DATA"]
    let book := (Workbook.empty.addSheet "u" "s" "S").setFormula ⟨"u", "s", 1, 1⟩
      ⟨.reference (.cell ⟨none, none⟩ 0 0), []⟩
    let g := DependencyGraph.ofWorkbook book .empty
    Mark.Agree marks ∧ (empty.markAll marks).regions = [big] ∧
      (empty.markAll marks.reverse).regions.length = 3 ∧ (empty.markAll marks).seeds g = [0] ∧
      SameExpansion (empty.markAll marks.reverse) (empty.markAll marks) g := by
  intro big marks book g
  have upper : Text.asciiUpper "Data" = Text.asciiUpper "DATA" := by
    rw [← String.toList_inj, Text.asciiUpper, Text.asciiUpper, String.toList_map, String.toList_map]
    decide
  have agree : Mark.Agree marks := by
    intro unit sheet first second one two
    simp only [marks, List.mem_cons, List.not_mem_nil, reduceCtorEq, Mark.rename.injEq, or_false,
      false_or] at one two
    rcases one with ⟨-, -, rfl⟩ | ⟨-, -, rfl⟩ <;> rcases two with ⟨-, -, rfl⟩ | ⟨-, -, rfl⟩ <;>
      simp [Text.sameIgnoringCase, upper]
  exact ⟨agree, by decide, by decide, by decide +kernel,
    (marks_form_set agree g).2.2.1 _ fun _ => List.mem_reverse⟩

end DirtyMarks

end Recalc
