import Recalc.Calculation.Request
import Recalc.Proofs.Maps

/-!
# What marks touch

The marks of a request touch a formula exactly if some part of the request does
(`touches_marks`): marks that are dropped because earlier ones cover them lose nothing.
-/
namespace Recalc

/-! ### Regions -/

namespace Region

theorem contains_of_covers {big small : Region} (covers : big.covers small = true) {a : Address}
    (inside : small.contains a = true) : big.contains a = true := by
  simp only [Region.covers, contains, Rectangle.covers, Rectangle.contains, Bool.and_eq_true,
    beq_iff_eq, decide_eq_true_eq] at covers inside ⊢
  obtain ⟨⟨unit, sheet⟩, corners⟩ := covers
  obtain ⟨⟨unit', sheet'⟩, position⟩ := inside
  refine ⟨⟨unit.trans unit', sheet.trans sheet'⟩, ?_⟩
  omega

theorem intersects_of_covers {read big small : Region} (covers : big.covers small = true)
    (meets : read.intersects small = true) : read.intersects big = true := by
  simp only [Region.covers, intersects, Rectangle.covers, Rectangle.contains, Rectangle.intersects,
    Bool.and_eq_true, beq_iff_eq, decide_eq_true_eq] at covers meets ⊢
  obtain ⟨⟨unit, sheet⟩, corners⟩ := covers
  obtain ⟨⟨unit', sheet'⟩, position⟩ := meets
  refine ⟨⟨unit'.trans unit.symm, sheet'.trans sheet.symm⟩, ?_⟩
  omega

theorem contains_ofAddress {a c : Address} : (ofAddress a).contains c = true ↔ a = c := by
  simp only [contains, Rectangle.contains, Bool.and_eq_true, beq_iff_eq, decide_eq_true_eq]
  simp only [ofAddress, Rectangle.ofPosition]
  constructor
  · rintro ⟨⟨unit, sheet⟩, position⟩
    cases a
    cases c
    simp only [Address.mk.injEq] at *
    exact ⟨unit, sheet, by omega, by omega⟩
  · rintro rfl
    exact ⟨⟨rfl, rfl⟩, by omega⟩

theorem intersects_ofAddress {r : Region} {a : Address} :
    r.intersects (ofAddress a) = r.contains a := by
  simp only [ofAddress, contains, intersects, Rectangle.contains, Rectangle.intersects,
    Rectangle.ofPosition]
  grind

end Region

/-! ### Marks -/

namespace Vertex

/-- Whether a new display name of a sheet touches a formula. -/
def RenamedBy (v : Vertex) (sheet : Scoped) (name : String) : Prop :=
  ∃ use ∈ v.precedents.sheetNames, DirtyMarks.renameTouches sheet name use = true

/-- Whether a formula lies in a region or reads from it. -/
def MeetsRegion (v : Vertex) (r : Region) : Prop :=
  r.contains v.address = true ∨ v.readsFrom r = true

theorem MeetsRegion.of_covers {v : Vertex} {big small : Region} (covers : big.covers small = true)
    (meets : v.MeetsRegion small) : v.MeetsRegion big := by
  rcases meets with inside | reads
  · exact .inl (Region.contains_of_covers covers inside)
  · obtain ⟨r, listed, meets⟩ := List.any_eq_true.mp reads
    exact .inr (List.any_eq_true.mpr ⟨r, listed, Region.intersects_of_covers covers meets⟩)

end Vertex

namespace DirtyMarks

variable {m : DirtyMarks} {v : Vertex}

theorem touches_iff : m.touches v = true ↔
    (v.isVolatile = true ∧ m.volatiles = true) ∨ (∃ r ∈ m.regions, v.MeetsRegion r) ∨
      (∃ sheet name, m.renames[sheet]? = some name ∧ v.RenamedBy sheet name) ∨
      (∃ n ∈ v.precedents.names, n ∈ m.names) ∨ ∃ k ∈ v.precedents.features, k ∈ m.features := by
  -- the marks are searched use by use, the statement speaks of the marked sheets first
  have renamed : (∃ use ∈ v.precedents.sheetNames, ∃ sheet name,
      (sheet, name) ∈ m.renames.toList ∧ renameTouches sheet name use = true) ↔
      ∃ sheet name, m.renames[sheet]? = some name ∧ v.RenamedBy sheet name := by
    simp only [Std.ExtTreeMap.mem_toList_iff_getElem?_eq_some, Vertex.RenamedBy]
    constructor
    · rintro ⟨use, used, sheet, name, marked, touched⟩
      exact ⟨sheet, name, marked, use, used, touched⟩
    · rintro ⟨sheet, name, marked, use, used, touched⟩
      exact ⟨use, used, sheet, name, marked, touched⟩
  rw [← renamed]
  simp only [touches, Bool.or_eq_true, Bool.and_eq_true, List.any_eq_true, Prod.exists, or_assoc,
    Std.ExtTreeSet.contains_iff_mem, Vertex.MeetsRegion]

theorem mem_seeds {g : DependencyGraph} {v : Nat} :
    v ∈ m.seeds g ↔ ∃ x, g.vertex? v = some x ∧ m.touches x = true := by
  simp only [seeds, DependencyGraph.select, DependencyGraph.all, List.mem_filter, List.mem_range,
    Option.any_eq_true]
  exact ⟨fun seed => seed.2, fun ⟨x, found, touched⟩ =>
    ⟨(Array.getElem?_eq_some_iff.mp found).1, x, found, touched⟩⟩

@[simp] theorem touches_empty (v : Vertex) : empty.touches v = false := by
  rw [Bool.eq_false_iff, Ne, touches_iff]
  simp [empty]

/-! ### Marking -/

/-- A covered region adds nothing, since the mark that covers it meets all that it would. -/
theorem meets_markRegion (m : DirtyMarks) (r : Region) (v : Vertex) :
    (∃ marked ∈ (m.markRegion r).regions, v.MeetsRegion marked) ↔
      (∃ marked ∈ m.regions, v.MeetsRegion marked) ∨ v.MeetsRegion r := by
  unfold markRegion
  split
  next covered =>
    refine ⟨.inl, fun touched => touched.elim id fun meets => ?_⟩
    obtain ⟨earlier, marked, covers⟩ := List.any_eq_true.mp covered
    exact ⟨earlier, marked, meets.of_covers covers⟩
  next =>
    simp only [List.mem_append, List.mem_singleton]
    grind

theorem touches_markRegion (m : DirtyMarks) (r : Region) (v : Vertex) :
    (m.markRegion r).touches v = true ↔ m.touches v = true ∨ v.MeetsRegion r := by
  rw [touches_iff, touches_iff, meets_markRegion]
  unfold markRegion
  split <;> grind

theorem renameTouches_congr {old new : String} (same : Text.sameIgnoringCase old new = true)
    (key : Scoped) (use : SheetNameUse) : renameTouches key old use = renameTouches key new use := by
  simp only [Text.sameIgnoringCase, beq_iff_eq] at same
  simp only [renameTouches, Text.sameIgnoringCase, same]

/-- A rename adds to what is touched unless it replaces an earlier name of the sheet by another one. -/
theorem touches_markRename {m : DirtyMarks} {unit sheet name : String}
    (agrees : ∀ old, m.renames[(⟨unit, sheet⟩ : Scoped)]? = some old →
      Text.sameIgnoringCase old name = true) (v : Vertex) :
    (m.markRename unit sheet name).touches v = true ↔
      m.touches v = true ∨ v.RenamedBy ⟨unit, sheet⟩ name := by
  have replaced : ∀ old, m.renames[(⟨unit, sheet⟩ : Scoped)]? = some old →
      (v.RenamedBy ⟨unit, sheet⟩ old ↔ v.RenamedBy ⟨unit, sheet⟩ name) := fun old marked => by
    simp only [Vertex.RenamedBy, renameTouches_congr (agrees old marked)]
  have renamed : (∃ key given, (m.markRename unit sheet name).renames[key]? = some given ∧
      v.RenamedBy key given) ↔ (∃ key given, m.renames[key]? = some given ∧ v.RenamedBy key given) ∨
        v.RenamedBy ⟨unit, sheet⟩ name := by
    simp only [markRename, SortedMap.getElem?_insert]
    grind
  rw [touches_iff, touches_iff, renamed]
  simp only [markRename]
  grind

theorem touches_markName (m : DirtyMarks) (unit name : String) (v : Vertex) :
    (m.markName unit name).touches v = true ↔
      m.touches v = true ∨ (⟨unit, Text.asciiUpper name⟩ : Scoped) ∈ v.precedents.names := by
  simp only [touches_iff, markName, Std.ExtTreeSet.mem_insert, Std.LawfulEqOrd.compare_eq_iff_eq]
  grind

theorem touches_markFeature (m : DirtyMarks) (key : FeatureKey) (v : Vertex) :
    (m.markFeature key).touches v = true ↔ m.touches v = true ∨ key ∈ v.precedents.features := by
  simp only [touches_iff, markFeature, Std.ExtTreeSet.mem_insert, Std.LawfulEqOrd.compare_eq_iff_eq]
  grind

theorem touches_markVolatiles (m : DirtyMarks) (v : Vertex) :
    m.markVolatiles.touches v = true ↔ m.touches v = true ∨ v.isVolatile = true := by
  simp only [touches_iff, markVolatiles]
  grind

end DirtyMarks

/-! ### Requests -/

namespace Request

/-- The new display name of a sheet. -/
def newName? (q : Request) (sheet : Scoped) : Option String :=
  (q.renames[sheet.unit]?).bind fun sheets => sheets[sheet.name]?

/-- Whether a request marks a defined name. -/
def MarksName (q : Request) (n : Scoped) : Prop :=
  ∃ names, q.names[n.unit]? = some names ∧ ∃ written ∈ names, Text.asciiUpper written = n.name

/-- Whether a request marks a feature. -/
def MarksFeature (q : Request) (key : FeatureKey) : Prop :=
  ∃ sheets, q.features[key.unit]? = some sheets ∧
    ∃ ids, sheets[key.sheet]? = some ids ∧ key.feature ∈ ids

/-- Whether some part of a request touches a formula. -/
inductive Touches (q : Request) (v : Vertex) : Prop
  | region {r : Region} : r ∈ q.regions → v.MeetsRegion r → Touches q v
  | rename {sheet : Scoped} {name : String} : q.newName? sheet = some name →
      v.RenamedBy sheet name → Touches q v
  | name {n : Scoped} : q.MarksName n → n ∈ v.precedents.names → Touches q v
  | feature {key : FeatureKey} : q.MarksFeature key → key ∈ v.precedents.features → Touches q v

/-- The new display names with their sheets. -/
def renameList (q : Request) : List (Scoped × String) :=
  q.renames.toList.flatMap fun (unit, sheets) =>
    sheets.toList.map fun (sheet, name) => (⟨unit, sheet⟩, name)

theorem mem_renameList {q : Request} {sheet : Scoped} {name : String} :
    (sheet, name) ∈ q.renameList ↔ q.newName? sheet = some name := by
  simp only [renameList, newName?, List.mem_flatMap, List.mem_map, Prod.exists, Prod.mk.injEq,
    Option.bind_eq_some_iff]
  constructor
  · rintro ⟨unit, sheets, listed, s, n, inUnit, rfl, rfl⟩
    exact ⟨sheets, Std.ExtTreeMap.mem_toList_iff_getElem?_eq_some.mp listed,
      Std.ExtTreeMap.mem_toList_iff_getElem?_eq_some.mp inUnit⟩
  · rintro ⟨sheets, listed, inUnit⟩
    exact ⟨sheet.unit, sheets, Std.ExtTreeMap.mem_toList_iff_getElem?_eq_some.mpr listed, sheet.name,
      name, Std.ExtTreeMap.mem_toList_iff_getElem?_eq_some.mpr inUnit, rfl, rfl⟩

theorem nodup_renameList (q : Request) : (q.renameList.map Prod.fst).Nodup := by
  rw [renameList, List.map_flatMap]
  refine nodup_flatMap_of_key Scoped.unit (SortedMap.distinct_keys q.renames) ?_ ?_
  · rintro ⟨unit, sheets⟩ _
    rw [List.map_map]
    refine List.pairwise_map.mpr ((SortedMap.distinct_keys sheets).imp fun ne same => ne ?_)
    exact congrArg Scoped.name same
  · rintro ⟨unit, sheets⟩ _ sheet member
    obtain ⟨_, inner, rfl⟩ := List.mem_map.mp member
    obtain ⟨_, _, rfl⟩ := List.mem_map.mp inner
    rfl

section Folds

variable {v : Vertex} {m : DirtyMarks}

private theorem foldl_touches {β : Type} {step : DirtyMarks → β → DirtyMarks} (adds : β → Prop)
    (one : ∀ m x, (step m x).touches v = true ↔ m.touches v = true ∨ adds x) (l : List β)
    (m : DirtyMarks) :
    (l.foldl step m).touches v = true ↔ m.touches v = true ∨ ∃ x ∈ l, adds x :=
  foldl_iff (fun m : DirtyMarks => m.touches v = true) adds one l m

private theorem renames_foldl_markRegion (regions : List Region) :
    (regions.foldl DirtyMarks.markRegion m).renames = m.renames := by
  refine foldl_kept DirtyMarks.renames (fun m r _ => ?_) m
  unfold DirtyMarks.markRegion
  split
  · rfl
  · rfl

private theorem foldl_markRename {l : List (Scoped × String)} (nodup : (l.map Prod.fst).Nodup)
    (fresh : ∀ x ∈ l, m.renames[x.1]? = none) :
    (l.foldl (fun m x => m.markRename x.1.unit x.1.name x.2) m).touches v = true ↔
      m.touches v = true ∨ ∃ x ∈ l, v.RenamedBy x.1 x.2 := by
  induction l generalizing m with
  | nil => simp
  | cons x rest ih =>
    rw [List.map_cons, List.nodup_cons] at nodup
    have first : ∀ old, m.renames[x.1]? = some old → Text.sameIgnoringCase old x.2 = true := by
      simp [fresh x List.mem_cons_self]
    rw [List.foldl_cons, ih nodup.2, DirtyMarks.touches_markRename first, or_assoc]
    · simp only [List.mem_cons, exists_eq_or_imp]
    · intro y later
      -- each sheet is renamed once, so the later ones are still fresh
      have ne : x.1 ≠ y.1 := fun same => nodup.1 (same ▸ List.mem_map_of_mem later)
      simp only [DirtyMarks.markRename]
      rw [SortedMap.getElem?_insert, if_neg ne]
      exact fresh y (List.mem_cons_of_mem _ later)

private theorem renames_foldl (q : Request) (m : DirtyMarks) :
    q.renames.foldl (fun m unit sheets =>
      sheets.foldl (fun m sheet name => m.markRename unit sheet name) m) m =
      q.renameList.foldl (fun m x => m.markRename x.1.unit x.1.name x.2) m := by
  simp only [Std.ExtTreeMap.foldl_eq_foldl_toList, renameList, List.foldl_flatMap, List.foldl_map]

private theorem names_foldl (q : Request) (m : DirtyMarks) :
    (q.names.foldl (fun m unit names =>
      names.foldl (fun m name => m.markName unit name) m) m).touches v = true ↔
      m.touches v = true ∨ ∃ n, q.MarksName n ∧ n ∈ v.precedents.names := by
  rw [Std.ExtTreeMap.foldl_eq_foldl_toList, foldl_touches
    fun x : String × SortedSet String =>
      ∃ n ∈ x.2.toList, (⟨x.1, Text.asciiUpper n⟩ : Scoped) ∈ v.precedents.names]
  · refine or_congr_right ⟨?_, ?_⟩
    · rintro ⟨⟨unit, names⟩, listed, n, written, used⟩
      exact ⟨_, ⟨names, Std.ExtTreeMap.mem_toList_iff_getElem?_eq_some.mp listed, n,
        Std.ExtTreeSet.mem_toList.mp written, rfl⟩, used⟩
    · rintro ⟨⟨unit, name⟩, ⟨names, listed, n, written, rfl⟩, used⟩
      exact ⟨(unit, names), Std.ExtTreeMap.mem_toList_iff_getElem?_eq_some.mpr listed, n,
        Std.ExtTreeSet.mem_toList.mpr written, used⟩
  · intro m x
    rw [Std.ExtTreeSet.foldl_eq_foldl_toList]
    exact foldl_touches _ (fun m n => m.touches_markName x.1 n v) _ m

private theorem features_foldl (q : Request) (m : DirtyMarks) :
    (q.features.foldl (fun m unit sheets => sheets.foldl (fun m sheet ids =>
      ids.foldl (fun m feature => m.markFeature ⟨unit, sheet, feature⟩) m) m) m).touches v = true ↔
      m.touches v = true ∨ ∃ key, q.MarksFeature key ∧ key ∈ v.precedents.features := by
  rw [Std.ExtTreeMap.foldl_eq_foldl_toList, foldl_touches
    fun x : String × SortedMap String (SortedSet String) =>
      ∃ y ∈ x.2.toList, ∃ id ∈ y.2.toList, (⟨x.1, y.1, id⟩ : FeatureKey) ∈ v.precedents.features]
  · refine or_congr_right ⟨?_, ?_⟩
    · rintro ⟨⟨unit, sheets⟩, listed, ⟨sheet, ids⟩, inUnit, id, inSheet, used⟩
      exact ⟨_, ⟨sheets, Std.ExtTreeMap.mem_toList_iff_getElem?_eq_some.mp listed, ids,
        Std.ExtTreeMap.mem_toList_iff_getElem?_eq_some.mp inUnit,
        Std.ExtTreeSet.mem_toList.mp inSheet⟩, used⟩
    · rintro ⟨⟨unit, sheet, id⟩, ⟨sheets, listed, ids, inUnit, inSheet⟩, used⟩
      exact ⟨(unit, sheets), Std.ExtTreeMap.mem_toList_iff_getElem?_eq_some.mpr listed, (sheet, ids),
        Std.ExtTreeMap.mem_toList_iff_getElem?_eq_some.mpr inUnit, id,
        Std.ExtTreeSet.mem_toList.mpr inSheet, used⟩
  · intro m x
    rw [Std.ExtTreeMap.foldl_eq_foldl_toList]
    refine foldl_touches _ (fun m y => ?_) _ m
    rw [Std.ExtTreeSet.foldl_eq_foldl_toList]
    exact foldl_touches _
      (fun m id => m.touches_markFeature ⟨x.1, y.1, id⟩ v) _ m

end Folds

/-- The marks of a request touch what some part of it touches, and the volatile formulas if they are
marked. -/
theorem touches_marks (q : Request) (volatiles : Bool) (v : Vertex) :
    (q.marks volatiles).touches v = true ↔
      q.Touches v ∨ (volatiles = true ∧ v.isVolatile = true) := by
  -- in the order in which the marks are made
  have parts : q.Touches v ↔ (((∃ r ∈ q.regions, v.MeetsRegion r) ∨
      ∃ x ∈ q.renameList, v.RenamedBy x.1 x.2) ∨ ∃ n, q.MarksName n ∧ n ∈ v.precedents.names) ∨
        ∃ key, q.MarksFeature key ∧ key ∈ v.precedents.features := by
    constructor
    · rintro (⟨marked, meets⟩ | ⟨given, renamed⟩ | ⟨marked, used⟩ | ⟨marked, used⟩)
      · exact .inl (.inl (.inl ⟨_, marked, meets⟩))
      · exact .inl (.inl (.inr ⟨(_, _), mem_renameList.mpr given, renamed⟩))
      · exact .inl (.inr ⟨_, marked, used⟩)
      · exact .inr ⟨_, marked, used⟩
    · rintro (((⟨_, marked, meets⟩ | ⟨_, given, renamed⟩) | ⟨_, marked, used⟩) | ⟨_, marked, used⟩)
      · exact .region marked meets
      · exact .rename (mem_renameList.mp given) renamed
      · exact .name marked used
      · exact .feature marked used
  have fresh : ∀ x ∈ q.renameList,
      (q.regions.foldl DirtyMarks.markRegion .empty).renames[x.1]? = none := fun x _ => by
    rw [renames_foldl_markRegion]
    exact Std.ExtTreeMap.getElem?_empty
  have unaided : (q.marks false).touches v = true ↔ q.Touches v := by
    simp only [marks, Bool.false_eq_true, if_false]
    rw [features_foldl, names_foldl, renames_foldl, foldl_markRename q.nodup_renameList fresh,
      foldl_touches _ fun m r => m.touches_markRegion r v, parts]
    simp only [DirtyMarks.touches_empty, Bool.false_eq_true, false_or]
  cases volatiles with
  | false => simp [unaided]
  | true =>
    show ((q.marks false).markVolatiles).touches v = true ↔ _
    rw [DirtyMarks.touches_markVolatiles, unaided]
    simp

end Request

end Recalc
