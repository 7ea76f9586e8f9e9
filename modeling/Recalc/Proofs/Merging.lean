import Recalc.Proofs.Marks

/-!
# Merged requests

A request that replaces unfinished ones takes over their marks. The result is forced if one of them
is, marks what any of them marks (`touches_mergeAll`), and has the options of the last one and the
display names that were given last (`newName?_mergeAll`).
-/
namespace Recalc.Request

variable {q next : Request} {handed : List Request}

/-- What is left of requests each of which replaces the one before it. -/
def mergeAll (q : Request) (handed : List Request) : Request :=
  handed.foldl (fun earlier next => next.absorb earlier) q

/-! ### Taking over one request -/

theorem mem_regions_absorb (next q : Request) (r : Region) :
    r ∈ (next.absorb q).regions ↔ r ∈ next.regions ∨ r ∈ q.regions := by
  refine (foldl_iff (r ∈ ·) (r = ·) (fun mine x => ?_) q.regions next.regions).trans ?_
  · split
    next listed =>
      rw [List.contains_iff_mem] at listed
      exact ⟨.inl, fun member => member.elim id fun same => same ▸ listed⟩
    next => rw [List.mem_append, List.mem_singleton]
  · simp only [exists_eq_right']

/-- The newer request keeps the names that it gives. -/
theorem newName?_absorb (next q : Request) (sheet : Scoped) :
    (next.absorb q).newName? sheet = (next.newName? sheet).or (q.newName? sheet) := by
  simp only [newName?, absorb, SortedMap.getElem?_unionWith]
  cases q.renames[sheet.unit]? with
  | none => simp
  | some theirs =>
    cases next.renames[sheet.unit]? with
    | none => simp
    | some mine =>
      simp only [Option.elim_some, Option.bind_some, SortedMap.getElem?_unionWith]
      cases theirs[sheet.name]? <;> cases mine[sheet.name]? <;> rfl

theorem marksName_absorb (next q : Request) (n : Scoped) :
    (next.absorb q).MarksName n ↔ next.MarksName n ∨ q.MarksName n := by
  simp only [MarksName, absorb, SortedMap.getElem?_unionWith]
  cases q.names[n.unit]? with
  | none => simp
  | some theirs =>
    cases next.names[n.unit]? with
    | none => simp
    | some mine =>
      simp only [Option.elim_some, Option.some.injEq, exists_eq_left', SortedSet.mem_union]
      grind

theorem marksFeature_absorb (next q : Request) (key : FeatureKey) :
    (next.absorb q).MarksFeature key ↔ next.MarksFeature key ∨ q.MarksFeature key := by
  simp only [MarksFeature, absorb, SortedMap.getElem?_unionWith]
  cases q.features[key.unit]? with
  | none => simp
  | some theirs =>
    cases next.features[key.unit]? with
    | none => simp
    | some mine =>
      simp only [Option.elim_some, Option.some.injEq, exists_eq_left', SortedMap.getElem?_unionWith]
      cases theirs[key.sheet]? with
      | none => simp
      | some ids =>
        cases mine[key.sheet]? with
        | none => simp
        | some own => simp [SortedSet.mem_union]

theorem mem_homeUnits {u : String} : u ∈ q.homeUnits ↔
    (∃ r ∈ q.regions, r.unit = u) ∨ u ∈ q.renames ∨ u ∈ q.names ∨ u ∈ q.features := by
  simp only [homeUnits, SortedSet.mem_foldl_insert, Std.ExtTreeSet.not_mem_empty, false_or,
    List.mem_append, List.mem_map, Std.ExtTreeMap.mem_keys, or_assoc]

theorem mem_homeUnits_absorb (next q : Request) (u : String) :
    u ∈ (next.absorb q).homeUnits ↔ u ∈ next.homeUnits ∨ u ∈ q.homeUnits := by
  have maps : (u ∈ (next.absorb q).renames ↔ u ∈ next.renames ∨ u ∈ q.renames) ∧
      (u ∈ (next.absorb q).names ↔ u ∈ next.names ∨ u ∈ q.names) ∧
        (u ∈ (next.absorb q).features ↔ u ∈ next.features ∨ u ∈ q.features) :=
    ⟨SortedMap.mem_unionWith, SortedMap.mem_unionWith, SortedMap.mem_unionWith⟩
  simp only [mem_homeUnits, mem_regions_absorb, maps]
  grind

/-! ### Taking over many requests -/

/-- What a request takes over from each, it takes over from all. -/
theorem mergeAll_iff {p : Request → Prop}
    (taken : ∀ next q : Request, p (next.absorb q) ↔ p next ∨ p q) :
    p (q.mergeAll handed) ↔ ∃ s ∈ q :: handed, p s := by
  induction handed generalizing q with
  | nil => simp [mergeAll]
  | cons next rest ih =>
    rw [mergeAll, List.foldl_cons, ← mergeAll, ih]
    simp only [List.mem_cons, exists_eq_or_imp, taken]
    grind

theorem mem_regions_mergeAll {r : Region} :
    r ∈ (q.mergeAll handed).regions ↔ ∃ s ∈ q :: handed, r ∈ s.regions :=
  mergeAll_iff (p := fun s => r ∈ s.regions) fun next q => mem_regions_absorb next q r

theorem marksName_mergeAll {n : Scoped} :
    (q.mergeAll handed).MarksName n ↔ ∃ s ∈ q :: handed, s.MarksName n :=
  mergeAll_iff (p := fun s => s.MarksName n) fun next q => marksName_absorb next q n

theorem marksFeature_mergeAll {key : FeatureKey} :
    (q.mergeAll handed).MarksFeature key ↔ ∃ s ∈ q :: handed, s.MarksFeature key :=
  mergeAll_iff (p := fun s => s.MarksFeature key) fun next q => marksFeature_absorb next q key

theorem mem_homeUnits_mergeAll {u : String} :
    u ∈ (q.mergeAll handed).homeUnits ↔ ∃ s ∈ q :: handed, u ∈ s.homeUnits :=
  mergeAll_iff (p := fun s => u ∈ s.homeUnits) fun next q => mem_homeUnits_absorb next q u

theorem forced_mergeAll :
    (q.mergeAll handed).forced = true ↔ ∃ s ∈ q :: handed, s.forced = true :=
  mergeAll_iff (p := fun s => s.forced = true) fun next q => by simp [absorb]

theorem options_mergeAll (q : Request) (handed : List Request) :
    (q.mergeAll handed).options = ((q :: handed).getLast (List.cons_ne_nil q handed)).options := by
  induction handed generalizing q with
  | nil => rfl
  | cons next rest ih =>
    rw [mergeAll, List.foldl_cons, ← mergeAll, ih, List.getLast_cons (List.cons_ne_nil next rest)]
    cases rest with
    | nil => rfl
    | cons third more => rfl

/-- Of several names for a sheet the one that was given last holds. -/
theorem newName?_mergeAll (q : Request) (handed : List Request) (sheet : Scoped) :
    (q.mergeAll handed).newName? sheet =
      (q :: handed).reverse.findSome? fun s => s.newName? sheet := by
  induction handed generalizing q with
  | nil => simp [mergeAll]
  | cons next rest ih =>
    rw [mergeAll, List.foldl_cons, ← mergeAll, ih]
    simp only [List.reverse_cons, List.findSome?_append]
    cases rest.reverse.findSome? fun s => s.newName? sheet <;> simp [newName?_absorb]

/-- Whether no two requests give one sheet different names. -/
def Consistent (requests : List Request) : Prop :=
  ∀ s ∈ requests, ∀ t ∈ requests, ∀ sheet name other, s.newName? sheet = some name →
    t.newName? sheet = some other → name = other

theorem newName?_mergeAll_iff (consistent : Consistent (q :: handed)) {sheet : Scoped}
    {name : String} : (q.mergeAll handed).newName? sheet = some name ↔
      ∃ s ∈ q :: handed, s.newName? sheet = some name := by
  rw [newName?_mergeAll]
  constructor
  · intro found
    obtain ⟨s, listed, given⟩ := List.exists_of_findSome?_eq_some found
    exact ⟨s, List.mem_reverse.mp listed, given⟩
  · rintro ⟨s, listed, given⟩
    have mentioned : ((q :: handed).reverse.findSome? fun s => s.newName? sheet).isSome := by
      rw [List.findSome?_isSome_iff]
      exact ⟨s, List.mem_reverse.mpr listed, by rw [given]; rfl⟩
    obtain ⟨other, found⟩ := Option.isSome_iff_exists.mp mentioned
    -- the last one that names the sheet may be another request, with the same name
    obtain ⟨t, also, last⟩ := List.exists_of_findSome?_eq_some found
    rw [found, consistent s listed t (List.mem_reverse.mp also) sheet name other given last]

/-- Merged requests touch what one of them does, if they agree on the names of sheets. -/
theorem touches_mergeAll (consistent : Consistent (q :: handed)) (v : Vertex) :
    (q.mergeAll handed).Touches v ↔ ∃ s ∈ q :: handed, s.Touches v := by
  constructor
  · rintro (⟨marked, meets⟩ | ⟨given, renamed⟩ | ⟨marked, used⟩ | ⟨marked, used⟩)
    · obtain ⟨s, listed, marked⟩ := mem_regions_mergeAll.mp marked
      exact ⟨s, listed, .region marked meets⟩
    · obtain ⟨s, listed, given⟩ := (newName?_mergeAll_iff consistent).mp given
      exact ⟨s, listed, .rename given renamed⟩
    · obtain ⟨s, listed, marked⟩ := marksName_mergeAll.mp marked
      exact ⟨s, listed, .name marked used⟩
    · obtain ⟨s, listed, marked⟩ := marksFeature_mergeAll.mp marked
      exact ⟨s, listed, .feature marked used⟩
  · rintro ⟨s, listed, ⟨marked, meets⟩ | ⟨given, renamed⟩ | ⟨marked, used⟩ | ⟨marked, used⟩⟩
    · exact .region (mem_regions_mergeAll.mpr ⟨s, listed, marked⟩) meets
    · exact .rename ((newName?_mergeAll_iff consistent).mpr ⟨s, listed, given⟩) renamed
    · exact .name (marksName_mergeAll.mpr ⟨s, listed, marked⟩) used
    · exact .feature (marksFeature_mergeAll.mpr ⟨s, listed, marked⟩) used

/-- Merged requests seed what one of them does, over every graph. -/
theorem mem_seeds_mergeAll (consistent : Consistent (q :: handed)) (g : DependencyGraph)
    (volatiles : Bool) (v : Nat) :
    v ∈ ((q.mergeAll handed).marks volatiles).seeds g ↔
      ∃ s ∈ q :: handed, v ∈ (s.marks volatiles).seeds g := by
  simp only [DirtyMarks.mem_seeds, touches_marks, touches_mergeAll consistent]
  constructor
  -- volatile formulas are marked or not for all requests alike
  · rintro ⟨x, found, ⟨s, listed, touched⟩ | volatile⟩
    · exact ⟨s, listed, x, found, .inl touched⟩
    · exact ⟨q, List.mem_cons_self, x, found, .inr volatile⟩
  · rintro ⟨s, listed, x, found, touched | volatile⟩
    · exact ⟨x, found, .inl ⟨s, listed, touched⟩⟩
    · exact ⟨x, found, .inr volatile⟩

end Recalc.Request
