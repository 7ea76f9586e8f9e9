import Recalc.Dependency.Graph

/-!
# What a formula reads

The value of a formula depends on the values of its references only (`Formula.evaluate_congr`), and
that of a reference on what names stand for, on the regions it reads, and on the values in them
(`CellFormula.cellValue_congr`).
-/
namespace Recalc

/-! ### Trees -/

namespace Formula

section Evaluation

variable {view other : View} {home : Address}

mutual

private theorem evaluate_congr_subtrees (functions : view.function? = other.function?)
    (now : view.now = other.now) (seed : view.seed = other.seed) :
    ∀ x : Formula,
      (∀ ref, reference ref ∈ x.subtrees → ref.evaluate view home = ref.evaluate other home) →
      x.evaluate view home = x.evaluate other home
  | literal _, _ => rfl
  | reference r, same => by
    have value := same r (by simp [subtrees])
    simp only [evaluate, value]
  | unary op x, same => by
    have operand := evaluate_congr_subtrees functions now seed x fun ref member =>
      same ref (by simp [subtrees, member])
    simp only [evaluate, operand]
  | binary op l r, same => by
    have left := evaluate_congr_subtrees functions now seed l fun ref member =>
      same ref (by simp [subtrees, member])
    have right := evaluate_congr_subtrees functions now seed r fun ref member =>
      same ref (by simp [subtrees, member])
    simp only [evaluate, left, right]
  | call f args, same => by
    have values := evaluateList_congr functions now seed args fun ref member =>
      same ref (by simp [subtrees, member])
    simp only [evaluate, functions, now, seed, values]
  | array rows, same => by
    have values := evaluateRows_congr functions now seed rows fun ref member =>
      same ref (by simp [subtrees, member])
    simp only [evaluate, values]

private theorem evaluateList_congr (functions : view.function? = other.function?)
    (now : view.now = other.now) (seed : view.seed = other.seed) :
    ∀ l : List Formula,
      (∀ ref, reference ref ∈ subtreesOfList l → ref.evaluate view home = ref.evaluate other home) →
      evaluateList view home l = evaluateList other home l
  | [], _ => rfl
  | x :: rest, same => by
    have first := evaluate_congr_subtrees functions now seed x fun ref member =>
      same ref (by simp [subtreesOfList, member])
    have others := evaluateList_congr functions now seed rest fun ref member =>
      same ref (by simp [subtreesOfList, member])
    simp only [evaluateList, first, others]

private theorem evaluateRows_congr (functions : view.function? = other.function?)
    (now : view.now = other.now) (seed : view.seed = other.seed) :
    ∀ rows : List (List Formula),
      (∀ ref, reference ref ∈ subtreesOfRows rows →
        ref.evaluate view home = ref.evaluate other home) →
      evaluateRows view home rows = evaluateRows other home rows
  | [], _ => rfl
  | row :: rest, same => by
    have first := evaluateList_congr functions now seed row fun ref member =>
      same ref (by simp [subtreesOfRows, member])
    have others := evaluateRows_congr functions now seed rest fun ref member =>
      same ref (by simp [subtreesOfRows, member])
    simp only [evaluateRows, first, others]

end

theorem mem_references {x : Formula} {ref : Reference} :
    ref ∈ x.references ↔ reference ref ∈ x.subtrees := by
  rw [references, List.mem_filterMap]
  constructor
  · rintro ⟨y, member, same⟩
    split at same
    · cases same
      exact member
    · cases same
  · exact fun member => ⟨_, member, rfl⟩

/-- Two views that agree on the references of a tree give it the same value. -/
theorem cellValue_congr (view other : View) (functions : view.function? = other.function?)
    (now : view.now = other.now) (seed : view.seed = other.seed) {x : Formula}
    (same : ∀ ref ∈ x.references, ref.evaluate view home = ref.evaluate other home) :
    x.cellValue view home = x.cellValue other home := by
  have equal := evaluate_congr_subtrees functions now seed x fun ref member =>
    same ref (mem_references.mpr member)
  rw [cellValue, cellValue, value, value, equal]

end Evaluation

end Formula

/-! ### Regions -/

namespace Region

/-- The values of a region are those of the cells in it. -/
theorem values_congr {g : Region} {value other : Address → Value}
    (same : ∀ a, g.contains a = true → value a = other a) : g.values value = g.values other := by
  simp only [values, Block.ofFn, Block.mk.injEq, true_and]
  refine congrArg Array.ofFn (funext fun k => same _ ?_)
  -- the `k`-th value of a block belongs to row `k / width` and column `k % width`
  have wide : 0 < g.rectangle.width := Nat.pos_of_mul_pos_left (Nat.zero_lt_of_lt k.isLt)
  have row := (Nat.div_lt_iff_lt_mul wide).mpr k.isLt
  have col := Nat.mod_lt k.val wide
  generalize k.val / g.rectangle.width = down at row ⊢
  generalize k.val % g.rectangle.width = right at col ⊢
  simp only [Rectangle.height, Rectangle.width] at row col
  simp [contains, Rectangle.contains]
  omega

private theorem mem_eraseReps_loop {r a : Region} {l acc : List Region} :
    r ∈ List.eraseRepsBy.loop (· == ·) a l acc ↔ r = a ∨ r ∈ l ∨ r ∈ acc := by
  fun_induction List.eraseRepsBy.loop (· == ·) a l acc with
  | case1 a acc => simp [or_comm]
  | case2 a b rest acc repeats ih =>
    rw [ih, eq_of_beq repeats, List.mem_cons]
    grind
  | case3 a b rest acc differs ih =>
    rw [ih, List.mem_cons, List.mem_cons]
    grind

theorem mem_sortDistinct {r : Region} {regions : List Region} :
    r ∈ sortDistinct regions ↔ r ∈ regions := by
  rw [sortDistinct, List.eraseReps, ← (List.mergeSort_perm regions _).mem_iff]
  cases regions.mergeSort fun a b => (compare a b).isLE with
  | nil => rfl
  | cons a rest => simp [List.eraseRepsBy, mem_eraseReps_loop]

end Region

/-! ### References -/

namespace Reference

variable {book other : Workbook} {value value' : Address → Value} {lib lib' : Library}
  {now now' : Float} {seed seed' : UInt64} {home : Address}

private theorem locate_congr {place : Place}
    (sheets : ∀ n, place.sheet = some (.displayName n) →
      book.sheetId? (place.unit.getD home.unit) n = other.sheetId? (place.unit.getD home.unit) n) :
    place.locate (book.viewWith value lib now seed) home =
      place.locate (other.viewWith value' lib' now' seed') home := by
  unfold Place.locate
  split
  next => rfl
  next => rfl
  next n given => simp only [Workbook.viewWith, sheets n given]

/-- A reference to cells that finds its sheet has a region there. -/
theorem region?_of_locate {ref : Reference} {place : Place} {rectangle : Rectangle} {unit sheet : String}
    (target : ref.target? = some (place, rectangle))
    (found : place.locate (book.viewWith value lib now seed) home = .ok (unit, sheet)) :
    ref.region? book home = some ⟨unit, sheet, rectangle⟩ := by
  simp only [region?, target]
  simp only [Place.locate] at found
  cases given : place.sheet with
  | none =>
    rw [given] at found
    cases found
    rfl
  | some named =>
    rw [given] at found
    cases named with
    | id s =>
      cases found
      rfl
    | displayName n =>
      cases known : book.sheetId? (place.unit.getD home.unit) n with
      | none =>
        simp only [Workbook.viewWith, known] at found
        cases found
      | some s =>
        simp only [Workbook.viewWith, known] at found
        cases found
        simp only [known, Option.map_some]

theorem sheetId?_eq_of_region? {ref : Reference} {place : Place} {rectangle : Rectangle}
    (target : ref.target? = some (place, rectangle))
    (regions : ref.region? book home = ref.region? other home) (n : String)
    (given : place.sheet = some (.displayName n)) :
    book.sheetId? (place.unit.getD home.unit) n = other.sheetId? (place.unit.getD home.unit) n := by
  simp only [region?, target, given] at regions
  refine Option.map_injective (fun s t same => ?_) regions
  exact congrArg Region.sheet same

/-- What a reference to cells gives is settled by its region and the values in it. -/
theorem direct?_congr {ref : Reference} (regions : ref.region? book home = ref.region? other home)
    (values : ∀ r, ref.region? book home = some r → ∀ a, r.contains a = true → value a = value' a) :
    ref.direct? (book.viewWith value lib now seed) home =
      ref.direct? (other.viewWith value' lib' now' seed') home := by
  cases ref with
  | name n => rfl
  | cell place row col =>
    have target : target? (.cell place row col) = some (place, .ofPosition row col) := rfl
    have places : place.locate (book.viewWith value lib now seed) home =
        place.locate (other.viewWith value' lib' now' seed') home :=
      locate_congr (sheetId?_eq_of_region? target regions)
    simp only [direct?, ← places]
    cases found : place.locate (book.viewWith value lib now seed) home with
    | error e => rfl
    | ok location =>
      have inside := values _ (region?_of_locate target found) ⟨location.1, location.2, row, col⟩
        (by simp [Region.contains, Rectangle.contains, Rectangle.ofPosition])
      exact congrArg (some ∘ Except.ok) inside
  | range place rectangle =>
    -- an inverted range is refused before its sheet is looked up
    by_cases ordered : rectangle.Ordered
    · have target : target? (.range place rectangle) = some (place, rectangle) := if_pos ordered
      have places : place.locate (book.viewWith value lib now seed) home =
          place.locate (other.viewWith value' lib' now' seed') home :=
        locate_congr (sheetId?_eq_of_region? target regions)
      simp only [direct?, Rectangle.check, if_pos ordered, ← places]
      cases found : place.locate (book.viewWith value lib now seed) home with
      | error e => rfl
      | ok location =>
        have same := Region.values_congr (values _ (region?_of_locate target found))
        exact congrArg (some ∘ Except.ok ∘ Value.array) same
    · simp only [direct?, Rectangle.check, if_neg ordered]

theorem evaluate_congr {ref : Reference}
    (names : ref.expand book home.unit = ref.expand other home.unit)
    (regions : ∀ t ∈ ref.expand book home.unit, t.region? book home = t.region? other home)
    (values : ∀ t ∈ ref.expand book home.unit, ∀ r, t.region? book home = some r →
      ∀ a, r.contains a = true → value a = value' a) :
    ref.evaluate (book.viewWith value lib now seed) home =
      ref.evaluate (other.viewWith value' lib' now' seed') home := by
  cases ref with
  | cell place row col =>
    have itself : Reference.cell place row col ∈ expand (.cell place row col) book home.unit :=
      List.mem_singleton_self _
    exact congrArg (Option.getD · (.ok .blank)) (direct?_congr (regions _ itself) (values _ itself))
  | range place rectangle =>
    have itself : Reference.range place rectangle ∈ expand (.range place rectangle) book home.unit :=
      List.mem_singleton_self _
    exact congrArg (Option.getD · (.ok .blank)) (direct?_congr (regions _ itself) (values _ itself))
  | name n =>
    -- a name expands to what it stands for, or to nothing, so equal expansions are equal targets
    have resolved : book.definedName? home.unit n = other.definedName? home.unit n := by
      have equal := congrArg List.head? names
      simpa only [expand, Option.head?_toList] using equal
    simp only [evaluate, Workbook.viewWith, ← resolved]
    cases found : book.definedName? home.unit n with
    | none => rfl
    | some t =>
      have stands : t ∈ expand (.name n) book home.unit := by simp [expand, found]
      exact congrArg (Option.getD · (.ok (Value.complain (.unknownName n))))
        (direct?_congr (regions t stands) (values t stands))

end Reference

/-! ### Formulas of cells -/

namespace CellFormula

variable {book other : Workbook} {value value' : Address → Value} {lib : Library} {now : Float}
  {seed : UInt64} {f : CellFormula} {home : Address}

/-- Whether the references of a formula stand for the same cells in two workbooks. -/
structure SamePlaces (f : CellFormula) (book other : Workbook) (home : Address) : Prop where
  names : ∀ ref ∈ f.tree.references, ref.expand book home.unit = ref.expand other home.unit
  regions : ∀ ref ∈ f.tree.references, ∀ t ∈ ref.expand book home.unit,
    t.region? book home = t.region? other home

theorem SamePlaces.refl (f : CellFormula) (book : Workbook) (home : Address) :
    f.SamePlaces book book home :=
  ⟨fun _ _ => rfl, fun _ _ _ _ => rfl⟩

/-- The use of a display name carries the sheet that is found by it. -/
theorem sheet_of_mem_sheetNames {use : SheetNameUse}
    (used : use ∈ (f.precedents book home).sheetNames) :
    use.sheet = book.sheetId? use.unit use.name := by
  obtain ⟨t, -, here⟩ := List.mem_filterMap.mp used
  unfold Reference.sheetNameUse? at here
  split at here
  · cases here
    rfl
  · cases here

/-- The defined names and the display names of sheets in a formula settle which cells its references
stand for. -/
theorem samePlaces_of_resolved
    (names : ∀ n ∈ (f.precedents book home).names, book.names[n]? = other.names[n]?)
    (sheets : ∀ use ∈ (f.precedents book home).sheetNames,
      book.sheetId? use.unit use.name = other.sheetId? use.unit use.name) :
    f.SamePlaces book other home where
  names ref written := by
    cases ref with
    | cell place row col => rfl
    | range place rectangle => rfl
    | name n =>
      refine congrArg Option.toList (names ⟨home.unit, Text.asciiUpper n⟩ ?_)
      exact List.mem_filterMap.mpr ⟨.name n, written, rfl⟩
  regions ref written t stands := by
    cases target : t.target? with
    | none => simp only [Reference.region?, target]
    | some found =>
      obtain ⟨⟨unit, sheet⟩, rectangle⟩ := found
      simp only [Reference.region?, target]
      cases sheet with
      | none => rfl
      | some given =>
        cases given with
        | id s => rfl
        | displayName n =>
          refine congrArg _ (sheets ⟨unit.getD home.unit, n, book.sheetId? (unit.getD home.unit) n⟩ ?_)
          refine List.mem_filterMap.mpr ⟨t, List.mem_flatMap.mpr ⟨ref, written, stands⟩, ?_⟩
          simp only [Reference.sheetNameUse?, target]

theorem mem_regions {r : Region} :
    r ∈ (f.precedents book home).regions ↔ ∃ ref ∈ f.tree.references,
      ∃ t ∈ ref.expand book home.unit, t.region? book home = some r := by
  simp only [precedents, Region.mem_sortDistinct, List.mem_filterMap, List.mem_flatMap]
  constructor
  · rintro ⟨t, ⟨ref, written, stands⟩, region⟩
    exact ⟨ref, written, t, stands, region⟩
  · rintro ⟨ref, written, t, stands, region⟩
    exact ⟨t, ⟨ref, written, stands⟩, region⟩

theorem SamePlaces.mem_regions_iff (same : f.SamePlaces book other home) {r : Region} :
    r ∈ (f.precedents book home).regions ↔ r ∈ (f.precedents other home).regions := by
  rw [mem_regions, mem_regions]
  refine exists_congr fun ref => and_congr_right fun written => exists_congr fun t => ?_
  rw [← same.names ref written]
  exact and_congr_right fun stands => by rw [same.regions ref written t stands]

/-- The value of a formula is settled by the places it reads and the values there. -/
theorem cellValue_congr (same : f.SamePlaces book other home)
    (values : ∀ r ∈ (f.precedents book home).regions, ∀ a, r.contains a = true →
      value a = value' a) :
    f.tree.cellValue (book.viewWith value lib now seed) home =
      f.tree.cellValue (other.viewWith value' lib now seed) home := by
  refine Formula.cellValue_congr (book.viewWith value lib now seed)
    (other.viewWith value' lib now seed) rfl rfl rfl fun ref written => ?_
  exact Reference.evaluate_congr (same.names ref written) (same.regions ref written)
    fun t stands r region => values r (mem_regions.mpr ⟨ref, written, t, stands, region⟩)

end CellFormula

end Recalc
