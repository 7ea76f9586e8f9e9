import Mathlib.Data.List.Nodup
import Recalc.Calculation.Results

/-!
# Maps and cells

What a look-up finds after an update, and that the cells of a result are listed once each
(`UnitCells.mem_toList`, `UnitCells.nodup_addresses`).
-/
namespace Recalc

/-! ### Folds -/

section Folds

variable {σ β γ : Type} {step : σ → β → σ}

/-- What no step of a fold changes is the same after all of them. -/
theorem foldl_kept (read : σ → γ) {l : List β} (kept : ∀ s, ∀ x ∈ l, read (step s x) = read s)
    (s : σ) : read (l.foldl step s) = read s := by
  induction l generalizing s with
  | nil => rfl
  | cons x rest ih =>
    rw [List.foldl_cons, ih fun t y later => kept t y (List.mem_cons_of_mem _ later)]
    exact kept s x List.mem_cons_self

/-- What holds after a fold, if each step makes it hold for its element and keeps it. -/
theorem foldl_iff (holds : σ → Prop) (adds : β → Prop)
    (one : ∀ s x, holds (step s x) ↔ holds s ∨ adds x) (l : List β) (s : σ) :
    holds (l.foldl step s) ↔ holds s ∨ ∃ x ∈ l, adds x := by
  induction l generalizing s with
  | nil => simp
  | cons x rest ih =>
    rw [List.foldl_cons, ih, one, or_assoc]
    simp only [List.mem_cons, exists_eq_or_imp]

end Folds

/-! ### Maps and sets -/

namespace SortedMap

variable {κ : Type} [Ord κ] [Std.TransOrd κ] [Std.LawfulEqOrd κ] [DecidableEq κ] {α : Type}

theorem getElem?_insert (m : SortedMap κ α) (key k : κ) (x : α) :
    (m.insert key x)[k]? = if key = k then some x else m[k]? := by
  rw [Std.ExtTreeMap.getElem?_insert]
  simp only [Std.LawfulEqOrd.compare_eq_iff_eq]

theorem getElem?_update (m : SortedMap κ α) (key k : κ) (empty : α) (f : α → α) :
    (m.update key empty f)[k]? = if key = k then some (f ((m[key]?).getD empty)) else m[k]? :=
  getElem?_insert m key k _

omit [DecidableEq κ] in
theorem distinct_keys (m : SortedMap κ α) : m.toList.Pairwise fun x y => x.1 ≠ y.1 :=
  Std.ExtTreeMap.distinct_keys_toList.imp fun distinct same =>
    distinct (Std.LawfulEqOrd.compare_eq_iff_eq.mpr same)

/-! ### Unions -/

section Union

variable {join : α → α → α} {m other : SortedMap κ α}

/-- One step of a union. -/
private def add (join : α → α → α) (m : SortedMap κ α) (key : κ) (theirs : α) : SortedMap κ α :=
  match m[key]? with
  | some mine => m.insert key (join mine theirs)
  | none => m.insert key theirs

private theorem getElem?_add (m : SortedMap κ α) (key k : κ) (theirs : α) :
    (add join m key theirs)[k]? =
      if key = k then some ((m[k]?).elim theirs (join · theirs)) else m[k]? := by
  unfold add
  split
  next mine found =>
    rw [getElem?_insert]
    split
    next same =>
      subst same
      rw [found]
      rfl
    next => rfl
  next found =>
    rw [getElem?_insert]
    split
    next same =>
      subst same
      rw [found]
      rfl
    next => rfl

private theorem foldl_add_of_notMem {l : List (κ × α)} {k : κ} (absent : k ∉ l.map Prod.fst) :
    (l.foldl (fun m x => add join m x.1 x.2) m)[k]? = m[k]? :=
  foldl_kept (fun m : SortedMap κ α => m[k]?) (fun m x listed => by
    rw [getElem?_add, if_neg fun same => absent (List.mem_map.mpr ⟨x, listed, same⟩)]) m

private theorem foldl_add_of_mem {l : List (κ × α)} (distinct : l.Pairwise fun x y => x.1 ≠ y.1)
    {k : κ} {theirs : α} (member : (k, theirs) ∈ l) :
    (l.foldl (fun m x => add join m x.1 x.2) m)[k]? =
      some ((m[k]?).elim theirs (join · theirs)) := by
  induction l generalizing m with
  | nil => cases member
  -- the keys are distinct, so the step that meets `k` is the only one that does
  | cons x rest ih =>
    obtain ⟨apart, distinct⟩ := List.pairwise_cons.mp distinct
    rcases List.mem_cons.mp member with rfl | later
    · have absent : k ∉ rest.map Prod.fst := fun again => by
        obtain ⟨y, listed, same⟩ := List.mem_map.mp again
        exact apart y listed same.symm
      rw [List.foldl_cons, foldl_add_of_notMem absent, getElem?_add, if_pos rfl]
    · rw [List.foldl_cons, ih distinct later, getElem?_add, if_neg (apart _ later)]

theorem getElem?_unionWith (join : α → α → α) (m other : SortedMap κ α) (k : κ) :
    (m.unionWith join other)[k]? =
      (other[k]?).elim (m[k]?) fun theirs => some ((m[k]?).elim theirs (join · theirs)) := by
  have folded : m.unionWith join other =
      other.toList.foldl (fun m x => add join m x.1 x.2) m := Std.ExtTreeMap.foldl_eq_foldl_toList
  rw [folded]
  cases found : other[k]? with
  | some theirs =>
    exact foldl_add_of_mem (distinct_keys other)
      (Std.ExtTreeMap.mem_toList_iff_getElem?_eq_some.mpr found)
  | none =>
    refine foldl_add_of_notMem fun listed => ?_
    obtain ⟨⟨_, theirs⟩, member, rfl⟩ := List.mem_map.mp listed
    rw [Std.ExtTreeMap.mem_toList_iff_getElem?_eq_some.mp member] at found
    cases found

theorem mem_unionWith {k : κ} : k ∈ m.unionWith join other ↔ k ∈ m ∨ k ∈ other := by
  simp only [Std.ExtTreeMap.mem_iff_isSome_getElem?, getElem?_unionWith]
  cases other[k]? <;> cases m[k]? <;> simp

end Union

end SortedMap

namespace SortedSet

variable {κ : Type} [Ord κ] [Std.TransOrd κ] [Std.LawfulEqOrd κ]

theorem mem_foldl_insert {l : List κ} {s : SortedSet κ} {k : κ} :
    k ∈ l.foldl (fun acc x => acc.insert x) s ↔ k ∈ s ∨ k ∈ l := by
  rw [foldl_iff (k ∈ ·) (· = k) fun s x => by
    rw [Std.ExtTreeSet.mem_insert, Std.LawfulEqOrd.compare_eq_iff_eq, or_comm]]
  simp only [exists_eq_right]

theorem mem_union {s t : SortedSet κ} {k : κ} : k ∈ s.union t ↔ k ∈ s ∨ k ∈ t := by
  rw [union, Std.ExtTreeSet.foldl_eq_foldl_toList, mem_foldl_insert, Std.ExtTreeSet.mem_toList]

end SortedSet

/-- Listing the parts of distinct groups, each under the key of its group, repeats nothing if no
group repeats anything. -/
theorem nodup_flatMap_of_key {α β γ : Type} {l : List (γ × α)} {parts : γ × α → List β}
    (key : β → γ) (distinct : l.Pairwise fun x y => x.1 ≠ y.1)
    (nodup : ∀ x ∈ l, (parts x).Nodup) (keyed : ∀ x ∈ l, ∀ y ∈ parts x, key y = x.1) :
    (l.flatMap parts).Nodup := by
  refine List.nodup_flatMap.mpr ⟨nodup, distinct.imp_of_mem fun {a b} first second ne => ?_⟩
  exact fun y here there => ne ((keyed a first y here).symm.trans (keyed b second y there))

namespace SheetCells

theorem get?_set (m : SheetCells) (row col r c : Nat) (v : Value) :
    (m.set row col v).get? r c = if row = r ∧ col = c then some v else m.get? r c := by
  unfold get? set
  rw [SortedMap.getElem?_update]
  by_cases sameRow : row = r
  · subst sameRow
    simp only [if_true, Option.bind_some, SortedMap.getElem?_insert, true_and]
    split
    · rfl
    · cases m.rows[row]? <;> simp
  · simp only [sameRow, false_and, if_false]

theorem mem_toList {m : SheetCells} {r c : Nat} {v : Value} :
    (r, c, v) ∈ m.toList ↔ m.get? r c = some v := by
  simp only [toList, get?, List.mem_flatMap, List.mem_map, Prod.exists, Prod.mk.injEq,
    Option.bind_eq_some_iff]
  constructor
  · rintro ⟨row, cols, listed, col, x, inRow, rfl, rfl, rfl⟩
    exact ⟨cols, Std.ExtTreeMap.mem_toList_iff_getElem?_eq_some.mp listed,
      Std.ExtTreeMap.mem_toList_iff_getElem?_eq_some.mp inRow⟩
  · rintro ⟨cols, listed, inRow⟩
    exact ⟨r, cols, Std.ExtTreeMap.mem_toList_iff_getElem?_eq_some.mpr listed, c, v,
      Std.ExtTreeMap.mem_toList_iff_getElem?_eq_some.mpr inRow, rfl, rfl, rfl⟩

theorem nodup_positions (m : SheetCells) : (m.toList.map fun x => (x.1, x.2.1)).Nodup := by
  rw [toList, List.map_flatMap]
  refine nodup_flatMap_of_key Prod.fst (SortedMap.distinct_keys m.rows) ?_ ?_
  · rintro ⟨row, cols⟩ _
    rw [List.map_map]
    refine List.pairwise_map.mpr ((SortedMap.distinct_keys cols).imp fun ne same => ne ?_)
    exact (Prod.mk.injEq _ _ _ _ ▸ same).2
  · rintro ⟨row, cols⟩ _ position member
    obtain ⟨_, inner, rfl⟩ := List.mem_map.mp member
    obtain ⟨_, _, rfl⟩ := List.mem_map.mp inner
    rfl

end SheetCells

namespace UnitCells

theorem get?_set (cells : UnitCells) (a b : Address) (v : Value) :
    (cells.set a v).get? b = if a = b then some v else cells.get? b := by
  unfold get? set
  rw [SortedMap.getElem?_update]
  -- an address is looked up by unit, then by sheet, then by position
  by_cases sameUnit : a.unit = b.unit
  · rw [if_pos sameUnit, sameUnit, Option.bind_some, SortedMap.getElem?_update]
    by_cases sameSheet : a.sheet = b.sheet
    · rw [if_pos sameSheet, sameSheet, Option.bind_some, SheetCells.get?_set]
      have same : (a.row = b.row ∧ a.col = b.col) ↔ a = b := by
        cases a; cases b
        simp_all
      simp only [same]
      split
      · rfl
      · cases cells[b.unit]? with
        | none => simp [SheetCells.get?, SheetCells.empty]
        | some sheets =>
          cases found : sheets[b.sheet]? <;> simp [found, SheetCells.get?, SheetCells.empty]
    · have ne : a ≠ b := fun same => sameSheet (congrArg Address.sheet same)
      rw [if_neg sameSheet, if_neg ne]
      cases cells[b.unit]? <;> simp
  · have ne : a ≠ b := fun same => sameUnit (congrArg Address.unit same)
    rw [if_neg sameUnit, if_neg ne]

theorem mem_toList {cells : UnitCells} {a : Address} {v : Value} :
    (a, v) ∈ cells.toList ↔ cells.get? a = some v := by
  simp only [toList, get?, List.mem_flatMap, List.mem_map, Prod.exists, Prod.mk.injEq,
    Option.bind_eq_some_iff]
  constructor
  · rintro ⟨unit, sheets, listed, sheet, m, inUnit, row, col, x, inSheet, rfl, rfl⟩
    exact ⟨sheets, Std.ExtTreeMap.mem_toList_iff_getElem?_eq_some.mp listed, m,
      Std.ExtTreeMap.mem_toList_iff_getElem?_eq_some.mp inUnit, SheetCells.mem_toList.mp inSheet⟩
  · rintro ⟨sheets, listed, m, inUnit, inSheet⟩
    exact ⟨a.unit, sheets, Std.ExtTreeMap.mem_toList_iff_getElem?_eq_some.mpr listed, a.sheet, m,
      Std.ExtTreeMap.mem_toList_iff_getElem?_eq_some.mpr inUnit, a.row, a.col, v,
      SheetCells.mem_toList.mpr inSheet, rfl, rfl⟩

theorem nodup_addresses (cells : UnitCells) : (cells.toList.map Prod.fst).Nodup := by
  rw [toList, List.map_flatMap]
  refine nodup_flatMap_of_key Address.unit (SortedMap.distinct_keys cells) ?_ ?_
  · rintro ⟨unit, sheets⟩ _
    rw [List.map_flatMap]
    refine nodup_flatMap_of_key Address.sheet (SortedMap.distinct_keys sheets) ?_ ?_
    · rintro ⟨sheet, m⟩ _
      rw [List.map_map]
      have positions := m.nodup_positions
      rw [List.Nodup, List.pairwise_map] at positions ⊢
      exact positions.imp fun ne same => ne (by simpa using same)
    · rintro ⟨sheet, m⟩ _ a member
      obtain ⟨_, inner, rfl⟩ := List.mem_map.mp member
      obtain ⟨_, _, rfl⟩ := List.mem_map.mp inner
      rfl
  · rintro ⟨unit, sheets⟩ _ a member
    obtain ⟨_, inner, rfl⟩ := List.mem_map.mp member
    obtain ⟨_, _, deeper⟩ := List.mem_flatMap.mp inner
    obtain ⟨_, _, rfl⟩ := List.mem_map.mp deeper
    rfl

theorem get?_empty (a : Address) : get? ∅ a = none := by
  simp [get?]

end UnitCells

end Recalc
