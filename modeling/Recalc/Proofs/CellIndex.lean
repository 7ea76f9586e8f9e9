import Mathlib.Data.List.Induction
import Recalc.Dependency.CellIndex
import Recalc.Proofs.Maps
import Recalc.Proofs.Sorting

/-!
# What an index finds

An index of a list finds every cell under its place in the list (`find?_ofList`). The scan of a region
meets exactly the cells of the region (`mem_inRegion`), in the order of their numbers if the list
ascends (`ascending_inRegion_ofList`).
-/
namespace Recalc

theorem Address.eq_iff_onSheet {a c : Address} :
    a = c ↔ a.onSheet = c.onSheet ∧ a.position = c.position := by
  cases a
  cases c
  simp only [onSheet, position, mk.injEq, Scoped.mk.injEq, Position.mk.injEq, and_assoc]

/-- Addresses on one sheet are ordered like their positions. -/
theorem Address.compare_eq_of_onSheet {a c : Address} (same : a.onSheet = c.onSheet) :
    compare a c = compare a.position c.position := by
  obtain ⟨unit, sheet⟩ := Scoped.mk.inj same
  have units : compare a.unit c.unit = .eq := Std.LawfulEqOrd.compare_eq_iff_eq.mpr unit
  have sheets : compare a.sheet c.sheet = .eq := Std.LawfulEqOrd.compare_eq_iff_eq.mpr sheet
  show (compare a.unit c.unit).then ((compare a.sheet c.sheet).then _) = _
  rw [units, sheets]
  rfl

theorem Position.isLE_compare_iff {p q : Position} :
    (compare p q).isLE = true ↔ p.row < q.row ∨ p.row = q.row ∧ p.col ≤ q.col := by
  show ((compare p.row q.row).then (compare p.col q.col)).isLE = true ↔ _
  rcases Nat.lt_trichotomy p.row q.row with less | same | more
  · simp [Nat.compare_eq_lt.mpr less, less]
  · simp [same, Nat.isLE_compare]
  · simp [Nat.compare_eq_gt.mpr more, Nat.not_lt_of_gt more, Nat.ne_of_gt more]

namespace CellIndex

variable {ix : CellIndex} {cells : List Address} {a c : Address} {n m : Nat} {r : Region}

theorem find?_insert (ix : CellIndex) (a c : Address) (n : Nat) :
    (ix.insert a n).find? c = if a = c then some n else ix.find? c := by
  rw [find?, insert, SortedMap.getElem?_update]
  simp only [Address.eq_iff_onSheet (a := a)]
  by_cases sheet : a.onSheet = c.onSheet
  · rw [if_pos sheet, Option.bind_some, SortedMap.getElem?_insert, find?, sheet]
    simp only [true_and]
    split
    · rfl
    · cases ix.sheets[c.onSheet]? <;> simp
  · rw [if_neg sheet, if_neg fun both => sheet both.1, find?]

private theorem ofList_concat (cells : List Address) (a : Address) :
    ofList (cells ++ [a]) = (ofList cells).insert a cells.length := by
  simp [ofList, List.zipIdx_append, List.foldl_append]

theorem find?_ofList (nodup : cells.Nodup) : (ofList cells).find? a = some n ↔ cells[n]? = some a := by
  induction cells using List.reverseRecOn generalizing n with
  | nil => simp [ofList, find?]
  | append_singleton cells last ih =>
    obtain ⟨nodup, -, apart⟩ := List.nodup_append'.mp nodup
    rw [ofList_concat, find?_insert, List.getElem?_append]
    split
    next here =>
      -- the cell has not been listed before, so its only place is the last one
      subst here
      have new : cells[n]? ≠ some last := fun listed =>
        apart (List.mem_of_getElem? listed) (List.mem_singleton_self last)
      split
      next earlier => simp [new, Nat.ne_of_gt earlier]
      next late =>
        have last : n - cells.length = 0 ↔ cells.length = n := by omega
        simp [List.getElem?_singleton, last]
    next other =>
      rw [ih nodup]
      split
      · rfl
      next late =>
        rw [List.getElem?_eq_none (Nat.le_of_not_lt late), List.getElem?_singleton]
        simp [other]

/-! ### Scans -/

section Scan

variable {sheet : SortedMap Position Nat} {p : Position} {rectangle : Rectangle}

/-- Of the first and the last row between the corners only a part is scanned, and the columns of the
rectangle lie in both parts. -/
theorem mem_scan : (p, n) ∈ scan sheet rectangle ↔
    sheet[p]? = some n ∧ rectangle.contains p.row p.col = true := by
  simp only [scan, SortedMap.between, List.mem_filter, Std.ExtTreeMap.mem_toList_iff_getElem?_eq_some,
    Position.isLE_compare_iff, Rectangle.contains, Bool.and_eq_true, decide_eq_true_eq, and_assoc]
  refine and_congr_right fun _ => ?_
  omega

theorem ordered_scan (sheet : SortedMap Position Nat) (rectangle : Rectangle) :
    (scan sheet rectangle).Pairwise fun x y => compare x.1 y.1 = .lt :=
  (Std.ExtTreeMap.ordered_keys_toList.filter _).filter _

end Scan

theorem mem_inRegion : n ∈ ix.inRegion r ↔ ∃ a, r.contains a = true ∧ ix.find? a = some n := by
  simp only [inRegion, Region.contains, find?, Option.bind_eq_some_iff, Bool.and_eq_true, beq_iff_eq]
  constructor
  · intro member
    split at member
    next => cases member
    next sheet found =>
      obtain ⟨⟨p, _⟩, scanned, rfl⟩ := List.mem_map.mp member
      obtain ⟨here, inside⟩ := mem_scan.mp scanned
      exact ⟨⟨r.unit, r.sheet, p.row, p.col⟩, ⟨⟨rfl, rfl⟩, inside⟩, sheet, found, here⟩
  · rintro ⟨a, ⟨⟨unit, name⟩, inside⟩, sheet, found, here⟩
    have same : (⟨r.unit, r.sheet⟩ : Scoped) = a.onSheet := by rw [unit, name]; rfl
    rw [same, found]
    exact List.mem_map.mpr ⟨(a.position, n), mem_scan.mpr ⟨here, inside⟩, rfl⟩

/-- Numbers that grow with the addresses come in ascending order. -/
theorem ascending_inRegion (grows : ∀ a c n m, ix.find? a = some n → ix.find? c = some m →
    compare a c = .lt → n < m) (r : Region) : (ix.inRegion r).Pairwise (· < ·) := by
  unfold inRegion
  split
  · exact .nil
  next sheet found =>
    refine List.pairwise_map.mpr ((ordered_scan _ _).imp_of_mem fun {x y} first second less => ?_)
    -- both positions are on the sheet of the region
    have numbered : ∀ x ∈ scan sheet r.rectangle,
        ix.find? ⟨r.unit, r.sheet, x.1.row, x.1.col⟩ = some x.2 := fun x scanned =>
      Option.bind_eq_some_iff.mpr ⟨sheet, found, (mem_scan.mp scanned).1⟩
    refine grows _ _ _ _ (numbered x first) (numbered y second) ?_
    exact (Address.compare_eq_of_onSheet (by rfl)).trans less

theorem ascending_inRegion_ofList (ascending : cells.Pairwise fun a c => compare a c = .lt)
    (r : Region) : ((ofList cells).inRegion r).Pairwise (· < ·) := by
  have place : ∀ {a n}, (ofList cells).find? a = some n → cells[n]? = some a :=
    (find?_ofList (nodup_of_ascending ascending)).mp
  exact ascending_inRegion (fun _ _ _ _ first second =>
    (lt_iff_of_ascending ascending (place first) (place second)).mp) r

end CellIndex

end Recalc
