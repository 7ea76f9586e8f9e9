import Mathlib.Data.List.Nodup
import Mathlib.Data.List.Perm.Basic
import Recalc.SortedMap

/-!
# Ascending lists

Sorting a list without repetitions keeps its members (`mem_sortDistinct`) and lists them in strictly
ascending order (`ascending_sortDistinct`). A list that ascends already stays as it is, and of two of
its members the lesser one stands before the other (`lt_iff_of_ascending`).
-/
namespace Recalc

variable {α : Type} [Ord α] [Std.TransOrd α] {l : List α}

theorem nodup_of_ascending (ascending : l.Pairwise fun a b => compare a b = .lt) : l.Nodup :=
  ascending.imp fun {a b} less same => by
    have self : compare b b = .eq := Std.ReflCmp.compare_self
    rw [same, self] at less
    cases less

/-- In an ascending list the lesser member stands at the lesser place. -/
theorem lt_iff_of_ascending (ascending : l.Pairwise fun a b => compare a b = .lt) {n m : Nat} {a b : α}
    (first : l[n]? = some a) (second : l[m]? = some b) : compare a b = .lt ↔ n < m := by
  obtain ⟨nBound, rfl⟩ := List.getElem?_eq_some_iff.mp first
  obtain ⟨mBound, rfl⟩ := List.getElem?_eq_some_iff.mp second
  have places := List.pairwise_iff_getElem.mp ascending
  refine ⟨fun less => ?_, places n m nBound mBound⟩
  rcases Nat.lt_trichotomy n m with before | rfl | after
  · exact before
  · have self : compare l[n] l[n] = .eq := Std.ReflCmp.compare_self
    rw [self] at less
    cases less
  · exact absurd (places m n mBound nBound after) (Std.OrientedCmp.not_lt_of_lt less)

theorem ascending_sortDistinct (l : List α) :
    (sortDistinct l).Pairwise fun a b => compare a b = .lt :=
  Std.ExtTreeSet.ordered_toList

variable [Std.LawfulEqOrd α]

theorem mem_sortDistinct [DecidableEq α] {a : α} : a ∈ sortDistinct l ↔ a ∈ l := by
  rw [sortDistinct, Std.ExtTreeSet.mem_toList, Std.ExtTreeSet.mem_ofList, List.contains_iff_mem]

theorem sortDistinct_of_ascending [DecidableEq α] (ascending : l.Pairwise fun a b => compare a b = .lt) :
    sortDistinct l = l := by
  have same : (sortDistinct l).Perm l :=
    (List.perm_ext_iff_of_nodup (nodup_of_ascending (ascending_sortDistinct l))
      (nodup_of_ascending ascending)).mpr fun _ => mem_sortDistinct
  have antisymm : ∀ a b : α, compare a b = .lt → compare b a = .lt → a = b := fun a b less more =>
    absurd more (Std.OrientedCmp.not_lt_of_lt less)
  exact same.eq_of_pairwise (fun a b _ _ => antisymm a b) (ascending_sortDistinct l) ascending

end Recalc
