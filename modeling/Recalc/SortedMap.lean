import Std.Data.ExtTreeMap
import Std.Data.ExtTreeSet

/-!
# Sorted maps and sets

Maps and sets that list their entries in ascending order of the key. Two of them are equal exactly
when they have the same entries.
-/

namespace Recalc

/-- A finite map that lists its entries in ascending order of the key. -/
abbrev SortedMap (κ : Type u) [Ord κ] (α : Type v) :=
  Std.ExtTreeMap κ α compare

/-- A finite set that lists its members in ascending order. -/
abbrev SortedSet (κ : Type u) [Ord κ] :=
  Std.ExtTreeSet κ compare

namespace SortedMap

variable {κ : Type u} [Ord κ] [Std.TransOrd κ] {α : Type v}

/-- Replaces the entry of `key` by its image under `f`, starting from `empty` when there is none. -/
def update (m : SortedMap κ α) (key : κ) (empty : α) (f : α → α) : SortedMap κ α :=
  m.insert key (f ((m[key]?).getD empty))

/-- The entries whose keys lie between two keys, both of these included. -/
def between (m : SortedMap κ α) (first last : κ) : List (κ × α) :=
  m.toList.filter fun (key, _) => (compare first key).isLE && (compare key last).isLE

/-- Adds the entries of `other`, joining values under a common key with `join mine theirs`. -/
def unionWith (join : α → α → α) (m other : SortedMap κ α) : SortedMap κ α :=
  other.foldl (fun acc key theirs =>
    match acc[key]? with
    | some mine => acc.insert key (join mine theirs)
    | none => acc.insert key theirs) m

end SortedMap

def SortedSet.union {κ : Type u} [Ord κ] [Std.TransOrd κ] (s t : SortedSet κ) : SortedSet κ :=
  t.foldl (fun acc k => acc.insert k) s

/-- The members of a list in ascending order, each once. -/
def sortDistinct {κ : Type u} [Ord κ] [Std.TransOrd κ] (l : List κ) : List κ :=
  (Std.ExtTreeSet.ofList l compare).toList

end Recalc
