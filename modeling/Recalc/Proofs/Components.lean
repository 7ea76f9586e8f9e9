import Mathlib.Data.List.Nodup
import Mathlib.Data.List.Sort
import Mathlib.Logic.Relation
import Recalc.Dependency.Components
import Recalc.Proofs.Maps

/-!
# Strong components

`components` lists the classes of vertices that reach one another inside a set of vertices
(`components_partition`): each vertex of the set is in exactly one class, and no class reaches one
that is listed after it. `ClassSearch.Sound` is what every step of the search keeps: a visit reaches
all that has come on the stack since it began, every waiting vertex reaches back to a visit, and the
edges that have been followed lead to classes or to numbers that some visit has noted.
-/
namespace Recalc.Digraph

/-- A path along edges whose targets lie in `within`. -/
def Reaches (g : Digraph) (within : List Nat) : Nat → Nat → Prop :=
  Relation.ReflTransGen fun v w => w ∈ g.nextWithin within v

/-- Two vertices that reach one another. -/
def Mutual (g : Digraph) (within : List Nat) (v w : Nat) : Prop :=
  g.Reaches within v w ∧ g.Reaches within w v

variable {g : Digraph} {within : List Nat}

theorem mem_nextWithin {v w : Nat} : w ∈ g.nextWithin within v ↔ w ∈ g.next v ∧ w ∈ within := by
  simp [nextWithin]

theorem next_eq_nil {v : Nat} (outside : g.size ≤ v) : g.next v = [] := by
  simp [next, Array.getElem?_eq_none outside]

theorem mem_known {v : Nat} {vertices : List Nat} :
    v ∈ g.known vertices ↔ v ∈ vertices ∧ v < g.size := by
  simp [known]

theorem lt_size_of_mem_next {v w : Nat} (edge : w ∈ g.next v) : v < g.size := by
  by_contra outside
  simp [next_eq_nil (Nat.le_of_not_lt outside)] at edge

namespace Mutual

theorem symm {v w : Nat} (same : g.Mutual within v w) : g.Mutual within w v :=
  ⟨same.2, same.1⟩

theorem trans {u v w : Nat} (first : g.Mutual within u v) (second : g.Mutual within v w) :
    g.Mutual within u w :=
  ⟨first.1.trans second.1, second.2.trans first.2⟩

end Mutual

theorem Reaches.mem_within {v w : Nat} (inside : v ∈ within) (reaches : g.Reaches within v w) :
    w ∈ within := by
  cases reaches with
  | refl => exact inside
  | tail _ edge => exact (mem_nextWithin.mp edge).2

/-- A path stays in a set that no edge leads out of. -/
theorem Reaches.stays {set : Nat → Prop} (closed : ∀ v, set v → ∀ w ∈ g.nextWithin within v, set w)
    {v w : Nat} (inside : set v) (reaches : g.Reaches within v w) : set w := by
  induction reaches with
  | refl => exact inside
  | tail _ edge ih => exact closed _ ih _ edge

/-! ### Classes -/

/-- The classes of vertices that reach one another inside a set, no class reaching a later one. -/
structure Partition (g : Digraph) (within : List Nat) (classes : List (List Nat)) : Prop where
  isClass : ∀ c ∈ classes, ∃ v ∈ within, ∀ u, u ∈ c ↔ g.Mutual within v u
  ascending : ∀ c ∈ classes, c.Pairwise (· < ·)
  disjoint : classes.Pairwise List.Disjoint
  covers : ∀ v ∈ within, ∃ c ∈ classes, v ∈ c
  order : classes.Pairwise fun c d => ∀ v ∈ c, ∀ w ∈ d, ¬g.Reaches within v w

/-- Some of the classes, such that no edge leads out of them. -/
structure Found (g : Digraph) (within : List Nat) (classes : List (List Nat)) : Prop where
  isClass : ∀ c ∈ classes, ∃ v ∈ within, ∀ u, u ∈ c ↔ g.Mutual within v u
  ascending : ∀ c ∈ classes, c.Pairwise (· < ·)
  disjoint : classes.Pairwise List.Disjoint
  closed : ∀ v ∈ classes.flatten, ∀ w ∈ g.nextWithin within v, w ∈ classes.flatten
  order : classes.Pairwise fun c d => ∀ v ∈ c, ∀ w ∈ d, ¬g.Reaches within v w

namespace Found

variable {classes : List (List Nat)}

theorem nil (g : Digraph) (within : List Nat) : Found g within [] where
  isClass := by simp
  ascending := by simp
  disjoint := .nil
  closed := by simp
  order := .nil

theorem reaches (found : Found g within classes) {v w : Nat} (inside : v ∈ classes.flatten)
    (reaches : g.Reaches within v w) : w ∈ classes.flatten :=
  reaches.stays found.closed inside

/-- A new class of which all edges lead to itself or to the classes found before. -/
theorem append (found : Found g within classes) {c : List Nat} {v : Nat} (inside : v ∈ within)
    (isClass : ∀ u, u ∈ c ↔ g.Mutual within v u) (ascending : c.Pairwise (· < ·))
    (new : ∀ u ∈ c, u ∉ classes.flatten)
    (closed : ∀ u ∈ c, ∀ w ∈ g.nextWithin within u, w ∈ c ∨ w ∈ classes.flatten) :
    Found g within (classes ++ [c]) := by
  have flat : ∀ u, u ∈ (classes ++ [c]).flatten ↔ u ∈ classes.flatten ∨ u ∈ c := by simp
  refine ⟨?_, ?_, ?_, ?_, ?_⟩
  · intro d listed
    rcases List.mem_append.mp listed with before | last
    · exact found.isClass d before
    · rw [List.mem_singleton.mp last]
      exact ⟨v, inside, isClass⟩
  · intro d listed
    rcases List.mem_append.mp listed with before | last
    · exact found.ascending d before
    · rwa [List.mem_singleton.mp last]
  · refine List.pairwise_append.mpr ⟨found.disjoint, List.pairwise_singleton _ _, ?_⟩
    intro d before e last u here there
    rw [List.mem_singleton.mp last] at there
    exact new u there (List.mem_flatten_of_mem before here)
  · intro u member w edge
    rw [flat] at member ⊢
    rcases member with before | last
    · exact .inl (found.closed u before w edge)
    · exact (closed u last w edge).symm
  · refine List.pairwise_append.mpr ⟨found.order, List.pairwise_singleton _ _, ?_⟩
    intro d before e last u here w there path
    rw [List.mem_singleton.mp last] at there
    -- no path leads out of the classes found before
    exact new w there (found.reaches (List.mem_flatten_of_mem before here) path)

end Found

theorem sort_ascending {vertices : List Nat} (nodup : vertices.Nodup) :
    vertices.mergeSort.Pairwise (· < ·) := by
  have sorted : vertices.mergeSort.Pairwise (· ≤ ·) := List.pairwise_mergeSort' (· ≤ ·) vertices
  have distinct : vertices.mergeSort.Nodup := (List.mergeSort_perm vertices _).nodup_iff.mpr nodup
  exact sorted.imp₂ (fun _ _ => Nat.lt_of_le_of_ne) distinct

/-! ### What the search keeps -/

namespace ClassSearch

variable {s : ClassSearch} {skip : Nat → Nat → Prop} {x : Visit} {outer : List Visit}

/-- The number of a vertex that has been met. -/
def number (s : ClassSearch) (v : Nat) : Nat :=
  (s.numbers[v]?).getD 0

/-- Of every visit under which `u` was met, a visit inside it has noted a number as low as that
of `w`. -/
def Noted (s : ClassSearch) (u w : Nat) : Prop :=
  ∀ x ∈ s.visits, x.number ≤ s.number u → ∃ y ∈ s.visits, x.number ≤ y.number ∧ y.low ≤ s.number w

/-- An edge that needs no more attention: its target has a class, or its number has been noted. -/
def Settled (s : ClassSearch) (u w : Nat) : Prop :=
  w ∈ s.classes.flatten ∨ w ∈ s.stack ∧ s.Noted u w

/-- What holds between any two steps. The edges for which `skip` holds have been taken up, but not
been followed yet. -/
structure Sound (g : Digraph) (within : List Nat) (skip : Nat → Nat → Prop) (s : ClassSearch) :
    Prop where
  found : Found g within s.classes
  met : ∀ u, u ∈ s.numbers ↔ u ∈ s.stack ∨ u ∈ s.classes.flatten
  inside : ∀ u ∈ s.stack, u ∈ within
  apart : ∀ u ∈ s.stack, u ∉ s.classes.flatten
  count : ∀ u ∈ s.stack, s.number u < s.count
  descending : s.stack.Pairwise fun u w => s.number w < s.number u
  visited : ∀ x ∈ s.visits, x.vertex ∈ s.stack ∧ s.number x.vertex = x.number
  nested : s.visits.Pairwise fun x y => y.number < x.number
  pending : ∀ x ∈ s.visits, ∀ w ∈ x.pending, w ∈ g.nextWithin within x.vertex
  -- a visit reaches all that was met after it, and every waiting vertex reaches a visit before it
  reached : ∀ x ∈ s.visits, ∀ u ∈ s.stack, x.number ≤ s.number u → g.Reaches within x.vertex u
  returns : ∀ u ∈ s.stack, ∃ x ∈ s.visits, x.number ≤ s.number u ∧ g.Reaches within u x.vertex
  low : ∀ x ∈ s.visits, x.low ≤ x.number ∧
    ∃ u ∈ s.stack, s.number u = x.low ∧ g.Reaches within x.vertex u
  edges : ∀ u ∈ s.stack, ∀ w ∈ g.nextWithin within u,
    skip u w ∨ (∃ x ∈ s.visits, x.vertex = u ∧ w ∈ x.pending) ∨ s.Settled u w

theorem sound_start (g : Digraph) (within : List Nat) :
    Sound g within (fun _ _ => False) start where
  found := .nil g within
  met := by simp [start]
  inside := by simp [start]
  apart := by simp [start]
  count := by simp [start]
  descending := .nil
  visited := by simp [start]
  nested := .nil
  pending := by simp [start]
  reached := by simp [start]
  returns := by simp [start]
  low := by simp [start]
  edges := by simp [start]

namespace Sound

/-- Skipped edges that are settled need not be skipped any longer. -/
theorem settle (sound : Sound g within skip s) (settled : ∀ u w, skip u w → s.Settled u w) :
    Sound g within (fun _ _ => False) s :=
  { sound with
    edges u member w edge := by
      rcases sound.edges u member w edge with skipped | rest
      · exact .inr (.inr (settled u w skipped))
      · exact .inr rest }

theorem outer_lt (sound : Sound g within skip s) (visits : s.visits = x :: outer) :
    ∀ y ∈ outer, y.number < x.number := by
  have nested := sound.nested
  rw [visits] at nested
  exact (List.pairwise_cons.mp nested).1

/-- The last visit reaches back less far, or has fewer edges to follow. -/
theorem renew (sound : Sound g within skip s) (visits : s.visits = x :: outer) {x' : Visit}
    {skip' : Nat → Nat → Prop} (vertex : x'.vertex = x.vertex) (number : x'.number = x.number)
    (lower : x'.low ≤ x.low)
    (low : ∃ u ∈ s.stack, s.number u = x'.low ∧ g.Reaches within x.vertex u)
    (fewer : ∀ w ∈ x'.pending, w ∈ x.pending)
    (skipped : ∀ u w, skip u w → skip' u w)
    (dropped : ∀ w ∈ x.pending, w ∈ x'.pending ∨ skip' x.vertex w) :
    Sound g within skip' { s with visits := x' :: outer } := by
  have here : x ∈ s.visits := by simp [visits]
  have there : ∀ y ∈ outer, y ∈ s.visits := by simp +contextual [visits]
  -- what `x` had noted, `x'` has noted too, for it reaches back at least as far
  have noted : ∀ u w, s.Noted u w → Noted { s with visits := x' :: outer } u w := by
    intro u w noted y listed before
    obtain ⟨z, member, after, bound⟩ : ∃ z ∈ s.visits, y.number ≤ z.number ∧ z.low ≤ s.number w := by
      rcases List.mem_cons.mp listed with rfl | listed
      · rw [number] at before ⊢
        exact noted x here before
      · exact noted y (there y listed) before
    rw [visits] at member
    rcases List.mem_cons.mp member with rfl | member
    · exact ⟨x', List.mem_cons_self, number ▸ after, Nat.le_trans lower bound⟩
    · exact ⟨z, List.mem_cons_of_mem _ member, after, bound⟩
  refine { sound with
    visited := ?visited, nested := ?nested, pending := ?pending, reached := ?reached
    returns := ?returns, low := ?low, edges := ?edges }
  case visited =>
    intro y listed
    rcases List.mem_cons.mp listed with rfl | listed
    · rw [vertex, number]
      exact sound.visited x here
    · exact sound.visited y (there y listed)
  case nested =>
    have nested := sound.nested
    rw [visits] at nested
    exact List.pairwise_cons.mpr ⟨number ▸ sound.outer_lt visits, (List.pairwise_cons.mp nested).2⟩
  case pending =>
    intro y listed w waits
    rcases List.mem_cons.mp listed with rfl | listed
    · rw [vertex]
      exact sound.pending x here w (fewer w waits)
    · exact sound.pending y (there y listed) w waits
  case reached =>
    intro y listed
    rcases List.mem_cons.mp listed with rfl | listed
    · rw [vertex, number]
      exact sound.reached x here
    · exact sound.reached y (there y listed)
  case returns =>
    intro u member
    obtain ⟨y, listed, before, back⟩ := sound.returns u member
    rw [visits] at listed
    rcases List.mem_cons.mp listed with rfl | listed
    · exact ⟨x', List.mem_cons_self, number ▸ before, vertex ▸ back⟩
    · exact ⟨y, List.mem_cons_of_mem _ listed, before, back⟩
  case low =>
    intro y listed
    rcases List.mem_cons.mp listed with rfl | listed
    · rw [vertex, number]
      exact ⟨Nat.le_trans lower (sound.low x here).1, low⟩
    · exact sound.low y (there y listed)
  case edges =>
    intro u member w edge
    rcases sound.edges u member w edge with skip | ⟨y, listed, rfl, waits⟩ | settled
    · exact .inl (skipped u w skip)
    · rw [visits] at listed
      rcases List.mem_cons.mp listed with rfl | listed
      · rcases dropped w waits with kept | skip
        · exact .inr (.inl ⟨x', List.mem_cons_self, vertex, kept⟩)
        · exact .inl skip
      · exact .inr (.inl ⟨y, List.mem_cons_of_mem _ listed, rfl, waits⟩)
    · exact .inr (.inr (settled.imp_right fun ⟨waits, old⟩ => ⟨waits, noted u w old⟩))

/-! ### Meeting a vertex -/

theorem number_enter (v u : Nat) :
    (s.enter g within v).number u = if v = u then s.count else s.number u := by
  unfold number enter
  rw [SortedMap.getElem?_insert]
  split <;> rfl

/-- A vertex is met along an edge of the last visit, or while no visit is under way. -/
theorem enter (sound : Sound g within skip s) {v : Nat} (inside : v ∈ within) (new : v ∉ s.numbers)
    (reach : ∀ x ∈ s.visits, g.Reaches within x.vertex v) :
    Sound g within skip (s.enter g within v) := by
  -- the number of `v` is new and the highest, and no other number changes
  have ne : ∀ u ∈ s.stack, v ≠ u := fun u waits same =>
    new ((sound.met v).mpr (.inl (same ▸ waits)))
  have number : ∀ u ∈ s.stack, (s.enter g within v).number u = s.number u := fun u waits => by
    rw [number_enter, if_neg (ne u waits)]
  have last : (s.enter g within v).number v = s.count := by rw [number_enter, if_pos rfl]
  have earlier : ∀ x ∈ s.visits, x.number < s.count := fun x listed => by
    obtain ⟨waits, same⟩ := sound.visited x listed
    exact same ▸ sound.count _ waits
  refine {
    found := sound.found, met := ?met, inside := ?inside, apart := ?apart, count := ?count
    descending := ?descending, visited := ?visited, nested := ?nested, pending := ?pending
    reached := ?reached, returns := ?returns, low := ?low, edges := ?edges }
  case met =>
    intro u
    have member : u ∈ (s.enter g within v).numbers ↔ v = u ∨ u ∈ s.numbers := by
      simp only [ClassSearch.enter, Std.ExtTreeMap.mem_insert, Std.LawfulEqOrd.compare_eq_iff_eq]
    rw [member, sound.met]
    simp only [ClassSearch.enter, List.mem_cons, or_assoc, eq_comm]
  case inside =>
    intro u waits
    rcases List.mem_cons.mp waits with rfl | waits
    · exact inside
    · exact sound.inside u waits
  case apart =>
    intro u waits
    rcases List.mem_cons.mp waits with rfl | waits
    · exact fun old => new ((sound.met u).mpr (.inr old))
    · exact sound.apart u waits
  case count =>
    intro u waits
    rcases List.mem_cons.mp waits with rfl | waits
    · rw [last]
      exact Nat.lt_succ_self _
    · rw [number u waits]
      exact Nat.lt_succ_of_lt (sound.count u waits)
  case descending =>
    refine List.pairwise_cons.mpr ⟨fun u waits => ?_, ?_⟩
    · rw [last, number u waits]
      exact sound.count u waits
    · exact sound.descending.imp_of_mem fun first second less => by
        rwa [number _ first, number _ second]
  case visited =>
    intro x listed
    rcases List.mem_cons.mp listed with rfl | listed
    · exact ⟨List.mem_cons_self, last⟩
    · obtain ⟨waits, same⟩ := sound.visited x listed
      exact ⟨List.mem_cons_of_mem _ waits, by rw [number _ waits, same]⟩
  case nested =>
    exact List.pairwise_cons.mpr ⟨earlier, sound.nested⟩
  case pending =>
    intro x listed
    rcases List.mem_cons.mp listed with rfl | listed
    · exact fun w edge => edge
    · exact sound.pending x listed
  case reached =>
    intro x listed u waits before
    rcases List.mem_cons.mp listed with rfl | under
    · -- nothing but `v` itself has a number as high as its own
      rcases List.mem_cons.mp waits with rfl | waits
      · exact .refl
      · have low := sound.count u waits
        rw [number u waits] at before
        exact absurd low (Nat.not_lt.mpr before)
    · rcases List.mem_cons.mp waits with rfl | waits
      · exact reach x under
      · rw [number u waits] at before
        exact sound.reached x under u waits before
  case returns =>
    intro u waits
    rcases List.mem_cons.mp waits with rfl | waits
    -- `v` is the vertex of a visit itself
    · exact ⟨_, List.mem_cons_self, Nat.le_of_eq last.symm, .refl⟩
    · obtain ⟨x, listed, before, back⟩ := sound.returns u waits
      exact ⟨x, List.mem_cons_of_mem _ listed, by rwa [number u waits], back⟩
  case low =>
    intro x listed
    rcases List.mem_cons.mp listed with rfl | listed
    · exact ⟨Nat.le_refl _, v, List.mem_cons_self, last, .refl⟩
    · obtain ⟨bound, u, waits, same, path⟩ := sound.low x listed
      exact ⟨bound, u, List.mem_cons_of_mem _ waits, by rw [number u waits, same], path⟩
  case edges =>
    intro u waits w edge
    rcases List.mem_cons.mp waits with rfl | waits
    -- all edges of `v` are still to be followed
    · exact .inr (.inl ⟨_, List.mem_cons_self, rfl, edge⟩)
    rcases sound.edges u waits w edge with skipped | ⟨x, listed, same, more⟩ | old | ⟨target, noted⟩
    · exact .inl skipped
    · exact .inr (.inl ⟨x, List.mem_cons_of_mem _ listed, same, more⟩)
    · exact .inr (.inr (.inl old))
    · refine .inr (.inr (.inr ⟨List.mem_cons_of_mem _ target, fun x listed before => ?_⟩))
      rw [number u waits] at before
      -- no vertex that waited before was met under the visit of `v`
      rcases List.mem_cons.mp listed with rfl | listed
      · exact absurd (sound.count u waits) (Nat.not_lt.mpr before)
      · obtain ⟨y, member, after, bound⟩ := noted x listed before
        exact ⟨y, List.mem_cons_of_mem _ member, after, by rwa [number w target]⟩

/-! ### Following an edge -/

theorem lower_eq (visits : s.visits = x :: outer) (n : Nat) :
    s.lower n = { s with visits := { x with low := min x.low n } :: outer } := by
  unfold lower
  rw [visits]

/-- The last visit notes the number of a vertex that it leads to. -/
theorem lower (sound : Sound g within skip s) (visits : s.visits = x :: outer) {w : Nat}
    (waits : w ∈ s.stack) (path : g.Reaches within x.vertex w) :
    Sound g within skip { s with visits := { x with low := min x.low (s.number w) } :: outer } := by
  refine sound.renew visits rfl rfl (Nat.min_le_left _ _) ?_ (fun _ waits => waits)
    (fun _ _ skip => skip) fun _ waits => .inl waits
  rcases Nat.le_total x.low (s.number w) with low | high
  · rw [Nat.min_eq_left low]
    exact (sound.low x (visits ▸ List.mem_cons_self)).2
  · rw [Nat.min_eq_right high]
    exact ⟨w, waits, rfl, path⟩

theorem follow {w : Nat} (sound : Sound g within (fun u v => u = x.vertex ∧ v = w) s)
    (visits : s.visits = x :: outer) (edge : w ∈ g.nextWithin within x.vertex) :
    Sound g within (fun _ _ => False) (s.follow g within w) := by
  obtain ⟨here, same⟩ := sound.visited x (visits ▸ List.mem_cons_self)
  unfold ClassSearch.follow
  split
  -- a new vertex is visited
  next unmet =>
    have new : w ∉ s.numbers := by
      rw [Std.ExtTreeMap.mem_iff_isSome_getElem?, unmet]
      exact Bool.false_ne_true
    have reach : ∀ y ∈ s.visits, g.Reaches within y.vertex w := by
      intro y listed
      have before : y.number ≤ s.number x.vertex := by
        rw [same]
        rw [visits] at listed
        rcases List.mem_cons.mp listed with rfl | listed
        · exact Nat.le_refl _
        · exact Nat.le_of_lt (sound.outer_lt visits y listed)
      exact (sound.reached y listed _ here before).tail edge
    have entered := sound.enter (mem_nextWithin.mp edge).2 new reach
    refine entered.settle ?_
    rintro _ v ⟨rfl, rfl⟩
    refine .inr ⟨List.mem_cons_self, fun y listed before => ⟨y, listed, Nat.le_refl _, ?_⟩⟩
    -- the new number is above all others
    have bound := sound.count _ here
    have apart : v ≠ x.vertex := fun equal => new ((sound.met _).mpr (.inl (equal ▸ here)))
    rw [number_enter, if_neg apart] at before
    rw [number_enter, if_pos rfl]
    exact Nat.le_trans (entered.low y listed).1 (Nat.le_trans before (Nat.le_of_lt bound))
  next n found =>
    have number : s.number w = n := by rw [ClassSearch.number, found, Option.getD_some]
    split
    -- the number of a vertex that waits is noted
    next waits =>
      have waits : w ∈ s.stack := by simpa using waits
      rw [lower_eq visits, ← number]
      refine (sound.lower visits waits (.single edge)).settle ?_
      rintro _ _ ⟨rfl, rfl⟩
      refine .inr ⟨waits, fun y _ before => ⟨_, List.mem_cons_self, ?_, Nat.min_le_right _ _⟩⟩
      exact same ▸ before
    -- an edge to a class is over
    next gone =>
      have met : w ∈ s.numbers := by
        rw [Std.ExtTreeMap.mem_iff_isSome_getElem?, found]
        rfl
      refine sound.settle ?_
      rintro _ _ ⟨rfl, rfl⟩
      exact .inl (((sound.met _).mp met).resolve_left (by simpa using gone))

/-- Taking up an edge of the last visit and following it. -/
theorem advance {w : Nat} {more : List Nat} (sound : Sound g within (fun _ _ => False) s)
    (visits : s.visits = x :: outer) (edges : x.pending = w :: more) :
    Sound g within (fun _ _ => False)
      ({ s with visits := { x with pending := more } :: outer }.follow g within w) := by
  have here : x ∈ s.visits := visits ▸ List.mem_cons_self
  have edge : w ∈ g.nextWithin within x.vertex :=
    sound.pending x here w (edges ▸ List.mem_cons_self)
  have renewed : Sound g within (fun u v => u = x.vertex ∧ v = w)
      { s with visits := { x with pending := more } :: outer } := by
    refine sound.renew visits rfl rfl (Nat.le_refl _) (sound.low x here).2 ?_ (fun _ _ => False.elim) ?_
    · exact fun v waits => edges ▸ List.mem_cons_of_mem _ waits
    · intro v waits
      rw [edges] at waits
      rcases List.mem_cons.mp waits with rfl | waits
      · exact .inr ⟨rfl, rfl⟩
      · exact .inl waits
  exact follow (x := { x with pending := more }) renewed rfl edge

/-! ### Ending a visit -/

/-- A visit that leads below its own number ends; its outer visit has yet to note what it leads to. -/
theorem drop (sound : Sound g within (fun _ _ => False) s) (visits : s.visits = x :: outer)
    (done : x.pending = []) (below : x.low < x.number) :
    Sound g within (fun _ w => w ∈ s.stack ∧ x.low ≤ s.number w) { s with visits := outer } := by
  have there : ∀ y ∈ outer, y ∈ s.visits := fun y listed => visits ▸ List.mem_cons_of_mem _ listed
  have nested := sound.nested
  rw [visits] at nested
  have isOuter : ∀ y ∈ s.visits, y.number < x.number → y ∈ outer := fun y listed less => by
    rw [visits] at listed
    rcases List.mem_cons.mp listed with rfl | listed
    · exact absurd less (Nat.lt_irrefl _)
    · exact listed
  obtain ⟨-, t, target, number, path⟩ := sound.low x (visits ▸ List.mem_cons_self)
  refine { sound with
    visited := fun y listed => sound.visited y (there y listed)
    nested := (List.pairwise_cons.mp nested).2
    pending := fun y listed => sound.pending y (there y listed)
    reached := fun y listed => sound.reached y (there y listed)
    returns := ?returns
    low := fun y listed => sound.low y (there y listed)
    edges := ?edges }
  case returns =>
    intro u waits
    obtain ⟨y, listed, before, back⟩ := sound.returns u waits
    rw [visits] at listed
    rcases List.mem_cons.mp listed with rfl | listed
    · -- from the ending visit the way back goes on through the vertex that it leads to
      obtain ⟨z, member, lower, home⟩ := sound.returns t target
      have less : z.number < y.number := by omega
      have bound : z.number ≤ s.number u := by omega
      exact ⟨z, isOuter z member less, bound, (back.trans path).trans home⟩
    · exact ⟨y, listed, before, back⟩
  case edges =>
    intro u waits w edge
    rcases sound.edges u waits w edge with skip | ⟨y, listed, same, more⟩ | old | ⟨member, noted⟩
    · exact skip.elim
    · rw [visits] at listed
      rcases List.mem_cons.mp listed with rfl | listed
      · rw [done] at more
        cases more
      · exact .inr (.inl ⟨y, listed, same, more⟩)
    · exact .inr (.inr (.inl old))
    -- a number below `x.low` has been noted by a visit other than `x`
    · by_cases covered : x.low ≤ s.number w
      · exact .inl ⟨member, covered⟩
      · refine .inr (.inr (.inr ⟨member, fun y listed before => ?_⟩))
        obtain ⟨z, inside, after, bound⟩ := noted y (there y listed) before
        rw [visits] at inside
        rcases List.mem_cons.mp inside with rfl | inside
        · exact absurd bound covered
        · exact ⟨z, inside, after, bound⟩

/-- The outer visit of one that leads below its own number. -/
theorem leave_below (sound : Sound g within (fun _ _ => False) s) (visits : s.visits = x :: outer)
    (done : x.pending = []) (below : x.low < x.number) :
    Sound g within (fun _ _ => False) ({ s with visits := outer }.lower x.low) := by
  have dropped := sound.drop visits done below
  obtain ⟨-, t, target, number, path⟩ := sound.low x (visits ▸ List.mem_cons_self)
  -- the vertex that it leads to has an outer visit
  obtain ⟨z, member, lower, -⟩ := dropped.returns t target
  cases outer with
  | nil => cases member
  | cons y rest =>
    have inner := sound.outer_lt visits y List.mem_cons_self
    have reaches : g.Reaches within y.vertex t := by
      have visited := sound.visited x (visits ▸ List.mem_cons_self)
      have down := sound.reached y (visits ▸ by simp) x.vertex visited.1 (by omega)
      exact down.trans path
    rw [lower_eq rfl, ← number]
    refine (dropped.lower rfl target reaches).settle ?_
    rintro u w ⟨waits, bound⟩
    refine .inr ⟨waits, fun v listed _ => ⟨_, List.mem_cons_self, ?_, ?_⟩⟩
    · rcases List.mem_cons.mp listed with rfl | listed
      · exact Nat.le_refl _
      · exact Nat.le_of_lt (dropped.outer_lt rfl v listed)
    · exact Nat.le_trans (Nat.min_le_right _ _) (number ▸ bound)

/-- The vertices that wait since a visit began, and those that waited before. -/
theorem exists_split (sound : Sound g within skip s) {v : Nat} (waits : v ∈ s.stack) :
    ∃ since before, s.stack.takeWhile (· != v) = since ∧
      (s.stack.dropWhile (· != v)).tail = before ∧
      (∀ u, u ∈ v :: since ↔ u ∈ s.stack ∧ s.number v ≤ s.number u) ∧
      (∀ u, u ∈ before ↔ u ∈ s.stack ∧ s.number u < s.number v) ∧
      (v :: since).Nodup ∧ before.Sublist s.stack := by
  obtain ⟨since, before, split, absent⟩ := List.eq_append_cons_of_mem waits
  have differ : ∀ u ∈ since, (u != v) = true := fun u member => by
    simpa using fun same : u = v => absent (same ▸ member)
  have descending := sound.descending
  rw [split, List.pairwise_append, List.pairwise_cons] at descending
  obtain ⟨inner, ⟨lower, -⟩, apart⟩ := descending
  have higher : ∀ u ∈ since, s.number v < s.number u := fun u member =>
    apart u member v List.mem_cons_self
  have stack : ∀ u, u ∈ s.stack ↔ u ∈ v :: since ∨ u ∈ before := fun u => by
    rw [split]
    simp only [List.mem_append, List.mem_cons]
    tauto
  have above : ∀ u ∈ v :: since, s.number v ≤ s.number u := fun u member => by
    rcases List.mem_cons.mp member with rfl | member
    · exact Nat.le_refl _
    · exact Nat.le_of_lt (higher u member)
  refine ⟨since, before, ?_, ?_, fun u => ?_, fun u => ?_, ?_, ?_⟩
  · rw [split, List.takeWhile_append_of_pos differ]
    simp
  · rw [split, List.dropWhile_append_of_pos differ]
    simp
  · rw [stack]
    constructor
    · exact fun member => ⟨.inl member, above u member⟩
    · rintro ⟨member | old, bound⟩
      · exact member
      · exact absurd (lower u old) (Nat.not_lt.mpr bound)
  · rw [stack]
    constructor
    · exact fun member => ⟨.inr member, lower u member⟩
    · rintro ⟨member | old, bound⟩
      · exact absurd bound (Nat.not_lt.mpr (above u member))
      · exact old
  · refine List.nodup_cons.mpr ⟨absent, inner.imp fun {a b} less same => ?_⟩
    rw [same] at less
    exact Nat.lt_irrefl _ less
  · rw [split]
    exact (List.sublist_cons_self v before).trans (List.sublist_append_right since _)

section Closing

variable (sound : Sound g within (fun _ _ => False) s) (visits : s.visits = x :: outer)
  (done : x.pending = []) (root : x.low = x.number)
include sound visits done root

/-- Edges from the vertices met since a visit began stay among them or lead to classes, if the visit
leads to none below its own number. -/
theorem closed_since {u w : Nat} (waits : u ∈ s.stack) (since : x.number ≤ s.number u)
    (edge : w ∈ g.nextWithin within u) :
    (w ∈ s.stack ∧ x.number ≤ s.number w) ∨ w ∈ s.classes.flatten := by
  rcases sound.edges u waits w edge with skip | ⟨y, listed, same, more⟩ | old | ⟨target, noted⟩
  · exact skip.elim
  · -- a vertex whose visit is still under way was met before, unless it is `x` itself
    rw [visits] at listed
    rcases List.mem_cons.mp listed with rfl | listed
    · rw [done] at more
      cases more
    · have less := sound.outer_lt visits y listed
      have number := (sound.visited y (visits ▸ List.mem_cons_of_mem _ listed)).2
      rw [same] at number
      omega
  · exact .inr old
  · obtain ⟨y, listed, after, bound⟩ := noted x (visits ▸ List.mem_cons_self) since
    rw [visits] at listed
    rcases List.mem_cons.mp listed with rfl | listed
    · exact .inl ⟨target, root ▸ bound⟩
    · exact absurd (sound.outer_lt visits y listed) (Nat.not_lt.mpr after)

/-- The vertices met since the visit of `x` began are the class of `x`. -/
theorem mem_class_iff (u : Nat) :
    (u ∈ s.stack ∧ x.number ≤ s.number u) ↔ g.Mutual within x.vertex u := by
  have here : x ∈ s.visits := visits ▸ List.mem_cons_self
  obtain ⟨waits, number⟩ := sound.visited x here
  constructor
  · rintro ⟨member, since⟩
    refine ⟨sound.reached x here u member since, ?_⟩
    -- the way back leads to some visit under way, and from there on to `x`
    obtain ⟨y, listed, _, back⟩ := sound.returns u member
    have before : y.number ≤ x.number := by
      rw [visits] at listed
      rcases List.mem_cons.mp listed with rfl | listed
      · exact Nat.le_refl _
      · exact Nat.le_of_lt (sound.outer_lt visits y listed)
    exact back.trans (sound.reached y listed x.vertex waits (number ▸ before))
  · rintro ⟨there, back⟩
    -- what `x` reaches was met since its visit began, or has a class and does not lead back to `x`
    have closed : ∀ v, ((v ∈ s.stack ∧ x.number ≤ s.number v) ∨ v ∈ s.classes.flatten) →
        ∀ w ∈ g.nextWithin within v,
          (w ∈ s.stack ∧ x.number ≤ s.number w) ∨ w ∈ s.classes.flatten := by
      rintro v (⟨member, since⟩ | old) w edge
      · exact sound.closed_since visits done root member since edge
      · exact .inr (sound.found.closed v old w edge)
    rcases there.stays closed (.inl ⟨waits, Nat.le_of_eq number.symm⟩) with member | old
    · exact member
    · exact absurd (sound.found.reaches old back) (sound.apart _ waits)

/-- The visit of `x` ends a class. -/
theorem close : Sound g within (fun _ _ => False) ({ s with visits := outer }.close x.vertex) := by
  have here : x ∈ s.visits := visits ▸ List.mem_cons_self
  have there : ∀ y ∈ outer, y ∈ s.visits := fun y listed => visits ▸ List.mem_cons_of_mem _ listed
  obtain ⟨waits, number⟩ := sound.visited x here
  obtain ⟨since, before, first, rest, memSince, memBefore, distinct, fewer⟩ :=
    sound.exists_split waits
  rw [number] at memSince memBefore
  -- the stack is split at `x`: the class above it, and below it what was met before
  have isClass : ∀ u, u ∈ (x.vertex :: since).mergeSort ↔ g.Mutual within x.vertex u := fun u => by
    rw [(List.mergeSort_perm _ _).mem_iff, memSince]
    exact sound.mem_class_iff visits done root u
  have member : ∀ u, u ∈ (x.vertex :: since).mergeSort ↔ u ∈ s.stack ∧ x.number ≤ s.number u :=
    fun u => by rw [(List.mergeSort_perm _ _).mem_iff, memSince]
  have flat : ∀ u, u ∈ (s.classes ++ [(x.vertex :: since).mergeSort]).flatten ↔
      u ∈ s.classes.flatten ∨ u ∈ s.stack ∧ x.number ≤ s.number u := fun u => by
    rw [List.flatten_append, List.mem_append, List.flatten_singleton, member]
  have closed : { s with visits := outer }.close x.vertex =
      { s with
        visits := outer, stack := before
        classes := s.classes ++ [(x.vertex :: since).mergeSort] } := by
    unfold ClassSearch.close
    simp only [first, rest]
  have earlier : ∀ y ∈ s.visits, y.number < x.number → y ∈ outer := fun y listed less => by
    rw [visits] at listed
    exact (List.mem_cons.mp listed).resolve_left fun same => Nat.lt_irrefl _ (same ▸ less)
  have nested := sound.nested
  rw [visits] at nested
  rw [closed]
  refine {
    found := ?found, met := ?met, inside := ?inside, apart := ?apart, count := ?count
    descending := ?descending, visited := ?visited, nested := (List.pairwise_cons.mp nested).2
    pending := ?pending, reached := ?reached, returns := ?returns, low := ?low, edges := ?edges }
  case found =>
    refine sound.found.append (sound.inside _ waits) isClass (sort_ascending distinct) ?_ ?_
    · exact fun u inside => sound.apart u ((member u).mp inside).1
    · intro u inside w edge
      obtain ⟨waits, since⟩ := (member u).mp inside
      exact (sound.closed_since visits done root waits since edge).imp_left (member w).mpr
  case met =>
    intro u
    rw [sound.met, flat, memBefore]
    rcases Nat.lt_or_ge (s.number u) x.number with low | high
    · have := Nat.not_le.mpr low
      tauto
    · have := Nat.not_lt.mpr high
      tauto
  case inside =>
    exact fun u old => sound.inside u ((memBefore u).mp old).1
  case apart =>
    intro u old
    obtain ⟨waits, less⟩ := (memBefore u).mp old
    rw [flat]
    rintro (classed | ⟨-, since⟩)
    · exact sound.apart u waits classed
    · exact absurd less (Nat.not_lt.mpr since)
  case count =>
    exact fun u old => sound.count u ((memBefore u).mp old).1
  case descending =>
    exact sound.descending.sublist fewer
  case visited =>
    intro y listed
    obtain ⟨waits, number⟩ := sound.visited y (there y listed)
    exact ⟨(memBefore _).mpr ⟨waits, number ▸ sound.outer_lt visits y listed⟩, number⟩
  case pending =>
    exact fun y listed => sound.pending y (there y listed)
  case reached =>
    exact fun y listed u old => sound.reached y (there y listed) u ((memBefore u).mp old).1
  case returns =>
    intro u old
    obtain ⟨waits, less⟩ := (memBefore u).mp old
    obtain ⟨y, listed, bound, back⟩ := sound.returns u waits
    exact ⟨y, earlier y listed (Nat.lt_of_le_of_lt bound less), bound, back⟩
  case low =>
    intro y listed
    obtain ⟨bound, u, waits, number, path⟩ := sound.low y (there y listed)
    have less := sound.outer_lt visits y listed
    exact ⟨bound, u, (memBefore u).mpr ⟨waits, by omega⟩, number, path⟩
  case edges =>
    intro u old w edge
    obtain ⟨waits, less⟩ := (memBefore u).mp old
    rcases sound.edges u waits w edge with skip | ⟨y, listed, same, more⟩ | classed | ⟨target, noted⟩
    · exact skip.elim
    · have number := (sound.visited y listed).2
      rw [same] at number
      exact .inr (.inl ⟨y, earlier y listed (number ▸ less), same, more⟩)
    · exact .inr (.inr (.inl ((flat w).mpr (.inl classed))))
    -- the target of an edge that had been noted may now have a class itself
    · rcases Nat.lt_or_ge (s.number w) x.number with low | high
      · refine .inr (.inr (.inr ⟨(memBefore w).mpr ⟨target, low⟩, fun y listed bound => ?_⟩))
        obtain ⟨z, inside, after, noted⟩ := noted y (there y listed) bound
        have least : z.number < x.number ∨ z = x := by
          rw [visits] at inside
          rcases List.mem_cons.mp inside with rfl | inside
          · exact .inr rfl
          · exact .inl (sound.outer_lt visits z inside)
        rcases least with less | rfl
        · exact ⟨z, earlier z inside less, after, noted⟩
        · omega
      · exact .inr (.inr (.inl ((flat w).mpr (.inr ⟨target, high⟩))))

end Closing

theorem leave (sound : Sound g within (fun _ _ => False) s) (visits : s.visits = x :: outer)
    (done : x.pending = []) : Sound g within (fun _ _ => False) (s.leave x outer) := by
  unfold ClassSearch.leave
  split
  next root =>
    -- the outer visit has a lower number itself, so it learns nothing
    have same : { s with visits := outer }.lower x.low = { s with visits := outer } := by
      cases outer with
      | nil => rfl
      | cons y rest =>
        have less := sound.outer_lt visits y List.mem_cons_self
        have bound := (sound.low y (visits ▸ by simp)).1
        rw [lower_eq rfl, Nat.min_eq_left (by omega)]
    rw [same]
    exact sound.close visits done root
  next inner =>
    have bound := (sound.low x (visits ▸ List.mem_cons_self)).1
    exact sound.leave_below visits done (Nat.lt_of_le_of_ne bound inner)

/-! ### Whole searches -/

theorem step (sound : Sound g within (fun _ _ => False) s) (visits : s.visits = x :: outer) :
    Sound g within (fun _ _ => False) (s.step g within x outer) := by
  unfold ClassSearch.step
  split
  next done => exact sound.leave visits done
  next w more edges => exact sound.advance visits edges

/-- A search that has ended has no visit under way. -/
theorem run (sound : Sound g within (fun _ _ => False) s) :
    Sound g within (fun _ _ => False) (s.run g within) ∧ (s.run g within).visits = [] := by
  fun_induction ClassSearch.run g within s with
  | case1 s none => exact ⟨sound, none⟩
  | case2 s x outer visits ih => exact ih (sound.step visits)

/-- Between two roots all vertices that have been met have a class. -/
theorem explore (sound : Sound g within (fun _ _ => False) s) (idle : s.visits = []) {root : Nat}
    (inside : root ∈ within) :
    Sound g within (fun _ _ => False) (s.explore g within root) ∧
      (s.explore g within root).visits = [] := by
  unfold ClassSearch.explore
  split
  · exact ⟨sound, idle⟩
  next unmet =>
    have new : root ∉ s.numbers := fun met => unmet (Std.ExtTreeMap.mem_iff_contains.mp met)
    refine (sound.enter inside new fun x listed => ?_).run
    rw [idle] at listed
    cases listed

end Sound

theorem stack_eq_nil (sound : Sound g within skip s) (idle : s.visits = []) : s.stack = [] := by
  refine List.eq_nil_iff_forall_not_mem.mpr fun u waits => ?_
  obtain ⟨x, listed, -⟩ := sound.returns u waits
  rw [idle] at listed
  cases listed

/-- A step keeps what has been met. -/
theorem mem_numbers_step {u : Nat} (met : u ∈ s.numbers) :
    u ∈ (s.step g within x outer).numbers := by
  have lowered : ∀ (t : ClassSearch) n, (t.lower n).numbers = t.numbers := fun t n => by
    unfold lower
    split <;> rfl
  unfold step
  split
  · unfold leave
    split
    · exact (lowered _ _).symm ▸ met
    · exact (lowered _ _).symm ▸ met
  · unfold follow
    split
    · exact Std.ExtTreeMap.mem_insert.mpr (.inr met)
    · split
      · exact (lowered _ _).symm ▸ met
      · exact met

theorem mem_numbers_run {u : Nat} (met : u ∈ s.numbers) : u ∈ (s.run g within).numbers := by
  fun_induction run g within s with
  | case1 => exact met
  | case2 s x outer _ ih => exact ih (mem_numbers_step met)

theorem mem_numbers_explore {u root : Nat} (met : u ∈ s.numbers ∨ u = root) :
    u ∈ (s.explore g within root).numbers := by
  unfold explore
  split
  next old =>
    rcases met with met | rfl
    · exact met
    · exact Std.ExtTreeMap.mem_iff_contains.mpr old
  · refine mem_numbers_run (Std.ExtTreeMap.mem_insert.mpr ?_)
    rcases met with met | rfl
    · exact .inr met
    · exact .inl (Std.LawfulEqOrd.compare_eq_iff_eq.mpr rfl)

theorem foldl_explore (sound : Sound g within (fun _ _ => False) s) (idle : s.visits = [])
    (roots : List Nat) (inside : ∀ v ∈ roots, v ∈ within) :
    let last := roots.foldl (explore g within) s
    Sound g within (fun _ _ => False) last ∧ last.visits = [] ∧
      ∀ v, v ∈ s.numbers ∨ v ∈ roots → v ∈ last.numbers := by
  induction roots generalizing s with
  | nil => exact ⟨sound, idle, fun v met => met.resolve_right List.not_mem_nil⟩
  | cons root rest ih =>
    obtain ⟨next, done⟩ := sound.explore idle (inside root List.mem_cons_self)
    obtain ⟨last, finished, all⟩ := ih next done fun v later => inside v (List.mem_cons_of_mem _ later)
    refine ⟨last, finished, fun v met => all v ?_⟩
    rcases met with met | listed
    · exact .inl (mem_numbers_explore (.inl met))
    · rcases List.mem_cons.mp listed with rfl | later
      · exact .inl (mem_numbers_explore (.inr rfl))
      · exact .inr later

end ClassSearch

/-- The components of a list of vertices are the classes of mutual reachability inside it. -/
theorem components_partition (g : Digraph) (vertices : List Nat) :
    Partition g (g.known vertices) (g.components vertices) := by
  obtain ⟨sound, idle, all⟩ := ClassSearch.foldl_explore
    (ClassSearch.sound_start g (g.known vertices)) rfl (g.known vertices) fun _ member => member
  refine ⟨sound.found.isClass, sound.found.ascending, sound.found.disjoint, fun v inside => ?_,
    sound.found.order⟩
  -- every vertex has been met, and none waits any longer
  have met := (sound.met v).mp (all v (.inr inside))
  rw [ClassSearch.stack_eq_nil sound idle] at met
  exact List.mem_flatten.mp (met.resolve_left List.not_mem_nil)

end Recalc.Digraph
