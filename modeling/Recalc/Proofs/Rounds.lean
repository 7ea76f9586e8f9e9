import Mathlib.Data.List.Chain
import Mathlib.Data.List.Nodup
import Mathlib.Data.List.Perm.Basic
import Mathlib.Algebra.BigOperators.Group.List.Basic
import Recalc.Dependency.Schedule
import Recalc.Proofs.Reversal

/-!
# Rounds

Counting down what each vertex waits for lists the vertices of a graph without cycles by rounds. What
a vertex reads has come in an earlier round (`inOrder_rounds`), some of it in the round just before
(`chained_rounds`), and every vertex comes exactly once (`rounds_perm`). The count of a vertex is at
any time the number of those that it reads and that have not come (`Waits`).
-/
namespace Recalc.Digraph

/-- A graph in which every vertex reads smaller ones, each once. -/
structure Descending (d : Digraph) : Prop where
  lt : ∀ v, ∀ w ∈ d.next v, w < v
  nodup : ∀ v, (d.next v).Nodup

/-- Every round reads only what has come before it. -/
def InOrder (d : Digraph) : List Nat → List (List Nat) → Prop
  | _, [] => True
  | done, round :: rest =>
    (∀ v ∈ round, ∀ w ∈ d.next v, w ∈ done) ∧ InOrder d (done ++ round) rest

/-- What a vertex of the round `k` reads has come before or comes in a round before `k`. -/
theorem InOrder.earlier {d : Digraph} {done : List Nat} {rounds : List (List Nat)}
    (inOrder : InOrder d done rounds) {k : Nat} {round : List Nat} (found : rounds[k]? = some round)
    {v w : Nat} (member : v ∈ round) (edge : w ∈ d.next v) :
    w ∈ done ∨ ∃ j < k, ∃ before, rounds[j]? = some before ∧ w ∈ before := by
  induction rounds generalizing done k with
  | nil => cases found
  | cons first rest ih =>
    obtain ⟨here, later⟩ := inOrder
    cases k with
    | zero =>
      obtain rfl : first = round := by simpa using found
      exact .inl (here v member w edge)
    | succ k =>
      rcases ih later (by simpa using found) with come | ⟨j, less, before, there, listed⟩
      · rcases List.mem_append.mp come with old | now
        · exact .inl old
        · exact .inr ⟨0, Nat.succ_pos k, first, rfl, now⟩
      · exact .inr ⟨j + 1, Nat.succ_lt_succ less, before, by simpa using there, listed⟩

namespace Countdown

variable {d : Digraph} {s : Countdown} {done : List Nat}

/-- What a vertex still waits for. -/
def count (s : Countdown) (v : Nat) : Nat :=
  (s.counts[v]?).getD 0

theorem count_release (s : Countdown) (v u : Nat) :
    (s.release v).count u = s.count u - if v = u then 1 else 0 := by
  unfold release
  split
  next n found =>
    have bounded := (List.getElem?_eq_some_iff.mp found).1
    simp only [count, List.getElem?_set]
    split
    next same =>
      subst same
      simp only [found, Option.getD_some]
      omega
    · rfl
  next none =>
    split
    next same =>
      subst same
      cases found : s.counts[v]? with
      | none => simp [count, found]
      | some n =>
        cases n with
        | zero => simp [count, found]
        | succ n => exact absurd found (none n)
    · rfl

theorem ready_release (s : Countdown) (v : Nat) :
    (s.release v).ready = if s.count v = 1 then s.ready ++ [v] else s.ready := by
  unfold release
  split
  next n found => simp [count, found]
  next none =>
    have ne : s.count v ≠ 1 := fun one => by
      cases found : s.counts[v]? with
      | none => simp [count, found] at one
      | some n =>
        cases n with
        | zero => simp [count, found] at one
        | succ n => exact none n found
    rw [if_neg ne]

theorem count_foldl_release (vertices : List Nat) (s : Countdown) (u : Nat) :
    (vertices.foldl release s).count u = s.count u - vertices.count u := by
  induction vertices generalizing s with
  | nil => rfl
  | cons v rest ih =>
    rw [List.foldl_cons, ih, count_release, List.count_cons, Nat.sub_sub]
    simp only [beq_iff_eq, Nat.add_comm]

theorem mem_ready_foldl_release (vertices : List Nat) (s : Countdown) (u : Nat) :
    u ∈ (vertices.foldl release s).ready ↔
      u ∈ s.ready ∨ 0 < s.count u ∧ s.count u ≤ vertices.count u := by
  induction vertices generalizing s with
  | nil =>
    have never : ¬(0 < s.count u ∧ s.count u ≤ 0) := by omega
    simp only [List.foldl_nil, List.count_nil, never, or_false]
  | cons v rest ih =>
    rw [List.foldl_cons, ih, count_release, ready_release, List.count_cons]
    by_cases same : v = u
    · subst same
      simp only [if_true, beq_self_eq_true]
      split
      next one => simp [one]
      next more =>
        have bound : (0 < s.count v - 1 ∧ s.count v - 1 ≤ rest.count v) ↔
            (0 < s.count v ∧ s.count v ≤ rest.count v + 1) := by omega
        rw [bound]
    · have kept : (u ∈ if s.count v = 1 then s.ready ++ [v] else s.ready) ↔ u ∈ s.ready := by
        split
        · simp [Ne.symm same]
        · rfl
      rw [kept]
      simp [same]

/-- No vertex becomes ready twice. -/
theorem nodup_foldl_release (vertices : List Nat) {s : Countdown} (nodup : s.ready.Nodup)
    (zero : ∀ u ∈ s.ready, s.count u = 0) : (vertices.foldl release s).ready.Nodup := by
  induction vertices generalizing s with
  | nil => exact nodup
  | cons v rest ih =>
    refine ih ?_ fun u member => ?_
    · rw [ready_release]
      split
      next one =>
        have new : v ∉ s.ready := fun old => by
          rw [zero v old] at one
          cases one
        exact List.nodup_append.mpr
          ⟨nodup, List.nodup_singleton v, fun a old b last same => new (by simp_all)⟩
      · exact nodup
    · rw [count_release]
      rw [ready_release] at member
      split at member
      next one =>
        rcases List.mem_append.mp member with old | last
        · rw [zero u old, Nat.zero_sub]
        · rw [List.mem_singleton.mp last, one, if_pos rfl]
      · rw [zero u member, Nat.zero_sub]

/-! ### What the counts say -/

/-- Counts are the numbers of inputs that have not come, and ready is what has none of these left. -/
structure Waits (d : Digraph) (done : List Nat) (s : Countdown) : Prop where
  count : ∀ v, s.count v = ((d.next v).filter fun w => w ∉ done).length
  ready : ∀ v, v ∈ s.ready ↔ v < d.size ∧ v ∉ done ∧ ∀ w ∈ d.next v, w ∈ done
  nodup : s.ready.Nodup
  closed : ∀ v ∈ done, ∀ w ∈ d.next v, w ∈ done

theorem count_start (d : Digraph) (v : Nat) : (start d).count v = (d.next v).length := by
  simp only [count, start, Digraph.next, List.getElem?_map, Array.getElem?_toList]
  cases d.targets[v]? <;> rfl

theorem waits_start (d : Digraph) : Waits d [] (start d) where
  count v := by
    rw [count_start]
    simp
  ready v := by
    simp only [start, List.mem_filter, List.mem_range, List.isEmpty_iff, List.not_mem_nil,
      not_false_eq_true, true_and, imp_false]
    rw [List.eq_nil_iff_forall_not_mem]
  nodup := List.nodup_range.filter _
  closed v member := absurd member List.not_mem_nil

/-- A vertex is released once for every input that comes. -/
theorem count_released (descending : d.Descending) {round : List Nat} (nodup : round.Nodup)
    (known : ∀ r ∈ round, r < d.size) (v : Nat) :
    (round.flatMap d.reverse.next).count v = ((d.next v).filter fun w => w ∈ round).length := by
  have once : ∀ r ∈ round, (d.reverse.next r).count v = if r ∈ d.next v then 1 else 0 := by
    intro r member
    have edge : v ∈ d.reverse.next r ↔ r ∈ d.next v := mem_next_reverse.trans
      ⟨fun all => all.2.2, fun edge => ⟨known r member, lt_size_of_mem_next edge, edge⟩⟩
    rw [(nodup_next_reverse descending.nodup).count]
    simp only [edge]
  have sum : ∀ l : List Nat, (∀ r ∈ l, (d.reverse.next r).count v = if r ∈ d.next v then 1 else 0) →
      (l.flatMap d.reverse.next).count v = (l.filter fun r => r ∈ d.next v).length := by
    intro l each
    induction l with
    | nil => rfl
    | cons r rest ih =>
      rw [List.flatMap_cons, List.count_append, each r List.mem_cons_self,
        ih fun x member => each x (List.mem_cons_of_mem _ member), List.filter_cons]
      split
      next edge => simp [edge, Nat.add_comm]
      next free => simp [free]
  rw [sum round once]
  -- both sides list the inputs of `v` that belong to the round
  refine List.Perm.length_eq ((List.perm_ext_iff_of_nodup (nodup.filter _)
    ((descending.nodup v).filter _)).mpr fun r => ?_)
  simp only [List.mem_filter, decide_eq_true_eq]
  exact and_comm

/-- What `v` waits for is what comes now and what comes later. -/
theorem Waits.count_eq_add (waits : Waits d done s) (v : Nat) :
    s.count v = ((d.next v).filter fun w => w ∈ s.ready).length +
      ((d.next v).filter fun w => w ∉ done ++ s.ready).length := by
  have fresh : ∀ r ∈ s.ready, r ∉ done := fun r member => ((waits.ready r).mp member).2.1
  rw [waits.count, List.length_eq_length_filter_add (fun w => decide (w ∈ s.ready)),
    List.filter_filter, List.filter_filter]
  congr 2
  · refine List.filter_congr fun w _ => ?_
    by_cases now : w ∈ s.ready
    · simp [now, fresh w now]
    · simp [now]
  · refine List.filter_congr fun w _ => ?_
    by_cases now : w ∈ s.ready <;> simp [now]

theorem Waits.closed_next (waits : Waits d done s) : ∀ v ∈ done ++ s.ready, ∀ w ∈ d.next v, w ∈ done := by
  intro v member w edge
  rcases List.mem_append.mp member with before | now
  · exact waits.closed v before w edge
  · exact ((waits.ready v).mp now).2.2 w edge

section Next

variable (waits : Waits d done s) (descending : d.Descending)
include waits descending

theorem Waits.count_released (v : Nat) : (s.ready.flatMap d.reverse.next).count v =
    ((d.next v).filter fun w => w ∈ s.ready).length :=
  Countdown.count_released descending waits.nodup (fun r member => ((waits.ready r).mp member).1) v

theorem Waits.count_next (v : Nat) :
    (s.next d.reverse).count v = ((d.next v).filter fun w => w ∉ done ++ s.ready).length := by
  have total := waits.count_eq_add v
  have same : (⟨s.counts, []⟩ : Countdown).count v = s.count v := rfl
  rw [Countdown.next, count_foldl_release, waits.count_released descending]
  omega

/-- A vertex becomes ready when the last of its inputs comes, if some of them has not come before. -/
theorem Waits.ready_next (v : Nat) : v ∈ (s.next d.reverse).ready ↔
    v < d.size ∧ v ∉ done ++ s.ready ∧ ∀ w ∈ d.next v, w ∈ done ++ s.ready := by
  have total := waits.count_eq_add v
  have same : (⟨s.counts, []⟩ : Countdown).count v = s.count v := rfl
  have none : ((d.next v).filter fun w => w ∉ done ++ s.ready).length = 0 ↔
      ∀ w ∈ d.next v, w ∈ done ++ s.ready := by
    rw [List.length_eq_zero_iff, List.filter_eq_nil_iff]
    simp only [decide_eq_true_eq, not_not]
  have all : s.count v ≤ ((d.next v).filter fun w => w ∈ s.ready).length ↔
      ∀ w ∈ d.next v, w ∈ done ++ s.ready := by
    rw [← none]
    omega
  have waiting : 0 < s.count v ↔ ∃ w ∈ d.next v, w ∉ done := by
    rw [waits.count, List.length_pos_iff_exists_mem]
    simp
  rw [Countdown.next, mem_ready_foldl_release, waits.count_released descending, same, all, waiting]
  constructor
  · rintro (impossible | ⟨⟨w, edge, missing⟩, inputs⟩)
    · cases impossible
    · exact ⟨lt_size_of_mem_next edge, fun old => missing (waits.closed_next v old w edge), inputs⟩
  · rintro ⟨bounded, new, inputs⟩
    refine .inr ⟨?_, inputs⟩
    -- with all inputs there before, `v` would have been ready
    by_contra finished
    push Not at finished
    exact new (List.mem_append_right _ ((waits.ready v).mpr
      ⟨bounded, fun old => new (List.mem_append_left _ old), finished⟩))

theorem Waits.next : Waits d (done ++ s.ready) (s.next d.reverse) where
  count := waits.count_next descending
  ready := waits.ready_next descending
  nodup := nodup_foldl_release _ List.nodup_nil fun _ member => absurd member List.not_mem_nil
  closed v member w edge := List.mem_append_left _ (waits.closed_next v member w edge)

end Next

/-! ### All rounds -/

/-- Once nothing is ready, everything has come: a least vertex that has not would be ready. -/
theorem Waits.complete (waits : Waits d done s) (descending : d.Descending) (idle : s.ready = []) {v : Nat}
    (bounded : v < d.size) : v ∈ done := by
  induction v using Nat.strongRecOn with
  | ind v ih =>
    by_contra missing
    have inputs : ∀ w ∈ d.next v, w ∈ done := fun w edge =>
      have less := descending.lt v w edge
      ih w less (Nat.lt_trans less bounded)
    have ready := (waits.ready v).mpr ⟨bounded, missing, inputs⟩
    rw [idle] at ready
    cases ready

theorem Waits.inOrder (waits : Waits d done s) (descending : d.Descending) :
    InOrder d done (s.rounds d.reverse) := by
  fun_induction rounds d.reverse s generalizing done with
  | case1 => exact trivial
  | case2 s busy ih =>
    exact ⟨fun v member => ((waits.ready v).mp member).2.2, ih (waits.next descending)⟩

theorem Waits.nodup_rounds (waits : Waits d done s) (descending : d.Descending) (distinct : done.Nodup) :
    (done ++ (s.rounds d.reverse).flatten).Nodup := by
  fun_induction rounds d.reverse s generalizing done with
  | case1 => simpa using distinct
  | case2 s busy ih =>
    have both : (done ++ s.ready).Nodup := List.nodup_append'.mpr
      ⟨distinct, waits.nodup, fun v old now => ((waits.ready v).mp now).2.1 old⟩
    have later := ih (waits.next descending) both
    rwa [List.flatten_cons, ← List.append_assoc]

theorem Waits.mem_rounds (waits : Waits d done s) (descending : d.Descending)
    (known : ∀ v ∈ done, v < d.size) (v : Nat) :
    v ∈ done ++ (s.rounds d.reverse).flatten ↔ v < d.size := by
  fun_induction rounds d.reverse s generalizing done with
  | case1 s idle =>
    have none : s.ready = [] := by simpa using idle
    rw [List.flatten_nil, List.append_nil]
    exact ⟨known v, waits.complete descending none⟩
  | case2 s busy ih =>
    rw [List.flatten_cons, ← List.append_assoc]
    refine ih (waits.next descending) fun u member => ?_
    rcases List.mem_append.mp member with before | now
    · exact known u before
    · exact ((waits.ready u).mp now).1

theorem inOrder_rounds (descending : d.Descending) : InOrder d [] ((start d).rounds d.reverse) :=
  (waits_start d).inOrder descending

/-- What becomes ready waited for something that has come just before. -/
theorem Waits.exists_ready (waits : Waits d done s) (descending : d.Descending) {v : Nat}
    (ready : v ∈ (s.next d.reverse).ready) : ∃ w ∈ d.next v, w ∈ s.ready := by
  obtain ⟨bounded, new, inputs⟩ := (waits.ready_next descending v).mp ready
  by_contra none
  -- otherwise all inputs were there before, and `v` would have been ready then
  have early : ∀ w ∈ d.next v, w ∈ done := fun w edge =>
    (List.mem_append.mp (inputs w edge)).resolve_right fun now => none ⟨w, edge, now⟩
  exact new (List.mem_append_right _ ((waits.ready v).mpr
    ⟨bounded, fun old => new (List.mem_append_left _ old), early⟩))

theorem Waits.chained (waits : Waits d done s) (descending : d.Descending) :
    (s.rounds d.reverse).IsChain fun round later => ∀ v ∈ later, ∃ w ∈ d.next v, w ∈ round := by
  fun_induction rounds d.reverse s generalizing done with
  | case1 => exact .nil
  | case2 s busy ih =>
    refine List.isChain_cons.mpr ⟨fun later first v member => ?_, ih (waits.next descending)⟩
    unfold rounds at first
    split at first
    · cases first
    · cases first
      exact waits.exists_ready descending member

/-- Every vertex of a round but the first reads a vertex of the round before. -/
theorem chained_rounds (descending : d.Descending) : ((start d).rounds d.reverse).IsChain
    fun round later => ∀ v ∈ later, ∃ w ∈ d.next v, w ∈ round :=
  (waits_start d).chained descending

theorem ne_nil_of_mem_rounds {readers : Digraph} {round : List Nat}
    (member : round ∈ s.rounds readers) : round ≠ [] := by
  fun_induction rounds readers s with
  | case1 => cases member
  | case2 s busy ih =>
    rcases List.mem_cons.mp member with rfl | later
    · exact fun none => busy (by rw [none]; rfl)
    · exact ih later

/-- Every vertex comes in exactly one round. -/
theorem rounds_perm (descending : d.Descending) :
    ((start d).rounds d.reverse).flatten.Perm (List.range d.size) := by
  have nodup := (waits_start d).nodup_rounds descending List.nodup_nil
  have member := (waits_start d).mem_rounds descending (by simp)
  rw [List.nil_append] at nodup
  refine (List.perm_ext_iff_of_nodup nodup List.nodup_range).mpr fun v => ?_
  rw [List.mem_range, ← member, List.nil_append]

end Countdown

end Recalc.Digraph
