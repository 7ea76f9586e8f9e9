import Mathlib.Logic.Relation
import Recalc.Dependency.Digraph
import Recalc.Proofs.Components

/-!
# What a search finds

A search from some starts sees the vertices of the graph that a start leads to, and no others
(`mem_reachable`). `Search.Sound` is what following the edges of one vertex keeps (`Sound.follow`): what
has been seen was led to, and where edges lead from a vertex has been seen unless the vertex is still
queued. At the end nothing is queued, so the vertices seen are closed under edges.
-/
namespace Recalc.Digraph

/-- A path along edges. -/
def Leads (g : Digraph) : Nat → Nat → Prop :=
  Relation.ReflTransGen fun v w => w ∈ g.next v

namespace Search

variable {g : Digraph} {starts : List Nat} {s : Search} {u v : Nat}

def Seen (s : Search) (v : Nat) : Prop :=
  s.seen[v]? = some true

/-- A vertex of the graph that has not been seen. -/
def New (s : Search) (v : Nat) : Prop :=
  s.seen[v]? = some false

theorem seen_or_new (bounded : v < s.seen.length) : s.Seen v ∨ s.New v := by
  simp only [Seen, New, List.getElem?_eq_getElem bounded, Option.some_inj]
  exact (Bool.eq_false_or_eq_true s.seen[v]).imp id id

/-! ### Following edges -/

theorem seen_meet : (s.meet v).Seen u ↔ s.Seen u ∨ u = v ∧ s.New u := by
  unfold meet
  split
  next new =>
    have bounded := (List.getElem?_eq_some_iff.mp new).1
    by_cases here : u = v
    · subst here
      have seenNow : (s.seen.set u true)[u]? = some true := List.getElem?_set_self bounded
      exact ⟨fun _ => .inr ⟨rfl, new⟩, fun _ => seenNow⟩
    · simp [Seen, here, List.getElem?_set_ne (Ne.symm here)]
  next old =>
    refine ⟨.inl, Or.rec id fun ⟨here, new⟩ => absurd (here ▸ new) old⟩

theorem new_meet : (s.meet v).New u ↔ s.New u ∧ u ≠ v := by
  unfold meet
  split
  next new =>
    have bounded := (List.getElem?_eq_some_iff.mp new).1
    by_cases here : u = v
    · subst here
      simp [New, bounded]
    · simp [New, here, List.getElem?_set_ne (Ne.symm here)]
  next old =>
    refine ⟨fun new => ⟨new, fun here => old (here ▸ new)⟩, And.left⟩

theorem mem_queue_meet : u ∈ (s.meet v).queue ↔ u ∈ s.queue ∨ u = v ∧ s.New u := by
  unfold meet
  split
  next new =>
    simp only [List.mem_append, List.mem_singleton]
    exact or_congr_right ⟨fun here => ⟨here, here ▸ new⟩, And.left⟩
  next old =>
    refine ⟨.inl, Or.rec id fun ⟨here, new⟩ => absurd (here ▸ new) old⟩

theorem length_meet (s : Search) (v : Nat) : (s.meet v).seen.length = s.seen.length := by
  unfold meet
  split <;> simp

theorem length_foldl_meet (vertices : List Nat) (s : Search) :
    (vertices.foldl meet s).seen.length = s.seen.length := by
  induction vertices generalizing s with
  | nil => rfl
  | cons v rest ih => rw [List.foldl_cons, ih, length_meet]

/-- New vertices that edges lead to are seen. -/
theorem seen_foldl_meet (vertices : List Nat) (s : Search) :
    (vertices.foldl meet s).Seen u ↔ s.Seen u ∨ u ∈ vertices ∧ s.New u := by
  induction vertices generalizing s with
  | nil => simp
  | cons v rest ih =>
    rw [List.foldl_cons, ih, seen_meet, new_meet, List.mem_cons]
    tauto

/-- The vertices that are seen for the first time are queued. -/
theorem mem_queue_foldl_meet (vertices : List Nat) (s : Search) :
    u ∈ (vertices.foldl meet s).queue ↔ u ∈ s.queue ∨ u ∈ vertices ∧ s.New u := by
  induction vertices generalizing s with
  | nil => simp
  | cons v rest ih =>
    rw [List.foldl_cons, ih, mem_queue_meet, new_meet, List.mem_cons]
    tauto

/-! ### What every step keeps -/

/-- What holds throughout a search from some starts. -/
structure Sound (g : Digraph) (starts : List Nat) (s : Search) : Prop where
  length : s.seen.length = g.size
  started : ∀ v ∈ starts, v < g.size → s.Seen v
  led : ∀ v, s.Seen v ∨ v ∈ s.queue → ∃ start ∈ starts, g.Leads start v
  followed : ∀ v, s.Seen v → v ∈ s.queue ∨ ∀ w ∈ g.next v, w < g.size → s.Seen w

theorem seen_start {n : Nat} : (start n starts).Seen u ↔ u < n ∧ u ∈ starts := by
  simp only [Seen, start, List.getElem?_map, Option.map_eq_some_iff, List.getElem?_eq_some_iff,
    List.length_range, List.getElem_range, List.contains_iff_mem]
  constructor
  · rintro ⟨_, ⟨bounded, rfl⟩, started⟩
    exact ⟨bounded, started⟩
  · rintro ⟨bounded, started⟩
    exact ⟨u, ⟨bounded, rfl⟩, started⟩

theorem sound_start (g : Digraph) (starts : List Nat) : Sound g starts (start g.size starts) where
  length := by simp [start]
  started v member bounded := seen_start.mpr ⟨bounded, member⟩
  led v found := ⟨v, found.elim (fun seen => (seen_start.mp seen).2) id, .refl⟩
  followed v seen := .inl (seen_start.mp seen).2

/-- Following the edges of the next vertex in the queue. -/
theorem Sound.follow {rest : List Nat} (sound : Sound g starts s) (queued : s.queue = v :: rest) :
    Sound g starts ((g.next v).foldl meet ⟨s.seen, rest⟩) := by
  obtain ⟨start, begun, path⟩ := sound.led v (.inr (queued ▸ List.mem_cons_self))
  have grows : ∀ u, s.Seen u → ((g.next v).foldl meet ⟨s.seen, rest⟩).Seen u :=
    fun u seen => (seen_foldl_meet _ _).mpr (.inl seen)
  -- an edge of `v` ends at a vertex seen before or met now
  have all : ∀ w ∈ g.next v, w < g.size → ((g.next v).foldl meet ⟨s.seen, rest⟩).Seen w :=
    fun w edge bounded => (seen_foldl_meet _ _).mpr
      ((seen_or_new (sound.length ▸ bounded)).imp id fun new => ⟨edge, new⟩)
  refine {
    length := (length_foldl_meet _ _).trans sound.length
    started := fun u member bounded => grows u (sound.started u member bounded)
    led := ?led
    followed := ?followed }
  case led =>
    intro u found
    rw [seen_foldl_meet, mem_queue_foldl_meet, ← or_or_distrib_right] at found
    rcases found with old | ⟨edge, -⟩
    · exact sound.led u (old.imp id fun later => queued ▸ List.mem_cons_of_mem v later)
    · exact ⟨start, begun, path.tail edge⟩
  case followed =>
    intro u seen
    rw [mem_queue_foldl_meet]
    -- a vertex that has left the queue is `v` itself or was followed before
    rcases (seen_foldl_meet _ _).mp seen with old | met
    · rcases sound.followed u old with waiting | done
      · rw [queued, List.mem_cons] at waiting
        rcases waiting with rfl | later
        · exact .inr all
        · exact .inl (.inl later)
      · exact .inr fun w edge bounded => grows w (done w edge bounded)
    · exact .inl (.inr met)

theorem Sound.run (sound : Sound g starts s) :
    Sound g starts (s.run g.next) ∧ (s.run g.next).queue = [] := by
  fun_induction Search.run g.next s with
  | case1 s idle => exact ⟨sound, idle⟩
  | case2 s v rest queued ih => exact ih (sound.follow queued)

/-- When nothing is queued any more, what the starts lead to has been seen. -/
theorem Sound.seen_of_leads (sound : Sound g starts s) (idle : s.queue = []) (member : v ∈ starts)
    (path : g.Leads v u) (bounded : u < g.size) : s.Seen u := by
  induction path with
  | refl => exact sound.started v member bounded
  | @tail x w _ edge ih =>
    -- `x` is a vertex of the graph, for it has an edge
    have inside : x < g.size := by
      by_contra outside
      exact absurd (next_eq_nil (Nat.le_of_not_lt outside) ▸ edge) List.not_mem_nil
    rcases sound.followed x (ih inside) with waiting | done
    · exact absurd (idle ▸ waiting) List.not_mem_nil
    · exact done w edge bounded

end Search

/-- A start leads to the vertices that a search from it finds, and to no others of the graph. -/
theorem mem_reachable {g : Digraph} {starts : List Nat} {u : Nat} :
    u ∈ g.reachable starts ↔ u < g.size ∧ ∃ v ∈ starts, g.Leads v u := by
  obtain ⟨sound, idle⟩ := (Search.sound_start g starts).run
  have listed : u ∈ g.reachable starts ↔
      u < g.size ∧ ((Search.start g.size starts).run g.next).Seen u := by
    simp [reachable, Search.Seen]
  rw [listed]
  refine and_congr_right fun bounded => ⟨fun seen => sound.led u (.inl seen), ?_⟩
  rintro ⟨v, member, path⟩
  exact sound.seen_of_leads idle member path bounded

end Recalc.Digraph
