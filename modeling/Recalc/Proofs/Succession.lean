import Recalc.Proofs.Contents

/-!
# Earlier and later steps

No step reads what a later step computes (`Step.pairwise_leavesAlone`), the steps of cycles included.
So what a cell reads is after its step as it is at the end of the pass (`Engine.seenAfter_of_reads`).
The outcomes of the first steps grow step by step (`Engine.traceOf_succ`), and a pass delivers those
of the steps that it performs (`Engine.value?_runPass_iff`).
-/
namespace Recalc

namespace Step

/-- Whether a step reads nothing that another step computes. -/
def LeavesAlone (g : Digraph) (s t : Step) : Prop :=
  ∀ v ∈ s.vertices, ∀ w ∈ g.next v, w ∉ t.vertices

theorem mem_order_of_mem {config : Config} {l : Layer} {s : Step} (member : s ∈ ofLayer config l)
    {v : Nat} (inside : v ∈ s.vertices) : v ∈ l.order := by
  rw [← vertices_ofLayer config l]
  exact List.mem_flatMap.mpr ⟨s, member, inside⟩

private theorem mem_order_of_mem_flatMap {config : Config} {layers : List Layer} {s : Step}
    (member : s ∈ layers.flatMap (ofLayer config)) {v : Nat} (inside : v ∈ s.vertices) :
    v ∈ layers.flatMap Layer.order := by
  obtain ⟨l, listed, inLayer⟩ := List.mem_flatMap.mp member
  exact List.mem_flatMap.mpr ⟨l, listed, mem_order_of_mem inLayer inside⟩

/-- Inside a layer an edge runs along a cycle, which is one step. -/
private theorem pairwise_ofLayer {config : Config} {g : Digraph} {l : Layer}
    (nodup : l.order.Nodup)
    (cycles : ∀ v ∈ l.order, ∀ w ∈ l.order, w ∈ g.next v → ∃ c ∈ l.cycles, v ∈ c ∧ w ∈ c) :
    (ofLayer config l).Pairwise (LeavesAlone g) := by
  have disjoint : (ofLayer config l).Pairwise fun s t => s.vertices.Disjoint t.vertices := by
    rw [← vertices_ofLayer config l, List.nodup_flatMap] at nodup
    exact nodup.2
  refine disjoint.imp_of_mem fun {s t} first second apart v inFirst w edge inSecond => ?_
  obtain ⟨c, listed, source, target⟩ := cycles v (mem_order_of_mem first inFirst) w
    (mem_order_of_mem second inSecond) edge
  have step : cycle c ∈ ofLayer config l :=
    List.mem_append_right _ (List.mem_map.mpr ⟨c, listed, rfl⟩)
  -- the step of `v` is that of the cycle, so `w` belongs to it as well
  obtain rfl : s = cycle c := by
    have symm : Std.Symm fun s t : Step => s.vertices.Disjoint t.vertices :=
      ⟨fun _ _ => List.disjoint_symm⟩
    by_contra ne
    exact disjoint.forall first step ne inFirst source
  exact apart target inSecond

private theorem pairwise_of_layered {config : Config} {g : Digraph} {within done : List Nat}
    {layers : List Layer} (layered : g.Layered within done layers)
    (nodup : (done ++ layers.flatMap Layer.order).Nodup)
    (inside : ∀ v ∈ layers.flatMap Layer.order, v ∈ within) :
    (layers.flatMap (ofLayer config)).Pairwise (LeavesAlone g) := by
  induction layers generalizing done with
  | nil => exact .nil
  | cons l rest ih =>
    obtain ⟨here, later⟩ := layered
    rw [List.flatMap_cons] at nodup inside ⊢
    have known : ∀ v w, w ∈ l.order ++ rest.flatMap Layer.order → w ∈ g.next v →
        w ∈ g.nextWithin within v := fun v w member edge =>
      Digraph.mem_nextWithin.mpr ⟨edge, inside w member⟩
    have parts := nodup
    rw [← List.append_assoc] at parts
    refine List.pairwise_append.mpr ⟨?_, ih later parts fun v member =>
      inside v (List.mem_append_right _ member), fun s first t second v inFirst w edge inSecond => ?_⟩
    · refine pairwise_ofLayer nodup.of_append_right.of_append_left fun v source w target edge => ?_
      rcases here v source w (known v w (List.mem_append_left _ target) edge) with old | ⟨c, cycle⟩
      · exact absurd (List.mem_append_left _ target) (List.disjoint_of_nodup_append nodup old)
      · exact ⟨c, cycle⟩
    · have remaining := mem_order_of_mem_flatMap second inSecond
      rcases here v (mem_order_of_mem first inFirst) w
        (known v w (List.mem_append_right _ remaining) edge) with old | ⟨c, listed, -, target⟩
      · exact List.disjoint_of_nodup_append nodup old (List.mem_append_right _ remaining)
      · have now : w ∈ l.order := List.mem_append_right _ (List.mem_flatten.mpr ⟨c, listed, target⟩)
        exact List.disjoint_of_nodup_append nodup.of_append_right now remaining

/-- The steps of a schedule read nothing that a later step computes. -/
theorem pairwise_leavesAlone (config : Config) (g : Digraph) (vertices : List Nat) :
    (ofSchedule config (g.schedule vertices)).Pairwise (LeavesAlone g) :=
  pairwise_of_layered (g.schedule_layered vertices) (g.nodup_order vertices)
    fun _ member => Digraph.mem_order.mp member

end Step

namespace Engine

variable {e : Engine} {book : Workbook} {q : Request} {k n : Nat} {step : Step} {y : Vertex}
  {a : Address}

theorem steps_leaveAlone (e : Engine) (book : Workbook) (q : Request) :
    (e.steps book q).Pairwise (Step.LeavesAlone (e.plan book q).1.dependencies) := by
  obtain ⟨vertices, same⟩ := e.exists_schedule book q
  rw [steps, same]
  exact Step.pairwise_leavesAlone _ _ vertices

/-- No cell reads what is computed after its step. -/
theorem notMem_late_of_reads (found : (e.steps book q)[k]? = some step)
    (member : y ∈ (e.context book q).members step.vertices) (reads : y.reads a = true) :
    a ∉ (e.plan book q).1.addresses (e.late book q (k + 1)) := by
  intro later
  obtain ⟨v, inStep, source⟩ := PassContext.mem_members.mp member
  obtain ⟨w, listed, z, target, rfl⟩ := DependencyGraph.mem_addresses.mp later
  obtain ⟨t, remaining, inLater⟩ := List.mem_flatMap.mp listed
  have edge : w ∈ (e.plan book q).1.dependencies.next v :=
    DependencyGraph.mem_next.mpr ⟨y, z, source, target, reads⟩
  have apart := e.steps_leaveAlone book q
  obtain ⟨bound, rfl⟩ := List.getElem?_eq_some_iff.mp found
  rw [← List.take_append_drop k (e.steps book q), List.drop_eq_getElem_cons bound] at apart
  have next := (List.pairwise_cons.mp (List.pairwise_append.mp apart).2.1).1
  exact next t remaining v inStep w edge inLater

/-- Steps leave what they do not compute as it was. -/
theorem seenAfter_of_notMem (ordered : k ≤ n)
    (absent : a ∉ (e.plan book q).1.addresses (e.late book q k)) :
    e.seenAfter book q n a = e.seenAfter book q k a := by
  have split : (e.steps book q).take n =
      (e.steps book q).take k ++ ((e.steps book q).drop k).take (n - k) := by
    rw [← List.take_add, Nat.add_sub_cancel' ordered]
  have kept : a ∉ ((e.context book q).trace
      (PassContext.record ∅ ((e.context book q).trace ∅ ((e.steps book q).take k)))
      (((e.steps book q).drop k).take (n - k))).map Prod.fst := by
    rw [PassContext.addresses_trace]
    intro computed
    obtain ⟨v, listed, z, source, same⟩ := DependencyGraph.mem_addresses.mp computed
    obtain ⟨t, taken, inStep⟩ := List.mem_flatMap.mp listed
    exact absent (DependencyGraph.mem_addresses.mpr
      ⟨v, List.mem_flatMap.mpr ⟨t, List.mem_of_mem_take taken, inStep⟩, z, source, same⟩)
  rw [seenAfter, seenAfter, (e.carries_take book q n).overlay, (e.carries_take book q k).overlay,
    split, PassContext.trace_append, PassContext.record_append]
  simp only [PassContext.value, PassContext.record_of_notMem kept]

/-- What a cell reads is after its step as it is later on. -/
theorem seenAfter_of_reads (found : (e.steps book q)[k]? = some step)
    (member : y ∈ (e.context book q).members step.vertices) (reads : y.reads a = true)
    (later : k < n) : e.seenAfter book q n a = e.seenAfter book q (k + 1) a :=
  seenAfter_of_notMem later (notMem_late_of_reads found member reads)

/-! ### The first steps -/

/-- The members of a step have not been computed before it. -/
theorem notMem_early_of_step (found : (e.steps book q)[k]? = some step)
    (member : a ∈ (e.plan book q).1.addresses step.vertices) :
    a ∉ (e.plan book q).1.addresses (e.early book q k) := by
  intro computed
  obtain ⟨v, inStep, y, source, rfl⟩ := DependencyGraph.mem_addresses.mp member
  obtain ⟨w, before, z, target, same⟩ := DependencyGraph.mem_addresses.mp computed
  obtain rfl : w = v := DependencyGraph.vertex_unique target source same
  have nodup := e.order_nodup book q
  obtain ⟨bound, rfl⟩ := List.getElem?_eq_some_iff.mp found
  rw [← early_append_late e book q k, late, List.drop_eq_getElem_cons bound, List.flatMap_cons]
    at nodup
  exact List.disjoint_of_nodup_append nodup before (List.mem_append_left _ inStep)

/-- The values that the first steps of a pass have computed. -/
def overlay (e : Engine) (book : Workbook) (q : Request) (k : Nat) : SortedMap Address Value :=
  ((e.context book q).performAll ((e.steps book q).take k)).overlay

/-- The outcomes of the first steps of a pass. -/
def traceOf (e : Engine) (book : Workbook) (q : Request) (k : Nat) :
    List (Address × Except Fault Value) :=
  (e.context book q).trace ∅ ((e.steps book q).take k)

theorem addresses_traceOf (e : Engine) (book : Workbook) (q : Request) (k : Nat) :
    (e.traceOf book q k).map Prod.fst = (e.plan book q).1.addresses (e.early book q k) :=
  PassContext.addresses_trace _ _

theorem exists_mem_traceOf (computed : a ∈ (e.plan book q).1.addresses (e.early book q k)) :
    ∃ x, (a, x) ∈ e.traceOf book q k := by
  rw [← addresses_traceOf] at computed
  obtain ⟨⟨_, x⟩, member, rfl⟩ := List.mem_map.mp computed
  exact ⟨x, member⟩

theorem overlay_eq (e : Engine) (book : Workbook) (q : Request) (k : Nat) :
    e.overlay book q k = PassContext.record ∅ (e.traceOf book q k) :=
  (e.carries_take book q k).overlay

theorem traceOf_succ (found : (e.steps book q)[k]? = some step) :
    e.traceOf book q (k + 1) =
      e.traceOf book q k ++ (e.context book q).outcomes (e.overlay book q k) step := by
  rw [overlay_eq, traceOf, List.take_add_one, found, PassContext.trace_append]
  simp [PassContext.trace, traceOf]

theorem traceOf_of_end (found : (e.steps book q)[k]? = none) :
    e.traceOf book q (k + 1) = e.traceOf book q k := by
  rw [traceOf, traceOf, List.take_add_one, found, Option.toList_none, List.append_nil]

theorem traceOf_extends (ordered : k ≤ n) : e.traceOf book q k <+: e.traceOf book q n := by
  have taken : (e.steps book q).take k = ((e.steps book q).take n).take k := by
    rw [List.take_take, Nat.min_eq_left ordered]
  rw [traceOf, traceOf, taken]
  exact PassContext.trace_prefix ∅ _ k

theorem overlay_succ (found : (e.steps book q)[k]? = some step) :
    e.overlay book q (k + 1) = PassContext.record (e.overlay book q k)
      ((e.context book q).outcomes (e.overlay book q k) step) := by
  rw [overlay_eq, traceOf_succ found, PassContext.record_append, ← overlay_eq]

/-- What has been computed for a member of a step is what the step has made of it. -/
theorem mem_outcomes_of_traceOf (found : (e.steps book q)[k]? = some step)
    (member : a ∈ (e.plan book q).1.addresses step.vertices) {x : Except Fault Value}
    (computed : (a, x) ∈ e.traceOf book q n) :
    k < n ∧ (a, x) ∈ (e.context book q).outcomes (e.overlay book q k) step := by
  have later : k < n := by
    by_contra early
    have listed := List.mem_map_of_mem (f := Prod.fst)
      ((traceOf_extends (Nat.not_lt.mp early)).mem computed)
    rw [addresses_traceOf] at listed
    exact notMem_early_of_step found member listed
  have outcome : a ∈ ((e.context book q).outcomes (e.overlay book q k) step).map Prod.fst := by
    rw [PassContext.addresses_outcomes]
    exact member
  obtain ⟨⟨_, x'⟩, made, rfl⟩ := List.mem_map.mp outcome
  have also : (_, x') ∈ e.traceOf book q n := (traceOf_extends later).mem (by
    rw [traceOf_succ found]
    exact List.mem_append_right _ made)
  rw [PassContext.outcome_unique (e.nodup_trace_take book q n) computed also]
  exact ⟨later, made⟩

/-- What readers see of an outcome of the first steps. -/
theorem value_overlay {x : Except Fault Value} (computed : (a, x) ∈ e.traceOf book q k) :
    (e.context book q).value (e.overlay book q k) a = PassContext.shown x := by
  have nodup : ((e.traceOf book q k).map Prod.fst).Nodup := e.nodup_trace_take book q k
  have agree : ∀ y ∈ e.traceOf book q k, y.2 = Assignment.after book (e.traceOf book q k) y.1 :=
    fun y member => (Assignment.after_of_mem nodup member).symm
  rw [overlay_eq, PassContext.value,
    PassContext.record_of_agree agree (List.mem_map_of_mem (f := Prod.fst) computed),
    Option.getD_some]
  exact congrArg PassContext.shown (Assignment.after_of_mem nodup computed)

theorem value_overlay_of_notMem (absent : a ∉ (e.plan book q).1.addresses (e.early book q k)) :
    (e.context book q).value (e.overlay book q k) a = book.value a := by
  have listed : a ∉ (e.traceOf book q k).map Prod.fst := by
    rwa [addresses_traceOf]
  rw [overlay_eq, PassContext.value, PassContext.record_of_notMem listed]
  simp [context]

/-! ### What is delivered -/

variable {answers : List Checkpoint}

/-- The number of steps that a pass performs before it is interrupted. -/
def performed (e : Engine) (book : Workbook) (q : Request) (answers : List Checkpoint) : Nat :=
  ((interruption? answers (e.steps book q).length).map Prod.fst).getD (e.steps book q).length

theorem results_runPass (e : Engine) (book : Workbook) (q : Request) (answers : List Checkpoint) :
    (e.runPass book q answers).results = ((e.context book q).performAll
      ((e.steps book q).take (e.performed book q answers))).results := by
  cases found : interruption? answers (e.steps book q).length with
  | none =>
    rw [runPass_of_calm found, performed, found, Option.map_none, Option.getD_none, List.take_length]
  | some stop =>
    obtain ⟨k, finish⟩ := stop
    rw [runPass_of_interruption found, performed, found, Option.map_some, Option.getD_some]

theorem value?_runPass_iff {v : Value} : (e.runPass book q answers).results.value? a = some v ↔
    (a, .ok v) ∈ e.traceOf book q (e.performed book q answers) := by
  rw [Results.value?_eq_some_iff (e.nodup_cells_runPass book q answers), results_runPass]
  exact (e.carries_take book q _).mem_cells

theorem mem_faults_runPass_iff {m : String} : ⟨a, m⟩ ∈ (e.runPass book q answers).results.faults ↔
    ∃ fault, (a, .error fault) ∈ e.traceOf book q (e.performed book q answers) ∧
      m = fault.message := by
  rw [results_runPass, (e.carries_take book q _).faults]
  exact PassContext.mem_filterMap_fault?

end Engine

end Recalc
