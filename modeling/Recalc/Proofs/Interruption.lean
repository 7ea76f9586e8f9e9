import Recalc.Proofs.Layers
import Recalc.Proofs.Trace

/-!
# Interrupted passes

A pass that is interrupted has performed a leading part of its steps (`runPass_of_interruption`), so
its results are those of the complete pass at the first cells of the order of the schedule
(`runPass_excerpt`).
-/
namespace Recalc

namespace Step

theorem ne_nil_of_mem_pieces {size : Nat} {vs piece : List Nat} (listed : piece ∈ pieces size vs) :
    piece ≠ [] := by
  fun_induction pieces size vs with
  | case1 => cases listed
  | case2 v rest ih =>
    rcases List.mem_cons.mp listed with rfl | later
    · exact List.cons_ne_nil _ _
    · exact ih later

theorem ne_nil_of_mem_ofVertices {config : Config} {vs : List Nat} {step : Step}
    (member : step ∈ ofVertices config vs) : step.vertices ≠ [] := by
  unfold ofVertices at member
  split at member
  · obtain ⟨piece, listed, rfl⟩ := List.mem_map.mp member
    exact ne_nil_of_mem_pieces listed
  · obtain ⟨v, _, rfl⟩ := List.mem_map.mp member
    exact List.cons_ne_nil _ _

theorem ne_nil_of_mem_ofSchedule {config : Config} {g : Digraph} {vertices : List Nat} {step : Step}
    (member : step ∈ ofSchedule config (g.schedule vertices)) : step.vertices ≠ [] := by
  obtain ⟨l, layer, inLayer⟩ := List.mem_flatMap.mp member
  rcases List.mem_append.mp inLayer with plain | cyclic
  · exact ne_nil_of_mem_ofVertices plain
  · obtain ⟨c, listed, rfl⟩ := List.mem_map.mp cyclic
    exact Digraph.ne_nil_of_mem_components (Digraph.mem_components_of_mem_cycles layer listed).1

theorem cycle_mem_ofSchedule {config : Config} {s : Schedule} {c : List Nat} (listed : c ∈ s.cycles) :
    cycle c ∈ ofSchedule config s := by
  obtain ⟨l, layer, inLayer⟩ := List.mem_flatMap.mp listed
  exact List.mem_flatMap.mpr ⟨l, layer, List.mem_append_right _ (List.mem_map_of_mem inLayer)⟩

end Step

/-! ### Interruptions -/

/-- How a pass ends at an answer. -/
def Checkpoint.finish? : Checkpoint → Option PassEnd
  | .go => none
  | .stop => some .stopped
  | .restart q => some (.superseded q)

section Answers

variable {answers : List Checkpoint} {polls k : Nat} {finish : PassEnd}

/-- An interruption is the first answer that is not to go on. -/
theorem interruption?_some (found : interruption? answers polls = some (k, finish)) :
    k < polls ∧ ∃ x, answers.take (k + 1) = List.replicate k .go ++ [x] ∧ x.finish? = some finish := by
  fun_induction interruption? answers polls generalizing k finish with
  | case1 => cases found
  | case2 => cases found
  | case3 polls rest ih =>
    obtain ⟨⟨before, e⟩, earlier, same⟩ := Option.map_eq_some_iff.mp found
    cases same
    obtain ⟨bounded, x, split, ends⟩ := ih earlier
    exact ⟨Nat.succ_lt_succ bounded, x, congrArg (Checkpoint.go :: ·) split, ends⟩
  | case4 =>
    cases found
    exact ⟨Nat.succ_pos _, .stop, rfl, rfl⟩
  | case5 polls q rest =>
    cases found
    exact ⟨Nat.succ_pos _, .restart q, rfl, rfl⟩

theorem interruption?_none (calm : interruption? answers polls = none) :
    ∀ x ∈ answers.take polls, x = .go := by
  fun_induction interruption? answers polls with
  | case1 => simp
  | case2 => simp
  | case3 polls rest ih =>
    intro x asked
    rcases List.mem_cons.mp asked with rfl | later
    · rfl
    · exact ih (Option.map_eq_none_iff.mp calm) x later
  | case4 => cases calm
  | case5 => cases calm

theorem finish_ne_completed (found : interruption? answers polls = some (k, finish)) :
    finish ≠ .completed := by
  obtain ⟨-, x, -, ends⟩ := interruption?_some found
  rintro rfl
  cases x <;> cases ends

end Answers

/-! ### Excerpts -/

/-- Some results have the entries of others for certain cells and no other entries; the cells are
listed once each. -/
structure Results.Excerpt (part whole : Results) (cells : List Address) : Prop where
  carried : part.carried.Perm cells
  nodup : cells.Nodup
  home : ∀ a v, part.home.get? a = some v ↔ a ∈ cells ∧ whole.home.get? a = some v
  other : ∀ a v, part.other.get? a = some v ↔ a ∈ cells ∧ whole.other.get? a = some v
  faults : part.faults = whole.faults.filter fun f => f.address ∈ cells

namespace PassContext

variable {c : PassContext} {part whole : PassState} {early late : List (Address × Except Fault Value)}

private theorem mem_early (nodup : ((early ++ late).map Prod.fst).Nodup) {a : Address}
    {x : Except Fault Value} :
    (a, x) ∈ early ↔ a ∈ early.map Prod.fst ∧ (a, x) ∈ early ++ late := by
  constructor
  · exact fun member => ⟨List.mem_map_of_mem member, List.mem_append_left _ member⟩
  · rintro ⟨listed, member⟩
    obtain ⟨⟨_, y⟩, first, rfl⟩ := List.mem_map.mp listed
    rwa [outcome_unique nodup member (List.mem_append_left _ first)]

private theorem filter_faults (nodup : ((early ++ late).map Prod.fst).Nodup) :
    ((early ++ late).filterMap fault?).filter (fun f => f.address ∈ early.map Prod.fst) =
      early.filterMap fault? := by
  have inside : ∀ {f : CellFault} {l : List (Address × Except Fault Value)},
      f ∈ l.filterMap fault? → f.address ∈ l.map Prod.fst := fun {f l} member =>
    (sublist_faults l).mem (List.mem_map_of_mem member)
  rw [List.filterMap_append, List.filter_append, List.filter_eq_self.mpr, List.filter_eq_nil_iff.mpr,
    List.append_nil]
  · intro f member listed
    rw [List.map_append] at nodup
    exact List.disjoint_of_nodup_append nodup (of_decide_eq_true listed) (inside member)
  · exact fun f member => decide_eq_true (inside member)

/-- The state after a leading part of a trace has an excerpt of the results after all of it. -/
theorem Carries.excerpt (before : c.Carries part early) (after : c.Carries whole (early ++ late))
    (nodup : ((early ++ late).map Prod.fst).Nodup) :
    part.results.Excerpt whole.results (early.map Prod.fst) := by
  have distinct : (early.map Prod.fst).Nodup := by
    rw [List.map_append] at nodup
    exact nodup.of_append_left
  refine ⟨before.carried_perm distinct, distinct, fun a v => ?_, fun a v => ?_, ?_⟩
  · rw [before.home, after.home, mem_early nodup]
    exact and_left_comm
  · rw [before.other, after.other, mem_early nodup]
    exact and_left_comm
  · rw [before.faults, after.faults]
    exact (filter_faults nodup).symm

end PassContext

namespace Engine

variable {e : Engine} {book : Workbook} {q : Request} {answers : List Checkpoint}

/-- What stays the same during the pass of a request. -/
def context (e : Engine) (book : Workbook) (q : Request) : PassContext :=
  ⟨book, e.library, e.config, q, (e.plan book q).1, q.homeUnits⟩

/-- The steps of the complete pass of a request. -/
def steps (e : Engine) (book : Workbook) (q : Request) : List Step :=
  Step.ofSchedule e.config (e.plan book q).2

/-- The outcomes of the complete pass of a request. -/
def trace (e : Engine) (book : Workbook) (q : Request) : List (Address × Except Fault Value) :=
  (e.context book q).trace ∅ (e.steps book q)

theorem runPass_of_calm (calm : interruption? answers (e.steps book q).length = none) :
    e.runPass book q answers =
      let state := (e.context book q).performAll (e.steps book q)
      ⟨.completed, state.results, state.completed, (e.plan book q).2.size, state.progress,
        (e.steps book q).length⟩ := by
  unfold steps at calm
  simp only [runPass, calm]
  rfl

theorem runPass_of_interruption {k : Nat} {finish : PassEnd}
    (found : interruption? answers (e.steps book q).length = some (k, finish)) :
    e.runPass book q answers =
      let state := (e.context book q).performAll ((e.steps book q).take k)
      ⟨finish, state.results, state.completed, (e.plan book q).2.size, state.progress, k + 1⟩ := by
  unfold steps at found
  simp only [runPass, found]
  rfl

/-- Every answer that a pass asks for is to go on. -/
def Uninterrupted (e : Engine) (book : Workbook) (q : Request) (answers : List Checkpoint) : Prop :=
  ∀ x ∈ answers.take (e.runPass book q answers).polls, x = .go

theorem uninterrupted_of_go (go : ∀ x ∈ answers, x = .go) : e.Uninterrupted book q answers :=
  fun x asked => go x (List.mem_of_mem_take asked)

theorem uninterrupted_nil (e : Engine) (book : Workbook) (q : Request) :
    e.Uninterrupted book q [] :=
  uninterrupted_of_go nofun

theorem Uninterrupted.calm (whole : e.Uninterrupted book q answers) :
    interruption? answers (e.steps book q).length = none := by
  cases found : interruption? answers (e.steps book q).length with
  | none => rfl
  | some stop =>
    obtain ⟨k, finish⟩ := stop
    obtain ⟨-, x, split, ends⟩ := interruption?_some found
    rw [Uninterrupted, runPass_of_interruption found, split] at whole
    obtain rfl := whole x (List.mem_append_right _ (List.mem_singleton_self x))
    cases ends

/-- Every pass performs a leading part of its steps, all of them exactly if it completes. -/
theorem runPass_performs (e : Engine) (book : Workbook) (q : Request) (answers : List Checkpoint) :
    ∃ k ≤ (e.steps book q).length,
      let outcome := e.runPass book q answers
      let state := (e.context book q).performAll ((e.steps book q).take k)
      outcome.results = state.results ∧ outcome.completed = state.completed ∧
        outcome.total = (e.plan book q).2.size ∧
        (outcome.finish = .completed ↔ k = (e.steps book q).length) := by
  cases found : interruption? answers (e.steps book q).length with
  | none =>
    refine ⟨_, Nat.le_refl _, ?_⟩
    simp [runPass_of_calm found]
  | some stop =>
    obtain ⟨k, finish⟩ := stop
    have early := (interruption?_some found).1
    refine ⟨k, Nat.le_of_lt early, ?_⟩
    simp [runPass_of_interruption found, finish_ne_completed found, Nat.ne_of_lt early]

/-! ### The order of a pass -/

theorem plan_eq (e : Engine) (book : Workbook) (q : Request) :
    e.plan book q = (DependencyGraph.ofWorkbook book e.library,
      q.schedule (DependencyGraph.ofWorkbook book e.library) e.config.recalcVolatile) :=
  rfl

theorem exists_schedule (e : Engine) (book : Workbook) (q : Request) :
    ∃ vertices, (e.plan book q).2 = (e.plan book q).1.dependencies.schedule vertices := by
  rw [plan_eq]
  unfold Request.schedule
  split
  · exact ⟨_, rfl⟩
  · exact ⟨_, rfl⟩

theorem order_eq (e : Engine) (book : Workbook) (q : Request) :
    (e.plan book q).2.order = (e.steps book q).flatMap Step.vertices :=
  (Step.vertices_ofSchedule e.config _).symm

theorem order_nodup (e : Engine) (book : Workbook) (q : Request) : (e.plan book q).2.order.Nodup := by
  obtain ⟨vertices, same⟩ := e.exists_schedule book q
  rw [same]
  exact Digraph.nodup_order _ vertices

theorem lt_size_of_mem_order {v : Nat} (listed : v ∈ (e.plan book q).2.order) :
    v < (e.plan book q).1.size := by
  obtain ⟨vertices, same⟩ := e.exists_schedule book q
  rw [same] at listed
  have bounded := (Digraph.mem_known.mp (Digraph.mem_order.mp listed)).2
  rwa [plan_eq, DependencyGraph.ofWorkbook, DependencyGraph.size_dependencies] at bounded

theorem steps_busy {step : Step} (listed : step ∈ e.steps book q) : step.vertices ≠ [] := by
  obtain ⟨vertices, same⟩ := e.exists_schedule book q
  rw [steps, same] at listed
  exact Step.ne_nil_of_mem_ofSchedule listed

theorem nodup_trace (e : Engine) (book : Workbook) (q : Request) :
    ((e.trace book q).map Prod.fst).Nodup := by
  rw [trace, PassContext.addresses_trace, ← order_eq]
  exact DependencyGraph.nodup_addresses (e.order_nodup book q)

/-! ### The first steps of a pass -/

/-- The vertices of the first steps. -/
def early (e : Engine) (book : Workbook) (q : Request) (k : Nat) : List Nat :=
  ((e.steps book q).take k).flatMap Step.vertices

/-- The vertices of all later steps. -/
def late (e : Engine) (book : Workbook) (q : Request) (k : Nat) : List Nat :=
  ((e.steps book q).drop k).flatMap Step.vertices

theorem early_append_late (e : Engine) (book : Workbook) (q : Request) (k : Nat) :
    e.early book q k ++ e.late book q k = (e.plan book q).2.order := by
  rw [early, late, ← List.flatMap_append, List.take_append_drop, order_eq]

theorem nodup_trace_take (e : Engine) (book : Workbook) (q : Request) (k : Nat) :
    (((e.context book q).trace ∅ ((e.steps book q).take k)).map Prod.fst).Nodup :=
  (e.nodup_trace book q).sublist ((PassContext.trace_prefix ∅ _ k).sublist.map Prod.fst)

theorem carries_take (e : Engine) (book : Workbook) (q : Request) (k : Nat) :
    (e.context book q).Carries ((e.context book q).performAll ((e.steps book q).take k))
      ((e.context book q).trace ∅ ((e.steps book q).take k)) :=
  PassContext.performAll_carries (e.nodup_trace_take book q k)

theorem completed_take (e : Engine) (book : Workbook) (q : Request) (k : Nat) :
    ((e.context book q).performAll ((e.steps book q).take k)).completed =
      (e.early book q k).length := by
  -- every vertex of the order has a cell, so vertices and cells are equally many
  have bounded : ∀ v ∈ e.early book q k, v < (e.plan book q).1.size := fun v member => by
    refine lt_size_of_mem_order (q := q) ?_
    rw [← early_append_late e book q k]
    exact List.mem_append_left _ member
  rw [(e.carries_take book q k).completed, ← List.length_map Prod.fst, PassContext.addresses_trace]
  exact DependencyGraph.length_addresses bounded

theorem cycle_whole_or_absent {c : List Nat} (listed : c ∈ (e.plan book q).2.cycles) (k : Nat) :
    (∀ v ∈ c, v ∈ e.early book q k) ∨ ∀ v ∈ c, v ∉ e.early book q k := by
  have step : Step.cycle c ∈ e.steps book q := Step.cycle_mem_ofSchedule listed
  rw [← List.take_append_drop k (e.steps book q), List.mem_append] at step
  -- a cycle is one step, performed or not
  rcases step with performed | remaining
  · exact .inl fun v member => List.mem_flatMap.mpr ⟨_, performed, member⟩
  · have nodup := e.order_nodup book q
    rw [← early_append_late e book q k] at nodup
    refine .inr fun v member taken => List.disjoint_of_nodup_append nodup taken ?_
    exact List.mem_flatMap.mpr ⟨_, remaining, member⟩

theorem late_eq_nil_iff {k : Nat} (bounded : k ≤ (e.steps book q).length) :
    e.late book q k = [] ↔ k = (e.steps book q).length := by
  constructor
  · intro none
    rw [late, List.flatMap_eq_nil_iff] at none
    -- every step works on some vertex
    have all : (e.steps book q).drop k = [] := List.eq_nil_iff_forall_not_mem.mpr fun step member =>
      steps_busy (List.mem_of_mem_drop member) (none step member)
    exact Nat.le_antisymm bounded (List.drop_eq_nil_iff.mp all)
  · rintro rfl
    rw [late, List.drop_length, List.flatMap_nil]

/-- An interrupted pass delivers what the complete pass delivers for the first cells of the order,
whole cycles at a time, and counts them; it has completed exactly if it has counted all cells. -/
theorem runPass_excerpt (e : Engine) (book : Workbook) (q : Request) (answers : List Checkpoint) :
    let plan := e.plan book q
    let outcome := e.runPass book q answers
    let taken := plan.2.order.take outcome.completed
    outcome.results.Excerpt (e.runPass book q []).results (plan.1.addresses taken) ∧
      outcome.results.carried.length = outcome.completed ∧
      (∀ c ∈ plan.2.cycles, (∀ v ∈ c, v ∈ taken) ∨ ∀ v ∈ c, v ∉ taken) ∧
      outcome.total = plan.2.size ∧ outcome.completed ≤ outcome.total ∧
      (outcome.finish = .completed ↔ outcome.completed = outcome.total) := by
  intro plan outcome taken
  obtain ⟨k, bounded, results, completed, total, ends⟩ := e.runPass_performs book q answers
  have parts : e.early book q k ++ e.late book q k = plan.2.order := e.early_append_late book q k
  have counted : outcome.completed = (e.early book q k).length :=
    completed.trans (e.completed_take book q k)
  have first : taken = e.early book q k := by
    rw [show taken = plan.2.order.take outcome.completed from rfl, counted, ← parts, List.take_left]
  have size : outcome.total = (e.early book q k).length + (e.late book q k).length := by
    rw [← List.length_append, parts]
    exact total
  have carries := e.carries_take book q k
  have addresses : ((e.context book q).trace ∅ ((e.steps book q).take k)).map Prod.fst =
      plan.1.addresses taken := by
    rw [PassContext.addresses_trace, first]
    rfl
  refine ⟨?_, ?_, ?_, total, by omega, ?_⟩
  -- the trace of the steps performed is a prefix of the whole trace
  · obtain ⟨rest, whole⟩ := PassContext.trace_prefix (c := e.context book q) ∅ (e.steps book q) k
    have complete := PassContext.performAll_carries (e.nodup_trace book q)
    have distinct := e.nodup_trace book q
    rw [trace, ← whole] at distinct
    rw [← whole] at complete
    rw [runPass_of_calm (e.uninterrupted_nil book q).calm, ← addresses]
    exact results ▸ carries.excerpt complete distinct
  · have distinct := e.nodup_trace_take book q k
    rw [results, (carries.carried_perm distinct).length_eq, List.length_map, ← carries.completed]
    exact completed.symm
  · rw [first]
    exact fun c listed => cycle_whole_or_absent listed k
  · rw [ends, ← late_eq_nil_iff bounded, counted, size, ← List.length_eq_zero_iff]
    omega

end Engine

end Recalc
