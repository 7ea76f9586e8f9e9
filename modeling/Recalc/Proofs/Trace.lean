import Mathlib.Data.List.Nodup
import Recalc.Calculation.Pass
import Recalc.Proofs.Graph

/-!
# What a pass has done

A pass commits outcomes one after another. The list of them is its trace; the overlay, the counters
and the results are functions of it (`performAll_carries`), its cells are the vertices of the steps
in their order (`addresses_trace`), and fewer steps have a shorter trace (`trace_prefix`).
-/
namespace Recalc

/-! ### Steps -/

namespace Step

/-- The vertices that a step works on. -/
def vertices : Step → List Nat
  | cells vs => vs
  | cycle vs => vs

theorem vertices_ofVertices (config : Config) (vs : List Nat) :
    (ofVertices config vs).flatMap vertices = vs := by
  unfold ofVertices
  split
  · rw [List.flatMap_map, List.flatMap_def]
    exact (congrArg List.flatten (List.map_id _)).trans (flatten_pieces _ vs)
  · rw [List.flatMap_map]
    exact List.flatMap_singleton' vs

theorem vertices_ofLayer (config : Config) (l : Layer) :
    (ofLayer config l).flatMap vertices = l.order := by
  rw [ofLayer, List.flatMap_append, vertices_ofVertices, List.flatMap_map]
  exact congrArg (l.vertices ++ ·) List.flatMap_id

theorem vertices_ofSchedule (config : Config) (s : Schedule) :
    (ofSchedule config s).flatMap vertices = s.order := by
  rw [ofSchedule, List.flatMap_assoc]
  exact congrArg (s.layers.flatMap ·) (funext (vertices_ofLayer config))

end Step

/-! ### Results -/

namespace Results

/-- The cells that results speak of, those with a value and those with a fault. -/
def carried (r : Results) : List Address :=
  r.cells.map Prod.fst ++ r.faults.map CellFault.address

theorem mem_cells {r : Results} {a : Address} {v : Value} :
    (a, v) ∈ r.cells ↔ r.home.get? a = some v ∨ r.other.get? a = some v := by
  simp only [cells, List.mem_append, UnitCells.mem_toList]

/-- Where every cell is listed once, the value of a cell is the one that is listed. -/
theorem value?_eq_some_iff {r : Results} (once : (r.cells.map Prod.fst).Nodup) {a : Address}
    {v : Value} : r.value? a = some v ↔ (a, v) ∈ r.cells := by
  constructor
  · intro found
    exact mem_cells.mpr ((Option.or_eq_some_iff.mp found).imp id And.right)
  · intro listed
    -- the cell is found in one of the two maps, and listed once only
    cases found : r.value? a with
    | some w =>
      have also : (a, w) ∈ r.cells := mem_cells.mpr ((Option.or_eq_some_iff.mp found).imp id And.right)
      have same := List.inj_on_of_nodup_map once also listed rfl
      exact congrArg (some ∘ Prod.snd) same
    | none =>
      rw [value?, Option.or_eq_none_iff] at found
      have member := mem_cells.mp listed
      simp [found] at member

end Results

namespace PassContext

variable {c : PassContext} {overlay : SortedMap Address Value} {steps : List Step}

/-! ### Overlays -/

theorem value_insert (c : PassContext) (overlay : SortedMap Address Value) (a b : Address)
    (v : Value) : c.value (overlay.insert a v) b = if a = b then v else c.value overlay b := by
  rw [value, SortedMap.getElem?_insert]
  split
  · rfl
  · rfl

/-- What is seen once some outcomes have been recorded. -/
def record (overlay : SortedMap Address Value) (outcomes : List (Address × Except Fault Value)) :
    SortedMap Address Value :=
  outcomes.foldl (fun overlay x => overlay.insert x.1 (shown x.2)) overlay

theorem record_append (overlay : SortedMap Address Value)
    (outcomes more : List (Address × Except Fault Value)) :
    record overlay (outcomes ++ more) = record (record overlay outcomes) more :=
  List.foldl_append

theorem record_of_notMem {outcomes : List (Address × Except Fault Value)} {a : Address}
    (absent : a ∉ outcomes.map Prod.fst) : (record overlay outcomes)[a]? = overlay[a]? :=
  foldl_kept (fun m : SortedMap Address Value => m[a]?) (fun m x listed => by
    rw [SortedMap.getElem?_insert, if_neg fun same => absent (List.mem_map.mpr ⟨x, listed, same⟩)])
    overlay

theorem record_of_agree {outcomes : List (Address × Except Fault Value)}
    {s : Address → Except Fault Value} (agree : ∀ x ∈ outcomes, x.2 = s x.1) {a : Address}
    (member : a ∈ outcomes.map Prod.fst) : (record overlay outcomes)[a]? = some (shown (s a)) := by
  induction outcomes generalizing overlay with
  | nil => cases member
  | cons x rest ih =>
    by_cases later : a ∈ rest.map Prod.fst
    · exact ih (fun y listed => agree y (List.mem_cons_of_mem _ listed)) later
    · obtain rfl : a = x.1 := (List.mem_cons.mp member).resolve_right later
      show (record (overlay.insert x.1 (shown x.2)) rest)[x.1]? = _
      rw [record_of_notMem later, SortedMap.getElem?_insert, if_pos rfl, agree x List.mem_cons_self]

/-! ### Traces -/

/-- The outcomes of steps in the order in which they are committed. -/
def trace (c : PassContext) (overlay : SortedMap Address Value) :
    List Step → List (Address × Except Fault Value)
  | [] => []
  | step :: rest =>
    c.outcomes overlay step ++ c.trace (record overlay (c.outcomes overlay step)) rest

theorem trace_append (overlay : SortedMap Address Value) (steps more : List Step) :
    c.trace overlay (steps ++ more) =
      c.trace overlay steps ++ c.trace (record overlay (c.trace overlay steps)) more := by
  induction steps generalizing overlay with
  | nil => rfl
  | cons step rest ih => rw [List.cons_append, trace, trace, ih, List.append_assoc, record_append]

theorem trace_prefix (overlay : SortedMap Address Value) (steps : List Step) (k : Nat) :
    c.trace overlay (steps.take k) <+: c.trace overlay steps := by
  conv_rhs => rw [← List.take_append_drop k steps, trace_append]
  exact List.prefix_append _ _

theorem addresses_sweep (overlay : SortedMap Address Value) (members : List Vertex) :
    (c.sweep overlay members).2.1.map Prod.fst = members.map Vertex.address := by
  -- the sweep is a fold that carries its overlay along; only its list of outcomes matters here
  suffices swept : ∀ (members : List Vertex)
      (s : SortedMap Address Value × List (Address × Except Fault Value) × Bool),
      ((members.foldl (fun s v =>
        let outcome := c.evaluate s.1 v
        let old := c.value s.1 v.address
        let moved := c.request.options.tolerance < change old (shown outcome)
        (s.1.insert v.address (shown outcome), s.2.1 ++ [(v.address, outcome)],
          s.2.2 && !moved)) s).2.1).map Prod.fst =
        s.2.1.map Prod.fst ++ members.map Vertex.address from swept members (overlay, [], true)
  intro members
  induction members with
  | nil => simp
  | cons v rest ih =>
    intro s
    rw [List.foldl_cons, ih]
    simp

theorem addresses_sweeps (members : List Vertex) (overlay : SortedMap Address Value) {limit : Nat}
    (pos : 0 < limit) : (c.sweeps members limit overlay).map Prod.fst = members.map Vertex.address := by
  induction limit generalizing overlay with
  | zero => exact absurd pos (Nat.lt_irrefl 0)
  | succ limit ih =>
    show (if (c.sweep overlay members).2.2 || limit == 0 then (c.sweep overlay members).2.1
      else c.sweeps members limit (c.sweep overlay members).1).map Prod.fst = _
    split
    next => exact addresses_sweep overlay members
    next more =>
      have positive : limit ≠ 0 := fun zero => more (by simp [zero])
      exact ih _ (Nat.pos_of_ne_zero positive)

theorem addresses_outcomes (overlay : SortedMap Address Value) (step : Step) :
    (c.outcomes overlay step).map Prod.fst = c.graph.addresses step.vertices := by
  cases step with
  | cells vs => exact List.map_map
  | cycle vs =>
    show (c.cycleOutcomes overlay (c.members vs)).map Prod.fst = _
    unfold cycleOutcomes
    split
    · exact addresses_sweeps _ overlay (Nat.le_max_right _ 1)
    · exact List.map_map

theorem addresses_trace (overlay : SortedMap Address Value) (steps : List Step) :
    (c.trace overlay steps).map Prod.fst = c.graph.addresses (steps.flatMap Step.vertices) := by
  induction steps generalizing overlay with
  | nil => rfl
  | cons step rest ih =>
    rw [trace, List.map_append, addresses_outcomes, ih, List.flatMap_cons,
      DependencyGraph.addresses_append]

/-! ### States -/

theorem overlay_commitAll (c : PassContext) (s : PassState)
    (outcomes : List (Address × Except Fault Value)) :
    (c.commitAll s outcomes).overlay = record s.overlay outcomes := by
  induction outcomes generalizing s with
  | nil => rfl
  | cons x rest ih => exact ih (c.commit s x.1 x.2)

theorem overlay_perform (c : PassContext) (s : PassState) (step : Step) :
    (c.perform s step).overlay = record s.overlay (c.outcomes s.overlay step) := by
  rw [← overlay_commitAll c s]
  unfold perform report
  simp only
  split
  · rfl
  · rfl

/-- The fault of an outcome, at its cell. -/
def fault? : Address × Except Fault Value → Option CellFault
  | (a, .error fault) => some ⟨a, fault.message⟩
  | (_, .ok _) => none

section Faults

variable {trace : List (Address × Except Fault Value)}

theorem mem_filterMap_fault? {f : CellFault} :
    f ∈ trace.filterMap fault? ↔ ∃ fault, (f.address, .error fault) ∈ trace ∧
      f.message = fault.message := by
  rw [List.mem_filterMap]
  constructor
  · rintro ⟨⟨a, fault | v⟩, member, same⟩
    · cases same
      exact ⟨_, member, rfl⟩
    · cases same
  · rintro ⟨fault, member, same⟩
    exact ⟨_, member, by cases f; simp_all [fault?]⟩

/-- A cell has one outcome. -/
theorem outcome_unique {a : Address} {x y : Except Fault Value} (nodup : (trace.map Prod.fst).Nodup)
    (first : (a, x) ∈ trace) (second : (a, y) ∈ trace) : x = y :=
  congrArg Prod.snd (List.inj_on_of_nodup_map nodup first second rfl)

theorem sublist_faults (trace : List (Address × Except Fault Value)) :
    ((trace.filterMap fault?).map CellFault.address).Sublist (trace.map Prod.fst) := by
  induction trace with
  | nil => exact .slnil
  | cons x rest ih =>
    obtain ⟨a, fault | v⟩ := x
    · exact ih.cons_cons a
    · exact ih.cons a

end Faults

/-- The state after outcomes at distinct cells: every value is among the results of its unit, every
fault is listed, and nothing else is. -/
structure Carries (c : PassContext) (s : PassState)
    (trace : List (Address × Except Fault Value)) : Prop where
  overlay : s.overlay = record ∅ trace
  completed : s.completed = trace.length
  faults : s.results.faults = trace.filterMap fault?
  home : ∀ a v, s.results.home.get? a = some v ↔ c.isHome a = true ∧ (a, .ok v) ∈ trace
  other : ∀ a v, s.results.other.get? a = some v ↔ c.isHome a = false ∧ (a, .ok v) ∈ trace

theorem carries_start (c : PassContext) : c.Carries .start [] where
  overlay := rfl
  completed := rfl
  faults := rfl
  home a v := by simp [PassState.start, Results.empty, UnitCells.get?_empty]
  other a v := by simp [PassState.start, Results.empty, UnitCells.get?_empty]

namespace Carries

variable {s : PassState} {done : List (Address × Except Fault Value)}

theorem report (carries : c.Carries s done) : c.Carries (c.report s) done := by
  unfold PassContext.report
  simp only
  split
  · exact ⟨carries.overlay, carries.completed, carries.faults, carries.home, carries.other⟩
  · exact carries

/-- The value of a new cell is added to one of the two maps of a result. -/
private theorem get?_set_iff {cells : UnitCells} {a : Address} {v : Value} {side : Address → Prop}
    (before : ∀ b w, cells.get? b = some w ↔ side b ∧ (b, .ok w) ∈ done)
    (new : a ∉ done.map Prod.fst) (here : side a) (b : Address) (w : Value) :
    (cells.set a v).get? b = some w ↔ side b ∧ (b, .ok w) ∈ done ++ [(a, .ok v)] := by
  rw [UnitCells.get?_set, List.mem_append, List.mem_singleton]
  by_cases same : a = b
  · subst same
    rw [if_pos rfl]
    constructor
    · rintro ⟨⟩
      exact ⟨here, .inr rfl⟩
    · rintro ⟨-, earlier | last⟩
      · exact absurd (List.mem_map_of_mem earlier) new
      · cases last
        rfl
  · rw [if_neg same, before]
    refine and_congr_right fun _ => ⟨.inl, fun member => member.resolve_right fun last => ?_⟩
    cases last
    exact same rfl

/-- An outcome that a map is not for leaves the map as it is. -/
private theorem get?_iff_of_foreign {cells : UnitCells} {a : Address} {x : Except Fault Value}
    {side : Address → Prop} (before : ∀ b w, cells.get? b = some w ↔ side b ∧ (b, .ok w) ∈ done)
    (foreign : ∀ v, x = .ok v → ¬side a) (b : Address) (w : Value) :
    cells.get? b = some w ↔ side b ∧ (b, .ok w) ∈ done ++ [(a, x)] := by
  rw [before, List.mem_append, List.mem_singleton]
  refine and_congr_right fun here => ⟨.inl, fun member => member.resolve_right fun last => ?_⟩
  obtain ⟨rfl, rfl⟩ := Prod.mk.inj last
  exact foreign w rfl here

theorem commit (carries : c.Carries s done) {a : Address} (new : a ∉ done.map Prod.fst)
    (x : Except Fault Value) : c.Carries (c.commit s a x) (done ++ [(a, x)]) := by
  have overlay : (c.commit s a x).overlay = record ∅ (done ++ [(a, x)]) := by
    rw [record_append, ← carries.overlay]
    rfl
  have completed : (c.commit s a x).completed = (done ++ [(a, x)]).length := by
    rw [List.length_append, ← carries.completed]
    rfl
  cases x with
  | error fault =>
    refine ⟨overlay, completed, ?_, ?_, ?_⟩
    · rw [List.filterMap_append, ← carries.faults]
      rfl
    · exact get?_iff_of_foreign carries.home fun _ ok => nomatch ok
    · exact get?_iff_of_foreign carries.other fun _ ok => nomatch ok
  | ok v =>
    have results : (c.commit s a (.ok v)).results = s.results.insert (c.isHome a) a v := rfl
    refine ⟨overlay, completed, ?_, ?_, ?_⟩
    · rw [List.filterMap_append, ← carries.faults, results, Results.insert]
      split <;> exact (List.append_nil _).symm
    · rw [results, Results.insert]
      split
      next here => exact get?_set_iff carries.home new here
      next there => exact get?_iff_of_foreign carries.home fun _ _ => there
    · rw [results, Results.insert]
      split
      next here => exact get?_iff_of_foreign carries.other fun _ _ => by simp [here]
      next there => exact get?_set_iff carries.other new (by simpa using there)

theorem commitAll (carries : c.Carries s done) {outcomes : List (Address × Except Fault Value)}
    (nodup : ((done ++ outcomes).map Prod.fst).Nodup) :
    c.Carries (c.commitAll s outcomes) (done ++ outcomes) := by
  induction outcomes generalizing s done with
  | nil =>
    rw [List.append_nil]
    exact carries
  | cons x rest ih =>
    have shifted : done ++ x :: rest = (done ++ [x]) ++ rest := by simp
    rw [shifted] at nodup ⊢
    have before : ((done ++ [x]).map Prod.fst).Nodup := by
      rw [List.map_append] at nodup
      exact nodup.of_append_left
    have new : x.1 ∉ done.map Prod.fst := by
      rw [List.map_append, List.map_singleton] at before
      exact fun earlier => List.disjoint_of_nodup_append before earlier List.mem_cons_self
    exact ih (carries.commit new x.2) nodup

theorem foldl_perform (carries : c.Carries s done)
    (nodup : ((done ++ c.trace s.overlay steps).map Prod.fst).Nodup) :
    c.Carries (steps.foldl c.perform s) (done ++ c.trace s.overlay steps) := by
  induction steps generalizing s done with
  | nil => simpa [trace] using carries
  | cons step rest ih =>
    rw [trace, ← List.append_assoc] at nodup ⊢
    have before : ((done ++ c.outcomes s.overlay step).map Prod.fst).Nodup := by
      rw [List.map_append] at nodup
      exact nodup.of_append_left
    have performed : c.Carries (c.perform s step) (done ++ c.outcomes s.overlay step) :=
      (carries.commitAll before).report
    -- the overlay after the step is what the rest of the trace starts from
    rw [← overlay_perform] at nodup ⊢
    exact ih performed nodup

theorem mem_cells (carries : c.Carries s done) {a : Address} {v : Value} :
    (a, v) ∈ s.results.cells ↔ (a, .ok v) ∈ done := by
  rw [Results.mem_cells, carries.home, carries.other]
  cases c.isHome a <;> simp

theorem mem_carried (carries : c.Carries s done) {a : Address} :
    a ∈ s.results.carried ↔ a ∈ done.map Prod.fst := by
  simp only [Results.carried, List.mem_append, List.mem_map, Prod.exists, carries.faults,
    mem_filterMap_fault?, carries.mem_cells, exists_and_right, exists_eq_right]
  constructor
  · rintro (⟨v, member⟩ | ⟨f, ⟨fault, member, -⟩, rfl⟩)
    · exact ⟨_, member⟩
    · exact ⟨_, member⟩
  · rintro ⟨x, member⟩
    cases x with
    | ok v => exact .inl ⟨v, member⟩
    | error fault => exact .inr ⟨⟨a, fault.message⟩, ⟨fault, member, rfl⟩, rfl⟩

theorem nodup_carried (carries : c.Carries s done) (nodup : (done.map Prod.fst).Nodup) :
    s.results.carried.Nodup := by
  rw [Results.carried, Results.cells, List.map_append]
  refine List.nodup_append'.mpr ⟨List.nodup_append'.mpr ⟨UnitCells.nodup_addresses _,
    UnitCells.nodup_addresses _, ?_⟩, ?_, ?_⟩
  -- no cell is both of a unit that was asked for and of another one
  · intro a first second
    obtain ⟨⟨_, v⟩, inHome, rfl⟩ := List.mem_map.mp first
    obtain ⟨⟨_, w⟩, inOther, rfl⟩ := List.mem_map.mp second
    have here := ((carries.home _ _).mp (UnitCells.mem_toList.mp inHome)).1
    have there := ((carries.other _ _).mp (UnitCells.mem_toList.mp inOther)).1
    exact Bool.false_ne_true (there.symm.trans here)
  · rw [carries.faults]
    exact nodup.sublist (sublist_faults done)
  -- no cell has both a value and a fault, since it has one outcome
  · intro a first second
    rw [← List.map_append] at first
    obtain ⟨⟨_, v⟩, listed, rfl⟩ := List.mem_map.mp first
    obtain ⟨f, faulty, same⟩ := List.mem_map.mp second
    rw [carries.faults] at faulty
    obtain ⟨fault, member, -⟩ := mem_filterMap_fault?.mp faulty
    rw [same] at member
    exact nomatch outcome_unique nodup (carries.mem_cells.mp listed) member

/-- The results of a pass speak of each cell of its trace once, and of no other cell. -/
theorem carried_perm (carries : c.Carries s done) (nodup : (done.map Prod.fst).Nodup) :
    s.results.carried.Perm (done.map Prod.fst) :=
  (List.perm_ext_iff_of_nodup (carries.nodup_carried nodup) nodup).mpr fun _ => carries.mem_carried

end Carries

/-- Steps with the same trace over another workbook do the same there. -/
theorem foldl_perform_congr {other : Workbook} {s : PassState}
    (same : trace { c with book := other } s.overlay steps = c.trace s.overlay steps) :
    steps.foldl (perform { c with book := other }) s = steps.foldl c.perform s := by
  induction steps generalizing s with
  | nil => rw [List.foldl_nil, List.foldl_nil]
  | cons step rest ih =>
    -- both traces begin with the same cells, so equal traces split at the same place
    have cells := (addresses_outcomes (c := { c with book := other }) s.overlay step).trans
      (addresses_outcomes (c := c) s.overlay step).symm
    have length := congrArg List.length cells
    rw [List.length_map, List.length_map] at length
    rw [trace, trace] at same
    obtain ⟨first, later⟩ := List.append_inj same length
    have performed : perform { c with book := other } s step = c.perform s step :=
      congrArg (fun outcomes => c.report (c.commitAll s outcomes)) first
    rw [List.foldl_cons, List.foldl_cons, performed]
    rw [first] at later
    refine ih ?_
    rw [overlay_perform]
    exact later

/-- Performing steps leaves behind exactly what their trace says. -/
theorem performAll_carries (nodup : ((c.trace ∅ steps).map Prod.fst).Nodup) :
    c.Carries (c.performAll steps) (c.trace ∅ steps) :=
  c.carries_start.foldl_perform nodup

end PassContext

end Recalc
