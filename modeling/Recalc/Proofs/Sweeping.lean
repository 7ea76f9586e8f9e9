import Recalc.Proofs.Readiness
import Recalc.Proofs.WriteBack

/-!
# Sweeps over a cycle

A sweep evaluates the members of a cycle in turn, each over what has become of those before it
(`sweep_cons`), and sweeps follow one another until one settles (`sweeps_of_stopsAt`). A sweep that
changes nothing evaluates all members over the same values (`sweep_of_settled`) and is the same as
all that follow (`sweeps_of_fixed`). Two workbooks that agree on what the members read are swept alike
(`sweeps_congr`).
-/
namespace Recalc.PassContext

variable {c : PassContext} {overlay : SortedMap Address Value} {members : List Vertex}

/-! ### One sweep -/

/-- Whether the outcome of a member differs from what was seen there by more than the tolerance. -/
def moves (c : PassContext) (overlay : SortedMap Address Value) (y : Vertex) : Bool :=
  c.request.options.tolerance < change (c.value overlay y.address) (shown (c.evaluate overlay y))

/-- What a sweep does with one member. -/
private def sweepOne (c : PassContext)
    (s : SortedMap Address Value × List (Address × Except Fault Value) × Bool) (y : Vertex) :
    SortedMap Address Value × List (Address × Except Fault Value) × Bool :=
  (s.1.insert y.address (shown (c.evaluate s.1 y)), s.2.1 ++ [(y.address, c.evaluate s.1 y)],
    s.2.2 && !c.moves s.1 y)

/-- Earlier outcomes are carried along, and a member that has moved is not forgotten. -/
private theorem foldl_sweepOne
    (s : SortedMap Address Value × List (Address × Except Fault Value) × Bool) :
    members.foldl c.sweepOne s =
      let t := members.foldl c.sweepOne (s.1, [], true)
      (t.1, s.2.1 ++ t.2.1, s.2.2 && t.2.2) := by
  induction members generalizing s with
  | nil => simp
  | cons y rest ih =>
    rw [List.foldl_cons, List.foldl_cons, ih, ih (c.sweepOne (s.1, [], true) y)]
    simp [sweepOne, Bool.and_assoc]

theorem sweep_cons (c : PassContext) (overlay : SortedMap Address Value) (y : Vertex)
    (rest : List Vertex) :
    c.sweep overlay (y :: rest) =
      let later := c.sweep (overlay.insert y.address (shown (c.evaluate overlay y))) rest
      (later.1, (y.address, c.evaluate overlay y) :: later.2.1,
        !c.moves overlay y && later.2.2) := by
  show rest.foldl c.sweepOne (c.sweepOne (overlay, [], true) y) = _
  rw [foldl_sweepOne]
  rfl

/-- A sweep leaves behind what its outcomes record. -/
theorem overlay_sweep (c : PassContext) (overlay : SortedMap Address Value) (members : List Vertex) :
    (c.sweep overlay members).1 = record overlay (c.sweep overlay members).2.1 := by
  induction members generalizing overlay with
  | nil => rfl
  | cons y rest ih =>
    rw [sweep_cons]
    exact ih _

/-- A recorded outcome hides whatever was seen before. -/
theorem exists_record {outcomes : List (Address × Except Fault Value)} {a : Address}
    (member : a ∈ outcomes.map Prod.fst) : ∃ v, ∀ overlay, (record overlay outcomes)[a]? = some v := by
  induction outcomes with
  | nil => cases member
  | cons x rest ih =>
    by_cases later : a ∈ rest.map Prod.fst
    · obtain ⟨v, recorded⟩ := ih later
      exact ⟨v, fun overlay => recorded _⟩
    · obtain rfl : a = x.1 := (List.mem_cons.mp member).resolve_right later
      refine ⟨shown x.2, fun overlay => ?_⟩
      show (record (overlay.insert x.1 (shown x.2)) rest)[x.1]? = _
      rw [record_of_notMem later, SortedMap.getElem?_insert, if_pos rfl]

theorem value_sweep_of_notMem {a : Address} (absent : a ∉ members.map Vertex.address) :
    c.value (c.sweep overlay members).1 a = c.value overlay a := by
  rw [← addresses_sweep (c := c) overlay] at absent
  rw [overlay_sweep, value, value, record_of_notMem absent]

/-! ### Many sweeps -/

/-- What is seen after a number of sweeps. -/
def swept (c : PassContext) (members : List Vertex) :
    Nat → SortedMap Address Value → SortedMap Address Value
  | 0, overlay => overlay
  | n + 1, overlay => c.swept members n (c.sweep overlay members).1

theorem value_swept_of_notMem {a : Address} (absent : a ∉ members.map Vertex.address) (n : Nat) :
    c.value (c.swept members n overlay) a = c.value overlay a := by
  induction n generalizing overlay with
  | zero => rfl
  | succ n ih => exact ih.trans (value_sweep_of_notMem absent)

/-- Whether all members settle in the sweep after the first `n`. -/
def settles (c : PassContext) (members : List Vertex) (overlay : SortedMap Address Value) (n : Nat) :
    Bool :=
  (c.sweep (c.swept members n overlay) members).2.2

theorem sweeps_succ (members : List Vertex) (limit : Nat) (overlay : SortedMap Address Value) :
    c.sweeps members (limit + 1) overlay =
      if (c.sweep overlay members).2.2 || limit == 0 then (c.sweep overlay members).2.1
      else c.sweeps members limit (c.sweep overlay members).1 :=
  rfl

theorem sweeps_succ_of_pos {limit : Nat} (pos : 0 < limit) :
    c.sweeps members (limit + 1) overlay =
      if (c.sweep overlay members).2.2 then (c.sweep overlay members).2.1
      else c.sweeps members limit (c.sweep overlay members).1 := by
  rw [sweeps_succ, beq_false_of_ne (Nat.ne_of_gt pos), Bool.or_false]

theorem outcomes_cycle (iterative : c.request.options.iterative = true)
    (overlay : SortedMap Address Value) (vs : List Nat) :
    c.outcomes overlay (.cycle vs) =
      c.sweeps (c.members vs) (max c.request.options.maxIterations 1) overlay :=
  if_pos iterative

/-- Sweeps that do not settle are followed by the others. -/
theorem sweeps_add {n : Nat} (moving : ∀ m < n, c.settles members overlay m = false) (limit : Nat) :
    c.sweeps members (limit + 1 + n) overlay =
      c.sweeps members (limit + 1) (c.swept members n overlay) := by
  induction n generalizing overlay with
  | zero => rfl
  | succ n ih =>
    have first : (c.sweep overlay members).2.2 = false := moving 0 (Nat.succ_pos n)
    have more : (limit + 1 + n == 0) = false := by simp
    rw [← Nat.add_assoc, sweeps_succ, first, more]
    exact ih fun m less => moving (m + 1) (Nat.succ_lt_succ less)

/-- The sweeps stop after the first `n` and one more, because all members settle in that one. -/
structure StopsAt (c : PassContext) (members : List Vertex) (overlay : SortedMap Address Value)
    (n : Nat) : Prop where
  moving : ∀ m < n, c.settles members overlay m = false
  settled : c.settles members overlay n = true

theorem sweeps_of_stopsAt {n limit : Nat} (stops : c.StopsAt members overlay n) (less : n < limit) :
    c.sweeps members limit overlay = (c.sweep (c.swept members n overlay) members).2.1 := by
  obtain ⟨more, rfl⟩ := Nat.exists_eq_add_of_lt less
  have settled : (c.sweep (c.swept members n overlay) members).2.2 = true := stops.settled
  rw [show n + more + 1 = more + 1 + n by omega, sweeps_add stops.moving, sweeps_succ, settled]
  rfl

/-! ### Sweeps that change nothing -/

theorem evaluate_of_value {overlay' : SortedMap Address Value}
    (same : c.value overlay' = c.value overlay) : c.evaluate overlay' = c.evaluate overlay :=
  funext fun y => by simp only [evaluate, same]

/-- A sweep depends on nothing but what is seen. -/
theorem sweep_of_value {overlay' : SortedMap Address Value}
    (same : c.value overlay' = c.value overlay) (members : List Vertex) :
    (c.sweep overlay' members).2 = (c.sweep overlay members).2 ∧
      c.value (c.sweep overlay' members).1 = c.value (c.sweep overlay members).1 := by
  induction members generalizing overlay overlay' with
  | nil => exact ⟨rfl, same⟩
  | cons y rest ih =>
    have moved : c.moves overlay' y = c.moves overlay y := by
      simp only [moves, evaluate_of_value same, same]
    have kept (v : Value) :
        c.value (overlay'.insert y.address v) = c.value (overlay.insert y.address v) :=
      funext fun a => by rw [value_insert, value_insert, same]
    obtain ⟨later, after⟩ := ih (kept (shown (c.evaluate overlay y)))
    rw [sweep_cons, sweep_cons, evaluate_of_value same, moved]
    exact ⟨by simp only [later], after⟩

/-- A sweep that leaves what was seen before is the same as all that follow. -/
theorem sweeps_of_fixed (fixed : c.value (c.sweep overlay members).1 = c.value overlay)
    {limit : Nat} (pos : 0 < limit) :
    c.sweeps members limit overlay = (c.sweep overlay members).2.1 := by
  induction limit generalizing overlay with
  | zero => exact absurd pos (Nat.lt_irrefl 0)
  | succ limit ih =>
    rw [sweeps_succ]
    split
    next => rfl
    next more =>
      have positive : limit ≠ 0 := fun zero => more (by simp [zero])
      obtain ⟨outcomes, after⟩ := sweep_of_value fixed members
      rw [ih after (Nat.pos_of_ne_zero positive), outcomes]

/-- A sweep that comes to the outcomes of the sweep before leaves what was seen before. -/
theorem value_sweep_of_repeated
    (again : (c.sweep (c.sweep overlay members).1 members).2.1 = (c.sweep overlay members).2.1) :
    c.value (c.sweep (c.sweep overlay members).1 members).1 =
      c.value (c.sweep overlay members).1 := by
  funext a
  rw [overlay_sweep, again, value, value]
  by_cases member : a ∈ (c.sweep overlay members).2.1.map Prod.fst
  · obtain ⟨v, recorded⟩ := exists_record member
    rw [recorded, overlay_sweep, recorded]
  · rw [record_of_notMem member]

/-- Where every change is noticed, a sweep that settles shows what was seen before it, and has
evaluated all members over that. -/
theorem sweep_of_settled (settled : (c.sweep overlay members).2.2 = true)
    (noticed : ∀ x ∈ (c.sweep overlay members).2.1,
      ¬c.request.options.tolerance < change (c.value overlay x.1) (shown x.2) →
        shown x.2 = c.value overlay x.1) :
    c.value (c.sweep overlay members).1 = c.value overlay ∧
      (c.sweep overlay members).2.1 = members.map fun y => (y.address, c.evaluate overlay y) := by
  induction members generalizing overlay with
  | nil => exact ⟨rfl, rfl⟩
  | cons y rest ih =>
    rw [sweep_cons] at settled noticed ⊢
    obtain ⟨still, others⟩ := Bool.and_eq_true_iff.mp settled
    obtain ⟨first, later⟩ := List.forall_mem_cons.mp noticed
    have here : shown (c.evaluate overlay y) = c.value overlay y.address :=
      first (by simpa [moves] using still)
    -- the rest of the sweep sees exactly what was seen before it
    have kept : c.value (overlay.insert y.address (shown (c.evaluate overlay y))) =
        c.value overlay := funext fun a => by
      rw [value_insert]
      split
      next same => rw [← same]; exact here
      next => rfl
    obtain ⟨values, outcomes⟩ := ih others (by rw [kept]; exact later)
    rw [evaluate_of_value kept] at outcomes
    exact ⟨values.trans kept, congrArg ((y.address, c.evaluate overlay y) :: ·) outcomes⟩

/-! ### Two workbooks with the same formulas -/

section Other

variable {other : Workbook} {overlay' : SortedMap Address Value} {seen : Address → Prop}

/-- Whether passes over two workbooks see the same in some cells. -/
def Agree (c : PassContext) (other : Workbook) (seen : Address → Prop)
    (overlay overlay' : SortedMap Address Value) : Prop :=
  ∀ a, seen a → value { c with book := other } overlay' a = c.value overlay a

/-- Whether all members and all that they read are among some cells. -/
def Within (c : PassContext) (members : List Vertex) (seen : Address → Prop) : Prop :=
  ∀ y ∈ members, (∃ v, c.graph.vertex? v = some y) ∧ seen y.address ∧
    ∀ a, y.reads a = true → seen a

theorem Agree.insert (agree : c.Agree other seen overlay overlay') (a : Address) (v : Value) :
    c.Agree other seen (overlay.insert a v) (overlay'.insert a v) := by
  intro b inside
  rw [value_insert, value_insert]
  split
  · rfl
  · exact agree b inside

variable (graph : c.graph = .ofWorkbook c.book c.library) (same : other.SameFormulas c.book)
include graph same

omit graph in
/-- Over another workbook with the same formulas, a formula differs only in what it finds. -/
theorem evaluate_other (overlay' : SortedMap Address Value) (y : Vertex) :
    evaluate { c with book := other } overlay' y =
      c.outcome (value { c with book := other } overlay') (.cells []) y := by
  simp only [evaluate, outcome, same.viewWith]

/-- A formula gives the same over both workbooks if it finds the same in what it reads. -/
theorem evaluate_of_agree (agree : c.Agree other seen overlay overlay') {v : Nat} {y : Vertex}
    (found : c.graph.vertex? v = some y) (reads : ∀ a, y.reads a = true → seen a) :
    evaluate { c with book := other } overlay' y = c.evaluate overlay y := by
  rw [evaluate_other same]
  exact outcome_congr graph found (.cells []) fun a inside => agree a (reads a inside)

theorem sweep_congr (agree : c.Agree other seen overlay overlay')
    (within : c.Within members seen) :
    (sweep { c with book := other } overlay' members).2 = (c.sweep overlay members).2 ∧
      c.Agree other seen (c.sweep overlay members).1
        (sweep { c with book := other } overlay' members).1 := by
  induction members generalizing overlay overlay' with
  | nil => exact ⟨rfl, agree⟩
  | cons y rest ih =>
    obtain ⟨⟨⟨v, found⟩, here, reads⟩, others⟩ := List.forall_mem_cons.mp within
    have outcome := evaluate_of_agree graph same agree found reads
    have moved : moves { c with book := other } overlay' y = c.moves overlay y := by
      simp only [moves, outcome, agree _ here]
    obtain ⟨later, after⟩ := ih (agree.insert y.address (shown (c.evaluate overlay y))) others
    rw [sweep_cons, sweep_cons, outcome, moved]
    exact ⟨by simp only [later], after⟩

theorem sweeps_congr (agree : c.Agree other seen overlay overlay')
    (within : c.Within members seen) (limit : Nat) :
    sweeps { c with book := other } members limit overlay' = c.sweeps members limit overlay := by
  induction limit generalizing overlay overlay' with
  | zero => rfl
  | succ limit ih =>
    obtain ⟨outcomes, after⟩ := sweep_congr graph same agree within
    rw [sweeps_succ, sweeps_succ, outcomes, ih after]

end Other

end Recalc.PassContext
