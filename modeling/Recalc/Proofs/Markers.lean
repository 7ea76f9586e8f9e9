import Recalc.Proofs.Distance
import Recalc.Proofs.Sweeping

/-!
# Sweeps that start from markers

What the markers of a circular reference do to the sweeps of a cycle depends on the formulas of its
members. Formulas that hand a marker on give markers in every sweep (`sweeps_of_contagious`). From
formulas that do not tell a marker from a blank come the same outcomes as from blank cells
(`sweeps_of_indifferent`).
-/
namespace Recalc.PassContext

variable {c : PassContext} {overlay overlay' : SortedMap Address Value} {all members : List Vertex}

/-! ### Formulas that hand a marker on -/

/-- Whether every member gives the marker where all members hold it, whatever other cells hold. -/
def Contagious (c : PassContext) (members : List Vertex) : Prop :=
  ∀ y ∈ members, ∀ value : Address → Value, (∀ z ∈ members, value z.address = circular) →
    y.formula.tree.cellValue (c.book.viewWith value c.library c.config.now c.config.seed) y.address =
      .ok circular

/-- A sweep over markers gives markers and leaves markers. -/
private theorem sweep_of_contagious (contagious : c.Contagious all)
    (held : ∀ z ∈ all, c.value overlay z.address = circular) (inside : ∀ y ∈ members, y ∈ all) :
    (c.sweep overlay members).2.1 = members.map (fun y => (y.address, .ok circular)) ∧
      ∀ z ∈ all, c.value (c.sweep overlay members).1 z.address = circular := by
  induction members generalizing overlay with
  | nil => exact ⟨rfl, held⟩
  | cons y rest ih =>
    obtain ⟨here, others⟩ := List.forall_mem_cons.mp inside
    have marker : c.evaluate overlay y = .ok circular := contagious y here (c.value overlay) held
    have kept : ∀ z ∈ all, c.value (overlay.insert y.address circular) z.address = circular := by
      intro z listed
      rw [value_insert]
      split
      · rfl
      · exact held z listed
    obtain ⟨outcomes, after⟩ := ih kept others
    rw [sweep_cons, marker]
    exact ⟨congrArg ((y.address, .ok circular) :: ·) outcomes, after⟩

theorem sweeps_of_contagious (contagious : c.Contagious all)
    (held : ∀ z ∈ all, c.value overlay z.address = circular) {limit : Nat} (pos : 0 < limit) :
    c.sweeps all limit overlay = all.map fun y => (y.address, .ok circular) := by
  obtain ⟨outcomes, after⟩ := sweep_of_contagious contagious held fun y member => member
  have fixed : c.value (c.sweep overlay all).1 = c.value overlay := by
    funext a
    by_cases member : a ∈ all.map Vertex.address
    · obtain ⟨y, listed, rfl⟩ := List.mem_map.mp member
      rw [after y listed, held y listed]
    · exact value_sweep_of_notMem member
  rw [sweeps_of_fixed fixed pos, outcomes]

/-! ### Changes from a marker -/

theorem eq_circular_of_same {v : Value} (same : circular.same v = true) : v = circular := by
  cases v with
  | error e => exact congrArg Value.error (eq_of_beq same).symm
  | _ => cases same

/-- Unless every change is within the tolerance, a marker settles only as a marker. -/
theorem eq_circular_of_still {t : Float} {old new : Value} (finite : t < change old new) {v : Value}
    (still : ¬t < change circular v) : v = circular := by
  refine eq_circular_of_same (Bool.of_not_eq_false fun differs => still ?_)
  have far : change circular v = 1.0 / 0.0 := if_neg (by simp [differs])
  rw [far]
  exact Distance.lt_infinity_of_lt finite

/-- A sweep that does not settle has seen a change. -/
theorem exists_change (moving : (c.sweep overlay members).2.2 = false) :
    ∃ old new, c.request.options.tolerance < change old new := by
  induction members generalizing overlay with
  | nil => cases moving
  | cons y rest ih =>
    rw [sweep_cons] at moving
    rcases Bool.and_eq_false_iff.mp moving with here | later
    · exact ⟨_, _, of_decide_eq_true (by simpa [moves] using here)⟩
    · exact ih later

/-- If not every change is within the tolerance, no change from a marker is. -/
theorem noticed_of_marked (marked : ∀ y ∈ all, c.value overlay y.address = circular)
    {old new : Value} (finite : c.request.options.tolerance < change old new) :
    ∀ x ∈ (c.sweep overlay all).2.1,
      ¬c.request.options.tolerance < change (c.value overlay x.1) (shown x.2) →
        shown x.2 = c.value overlay x.1 := by
  intro x listed still
  have member : x.1 ∈ all.map Vertex.address := by
    rw [← addresses_sweep (c := c) overlay]
    exact List.mem_map_of_mem listed
  obtain ⟨y, inside, here⟩ := List.mem_map.mp member
  rw [← here, marked y inside] at still ⊢
  exact eq_circular_of_still finite still

/-! ### Formulas that do not tell a marker from a blank -/

/-- Whether the formulas of the members give the same if members that are blank hold the marker. -/
def Indifferent (c : PassContext) (members : List Vertex) : Prop :=
  ∀ y ∈ members, ∀ value value' : Address → Value,
    (∀ a, value' a = value a ∨
      a ∈ members.map Vertex.address ∧ value a = .blank ∧ value' a = circular) →
    y.formula.tree.cellValue (c.book.viewWith value' c.library c.config.now c.config.seed)
        y.address =
      y.formula.tree.cellValue (c.book.viewWith value c.library c.config.now c.config.seed) y.address

/-- Whether the first member that is swept changes by more than the tolerance where no member has a
value, whatever other cells hold. -/
def Stirs (c : PassContext) (members : List Vertex) : Prop :=
  ∃ y rest, members = y :: rest ∧
    ∀ value : Address → Value, (∀ z ∈ members, value z.address = .blank) →
      c.request.options.tolerance < change .blank (shown (y.formula.tree.cellValue
        (c.book.viewWith value c.library c.config.now c.config.seed) y.address))

theorem moving_of_stirs (stirs : c.Stirs all)
    (blank : ∀ y ∈ all, c.value overlay y.address = .blank) :
    (c.sweep overlay all).2.2 = false := by
  obtain ⟨y, rest, rfl, changes⟩ := stirs
  have moved : c.moves overlay y = true := by
    rw [moves, blank y List.mem_cons_self]
    exact decide_eq_true (changes (c.value overlay) blank)
  rw [sweep_cons, moved]
  rfl

section Other

variable {other : Workbook} {seen : Address → Prop} {limit : Nat}

/-- Whether passes over two workbooks see the same in some cells, except for members that are blank
in one and hold the marker in the other. -/
def AgreeButMarked (c : PassContext) (other : Workbook) (members : List Vertex)
    (seen : Address → Prop) (overlay overlay' : SortedMap Address Value) : Prop :=
  ∀ a, seen a → value { c with book := other } overlay' a = c.value overlay a ∨
    a ∈ members.map Vertex.address ∧ c.value overlay a = .blank ∧
      value { c with book := other } overlay' a = circular

theorem AgreeButMarked.insert (agree : c.AgreeButMarked other all seen overlay overlay')
    (a : Address) (v : Value) :
    c.AgreeButMarked other all seen (overlay.insert a v) (overlay'.insert a v) := by
  intro b inside
  simp only [value_insert]
  split
  · exact .inl rfl
  · exact agree b inside

theorem Agree.butMarked (agree : c.Agree other seen overlay overlay')
    (blank : ∀ y ∈ all, c.value overlay y.address = .blank)
    (marked : ∀ y ∈ all, value { c with book := other } overlay' y.address = circular) :
    c.AgreeButMarked other all (fun a => seen a ∨ a ∈ all.map Vertex.address) overlay overlay' := by
  intro a inside
  by_cases member : a ∈ all.map Vertex.address
  · obtain ⟨y, listed, rfl⟩ := List.mem_map.mp member
    exact .inr ⟨member, blank y listed, marked y listed⟩
  · exact .inl (agree a (inside.resolve_right member))

variable (graph : c.graph = .ofWorkbook c.book c.library) (same : other.SameFormulas c.book)
include graph same

theorem evaluate_of_indifferent (indifferent : c.Indifferent all)
    (agree : c.AgreeButMarked other all seen overlay overlay') {y : Vertex} (member : y ∈ all)
    {v : Nat} (found : c.graph.vertex? v = some y) (reads : ∀ a, y.reads a = true → seen a) :
    evaluate { c with book := other } overlay' y = c.evaluate overlay y := by
  classical
  -- what the formula does not read may be taken to be the same in both workbooks
  let mixed (a : Address) : Value :=
    if seen a then value { c with book := other } overlay' a else c.value overlay a
  have read : c.outcome (value { c with book := other } overlay') (.cells []) y =
      c.outcome mixed (.cells []) y :=
    outcome_congr graph found (.cells []) fun a inside => (if_pos (reads a inside)).symm
  rw [evaluate_other same, read]
  refine indifferent y member (c.value overlay) mixed fun a => ?_
  by_cases inside : seen a
  · simpa only [mixed, if_pos inside] using agree a inside
  · exact .inl (if_neg inside)

/-- The first sweep from markers comes to what the first sweep from blank cells comes to. -/
theorem sweep_of_indifferent (indifferent : c.Indifferent all)
    (agree : c.AgreeButMarked other all seen overlay overlay') (within : c.Within members seen)
    (inside : ∀ y ∈ members, y ∈ all) :
    (sweep { c with book := other } overlay' members).2.1 = (c.sweep overlay members).2.1 := by
  induction members generalizing overlay overlay' with
  | nil => rfl
  | cons y rest ih =>
    obtain ⟨⟨⟨v, found⟩, -, reads⟩, others⟩ := List.forall_mem_cons.mp within
    obtain ⟨member, later⟩ := List.forall_mem_cons.mp inside
    have outcome := evaluate_of_indifferent graph same indifferent agree member found reads
    rw [sweep_cons, sweep_cons, outcome]
    exact congrArg (_ :: ·) (ih (agree.insert _ _) others later)

/-- After it both see the same. -/
theorem agree_of_indifferent (indifferent : c.Indifferent all)
    (agree : c.AgreeButMarked other all seen overlay overlay') (within : c.Within all seen) :
    c.Agree other seen (c.sweep overlay all).1 (sweep { c with book := other } overlay' all).1 := by
  intro a inside
  by_cases member : a ∈ all.map Vertex.address
  · have outcomes := sweep_of_indifferent graph same indifferent agree within fun _ listed => listed
    rw [← addresses_sweep (c := c) overlay] at member
    obtain ⟨v, recorded⟩ := exists_record member
    simp only [overlay_sweep, value, outcomes, recorded, Option.getD_some]
  · rw [value_sweep_of_notMem member, value_sweep_of_notMem member]
    exact (agree a inside).resolve_right fun marked => member marked.1

/-- Sweeps from markers end with what sweeps from blank cells end with, unless these end with a
first sweep that the next one would not repeat. -/
theorem sweeps_of_indifferent (indifferent : c.Indifferent all)
    (blank : ∀ y ∈ all, c.value overlay y.address = .blank)
    (marked : ∀ y ∈ all, value { c with book := other } overlay' y.address = circular)
    (agree : c.Agree other seen overlay overlay')
    (within : c.Within all fun a => seen a ∨ a ∈ all.map Vertex.address)
    (repeats : 1 < limit → (c.sweep overlay all).2.2 = true →
      (c.sweep (c.sweep overlay all).1 all).2.1 = (c.sweep overlay all).2.1) :
    sweeps { c with book := other } all limit overlay' = c.sweeps all limit overlay := by
  have apart := agree.butMarked blank marked
  have outcomes := sweep_of_indifferent graph same indifferent apart within fun _ listed => listed
  have after := sweeps_congr graph same
    (agree_of_indifferent graph same indifferent apart within) within
  rcases limit with _ | _ | limit
  · rfl
  · rw [sweeps_succ, sweeps_succ, outcomes]
    simp
  · have pos : 0 < limit + 1 := Nat.succ_pos limit
    rw [sweeps_succ_of_pos pos, sweeps_succ_of_pos pos, outcomes, after]
    cases settled : (c.sweep overlay all).2.2 <;>
      cases settled' : (sweep { c with book := other } overlay' all).2.2
    · rfl
    · -- markers have settled, so all members have become markers, and remain so
      obtain ⟨_, _, finite⟩ := exists_change settled
      have noticed := noticed_of_marked (c := { c with book := other }) marked finite
      have fixed := (sweep_of_settled settled' noticed).1
      have repeated := sweep_of_value fixed all
      simp only [Bool.false_eq_true, if_false, if_true]
      rw [← after, sweeps_of_fixed repeated.2 pos, repeated.1, outcomes]
    · -- the first sweep is repeated, so that no later one brings anything new
      have again := repeats (by omega) settled
      simp only [Bool.false_eq_true, if_false, if_true]
      rw [sweeps_of_fixed (value_sweep_of_repeated again) pos, again]
    · rfl

end Other

end Recalc.PassContext
