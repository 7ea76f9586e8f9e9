import Recalc.Proofs.Session

/-!
# What cells hold throughout a session

A property of cell contents is preserved by the formulas of a workbook if it passes from what a
formula reads to what it computes. Such a property passes through the sweeps of a cycle and the steps
of a pass, so whatever a pass delivers has it (`Engine.holds_runPass`), and it lasts through a
session of passes and of results written back (`Session.holds_actAll`).
-/
namespace Recalc

/-- Whether the formulas of a workbook, with the functions of a library, preserve a property of what
cells hold. -/
structure Workbook.Preserves (b : Workbook) (lib : Library) (holds : Address → Value → Prop) :
    Prop where
  error : ∀ a e, holds a (.error e)
  computed : ∀ a f, b.formula? a = some f → ∀ value, (∀ c, holds c (value c)) → ∀ now seed v,
    f.tree.cellValue (b.viewWith value lib now seed) a = .ok v → holds a v

theorem Workbook.Preserves.of_sameFormulas {b other : Workbook} {lib : Library}
    {holds : Address → Value → Prop} (preserves : other.Preserves lib holds)
    (same : b.SameFormulas other) : b.Preserves lib holds where
  error := preserves.error
  computed a f formula value held now seed v gives := by
    rw [same.formula?] at formula
    rw [same.viewWith] at gives
    exact preserves.computed a f formula value held now seed v gives

/-! ### Passes -/

namespace PassContext

variable {c : PassContext} {holds : Address → Value → Prop} {overlay : SortedMap Address Value}

/-- Whether all cells have a property, as a pass sees them. -/
def Shows (c : PassContext) (overlay : SortedMap Address Value)
    (holds : Address → Value → Prop) : Prop :=
  ∀ a, holds a (c.value overlay a)

theorem Shows.insert (shows : c.Shows overlay holds) {a : Address} {v : Value} (here : holds a v) :
    c.Shows (overlay.insert a v) holds := by
  intro b
  rw [value_insert]
  split
  next same => exact same ▸ here
  next => exact shows b

theorem Shows.record (shows : c.Shows overlay holds)
    {outcomes : List (Address × Except Fault Value)}
    (held : ∀ x ∈ outcomes, holds x.1 (shown x.2)) : c.Shows (record overlay outcomes) holds := by
  induction outcomes generalizing overlay with
  | nil => exact shows
  | cons x rest ih =>
    have first := shows.insert (held x List.mem_cons_self)
    exact ih first fun y later => held y (List.mem_cons_of_mem _ later)

/-- Whether vertices are formula cells of the workbook. -/
def Formulas (c : PassContext) (members : List Vertex) : Prop :=
  ∀ y ∈ members, c.book.formula? y.address = some y.formula

theorem formulas_members (graph : c.graph = .ofWorkbook c.book c.library) (vs : List Nat) :
    c.Formulas (c.members vs) := by
  intro y member
  obtain ⟨v, -, found⟩ := mem_members.mp member
  rw [graph] at found
  exact (DependencyGraph.eq_vertexAt found).1

variable (preserves : c.book.Preserves c.library holds)
include preserves

theorem holds_evaluate (shows : c.Shows overlay holds) {y : Vertex}
    (formula : c.book.formula? y.address = some y.formula) :
    holds y.address (shown (c.evaluate overlay y)) := by
  cases outcome : c.evaluate overlay y with
  | error fault => exact preserves.error _ _
  | ok v => exact preserves.computed _ _ formula (c.value overlay) shows _ _ v outcome

/-- One sweep: every member sees cells that have the property, so its outcome has it too, and the
members after it see that. -/
theorem holds_sweep (shows : c.Shows overlay holds) {members : List Vertex}
    (formulas : c.Formulas members) :
    c.Shows (c.sweep overlay members).1 holds ∧
      ∀ x ∈ (c.sweep overlay members).2.1, holds x.1 (shown x.2) := by
  -- the fold carries the overlay and the outcomes so far, and both have the property
  suffices swept : ∀ s : SortedMap Address Value × List (Address × Except Fault Value) × Bool,
      c.Shows s.1 holds → (∀ x ∈ s.2.1, holds x.1 (shown x.2)) →
      let t := members.foldl (fun s v =>
        let outcome := c.evaluate s.1 v
        let old := c.value s.1 v.address
        let moved := c.request.options.tolerance < change old (shown outcome)
        (s.1.insert v.address (shown outcome), s.2.1 ++ [(v.address, outcome)],
          s.2.2 && !moved)) s
      c.Shows t.1 holds ∧ ∀ x ∈ t.2.1, holds x.1 (shown x.2) from
    swept (overlay, [], true) shows nofun
  induction members with
  | nil => exact fun s shows held => ⟨shows, held⟩
  | cons y rest ih =>
    intro s shows held
    have here := holds_evaluate preserves shows (formulas y List.mem_cons_self)
    refine ih (fun z later => formulas z (List.mem_cons_of_mem _ later)) _ (shows.insert here) ?_
    intro x listed
    rcases List.mem_append.mp listed with earlier | last
    · exact held x earlier
    · rw [List.mem_singleton.mp last]
      exact here

theorem holds_sweeps {members : List Vertex} (formulas : c.Formulas members) (limit : Nat)
    (shows : c.Shows overlay holds) :
    ∀ x ∈ c.sweeps members limit overlay, holds x.1 (shown x.2) := by
  induction limit generalizing overlay with
  | zero => exact nofun
  | succ limit ih =>
    obtain ⟨after, outcomes⟩ := holds_sweep preserves shows formulas
    -- the sweep that settles or is the last one gives the outcomes, the others give an overlay
    show ∀ x ∈ (if (c.sweep overlay members).2.2 || limit == 0 then (c.sweep overlay members).2.1
      else c.sweeps members limit (c.sweep overlay members).1), holds x.1 (shown x.2)
    split
    · exact outcomes
    · exact ih after

theorem holds_outcomes (graph : c.graph = .ofWorkbook c.book c.library)
    (shows : c.Shows overlay holds) (step : Step) :
    ∀ x ∈ c.outcomes overlay step, holds x.1 (shown x.2) := by
  cases step with
  | cells vs =>
    intro x listed
    obtain ⟨y, member, rfl⟩ := List.mem_map.mp listed
    exact holds_evaluate preserves shows (formulas_members graph vs y member)
  | cycle vs =>
    show ∀ x ∈ c.cycleOutcomes overlay (c.members vs), holds x.1 (shown x.2)
    unfold cycleOutcomes
    split
    · exact holds_sweeps preserves (formulas_members graph vs) _ shows
    · intro x listed
      obtain ⟨y, -, rfl⟩ := List.mem_map.mp listed
      exact preserves.error _ _

/-- All outcomes of a pass have the property if all cells have it at the start. -/
theorem holds_trace (graph : c.graph = .ofWorkbook c.book c.library) (steps : List Step)
    (shows : c.Shows overlay holds) : ∀ x ∈ c.trace overlay steps, holds x.1 (shown x.2) := by
  induction steps generalizing overlay with
  | nil => exact nofun
  | cons step rest ih =>
    have first := holds_outcomes preserves graph shows step
    intro x listed
    rcases List.mem_append.mp listed with here | later
    · exact first x here
    · exact ih (shows.record first) x later

end PassContext

namespace Engine

variable {e : Engine} {book : Workbook} {q : Request} {answers : List Checkpoint}
  {holds : Address → Value → Prop}

/-- At the start of a pass nothing covers the stored values. -/
private theorem shows_stored (stored : ∀ a, holds a (book.value a)) :
    (e.context book q).Shows ∅ holds := by
  intro a
  simpa [PassContext.value, context] using stored a

/-- Every value that a pass delivers, interrupted or not, has a property that the formulas preserve
and all stored values have; and it belongs to a formula cell. -/
theorem holds_runPass (preserves : book.Preserves e.library holds)
    (stored : ∀ a, holds a (book.value a)) :
    ∀ x ∈ (e.runPass book q answers).results.cells,
      (∃ f, book.formula? x.1 = some f) ∧ holds x.1 x.2 := by
  intro ⟨a, v⟩ listed
  obtain ⟨k, -, results, -⟩ := e.runPass_performs book q answers
  rw [results, (e.carries_take book q k).mem_cells] at listed
  have computed := (PassContext.trace_prefix ∅ _ k).mem listed
  refine ⟨exists_formula (q := q) (e := e) (List.mem_map_of_mem computed), ?_⟩
  exact PassContext.holds_trace preserves rfl _ (shows_stored stored) _ computed

/-- What the cells hold for a formula that is evaluated after the first `k` steps of a pass. -/
def seenAfter (e : Engine) (book : Workbook) (q : Request) (k : Nat) : Address → Value :=
  let c := e.context book q
  c.value (c.performAll ((e.steps book q).take k)).overlay

theorem holds_seenAfter (preserves : book.Preserves e.library holds)
    (stored : ∀ a, holds a (book.value a)) (q : Request) (k : Nat) (a : Address) :
    holds a (e.seenAfter book q k a) := by
  have shows := shows_stored stored (e := e) (q := q)
  rw [seenAfter, (e.carries_take book q k).overlay]
  exact shows.record (PassContext.holds_trace preserves rfl _ shows) a

end Engine

/-! ### Sessions -/

namespace Session

/-- Whether an action is a pass with the functions of a library, or writes results back. -/
def Action.Recalculates (lib : Library) : Action → Prop
  | .edit _ => False
  | .calculate e _ _ => e.library = lib
  | .apply _ => True

/-- A session that keeps the formulas of a workbook, in which all cells and all delivered values have
a property. -/
structure Holds (book : Workbook) (holds : Address → Value → Prop) (s : Session) : Prop where
  same : s.book.SameFormulas book
  once : ∀ r ∈ s.delivered, (r.cells.map Prod.fst).Nodup
  stored : ∀ a, holds a (s.book.value a)
  delivered : ∀ r ∈ s.delivered, ∀ x ∈ r.cells, (∃ f, book.formula? x.1 = some f) ∧ holds x.1 x.2

variable {book : Workbook} {lib : Library} {holds : Address → Value → Prop} {s : Session}

/-- Results for formula cells are written to sheets that are there. -/
private theorem sameFormulas_applyResults {r : Results} (same : s.book.SameFormulas book)
    (formulas : ∀ x ∈ r.cells, ∃ f, book.formula? x.1 = some f) :
    (s.book.applyResults r).SameFormulas book := by
  refine (Workbook.applyResults_sameFormulas fun x listed => ?_).trans same
  obtain ⟨f, formula⟩ := formulas x listed
  rw [← same.formula?, Workbook.formula?] at formula
  refine s.book.formulas_onSheet x.1 (Std.ExtTreeMap.mem_iff_isSome_getElem?.mpr ?_)
  rw [formula]
  rfl

theorem Holds.act (held : s.Holds book holds) (preserves : book.Preserves lib holds)
    {action : Action} (recalculates : action.Recalculates lib) : (s.act action).Holds book holds := by
  cases action with
  | edit edit => exact recalculates.elim
  | calculate e q answers =>
    refine ⟨held.same, nodup_act held.once _, held.stored, fun r listed => ?_⟩
    rcases List.mem_append.mp listed with earlier | last
    · exact held.delivered r earlier
    · rw [List.mem_singleton.mp last]
      intro x inside
      obtain rfl : e.library = lib := recalculates
      have values := e.holds_runPass (preserves.of_sameFormulas held.same) held.stored x inside
      rwa [held.same.formula?] at values
  | apply k =>
    cases found : s.delivered[k]? with
    | none => simpa [Session.act, found] using held
    | some r =>
      have given := List.mem_of_getElem? found
      have values := held.delivered r given
      have same := sameFormulas_applyResults held.same fun x inside => (values x inside).1
      have acted : s.act (.apply k) = ⟨s.book.applyResults r, s.delivered⟩ := by
        simp only [Session.act, found, Option.elim_some]
      rw [acted]
      refine ⟨same, held.once, fun a => ?_, held.delivered⟩
      -- a cell holds what the result has for it, and otherwise what it held before
      rw [Workbook.value_applyResults_eq (held.once r given)]
      cases here : r.value? a with
      | none => exact held.stored a
      | some v =>
        exact (values (a, v) ((Results.value?_eq_some_iff (held.once r given)).mp here)).2

/-- A property that the formulas preserve and all stored values have lasts through all passes and
write-backs. -/
theorem holds_actAll (preserves : book.Preserves lib holds) (stored : ∀ a, holds a (book.value a))
    {actions : List Action} (recalculates : ∀ action ∈ actions, action.Recalculates lib) :
    ((opened book).actAll actions).Holds book holds := by
  have start : (opened book).Holds book holds := ⟨.refl book, nofun, stored, nofun⟩
  generalize opened book = s at start ⊢
  induction actions generalizing s with
  | nil => exact start
  | cons action rest ih =>
    refine ih (fun next later => recalculates next (List.mem_cons_of_mem _ later)) _ ?_
    exact start.act preserves (recalculates action List.mem_cons_self)

end Session

end Recalc
