import Recalc.Proofs.Distance
import Recalc.Proofs.Succession
import Recalc.Proofs.Sweeping

/-!
# Cycles that settle

With a tolerance of zero, sweeps go on as long as any member changes. Three changes measure zero and
are overlooked all the same (`Value.Unnoticed`): a blank becomes a zero, a NaN becomes a number, and
a zero changes its sign. Where the sweep in which a cycle settles overlooks none, the delivered values
are a fixed point: every member's formula gives over them what was delivered for it
(`Engine.settled_cycle_fixed`).
-/
namespace Recalc

/-! ### Changes that measure zero -/

namespace Value

mutual

/-- The value without the signs of its zeros, also of those inside blocks. -/
def unsigned : Value → Value
  | number x => number (if x == 0 then 0 else x)
  | array ⟨rows, cols, ⟨cells⟩⟩ => array ⟨rows, cols, ⟨unsignedEach cells⟩⟩
  | v => v

def unsignedEach : List Value → List Value
  | [] => []
  | v :: rest => v.unsigned :: unsignedEach rest

end

theorem unsigned_number_of_zeros {x y : Float} (zero : (x == 0) = true) (zero' : (y == 0) = true) :
    (number x).unsigned = (number y).unsigned := by
  rw [unsigned, unsigned, if_pos zero, if_pos zero']

theorem unsigned_number_of_beq {x y : Float} (equal : (x == y) = true) :
    (number x).unsigned = (number y).unsigned := by
  rcases Distance.eq_or_zeros_of_beq equal with rfl | ⟨zero, zero'⟩
  · rfl
  · exact unsigned_number_of_zeros zero zero'

mutual

/-- Values that count as equal differ at most in the signs of zeros. -/
theorem unsigned_eq_of_same : ∀ {v w : Value}, v.same w = true → v.unsigned = w.unsigned
  | number x, w, same => by
    cases w with
    | number y => exact unsigned_number_of_beq same
    | _ => cases same
  | array ⟨rows, cols, ⟨cells⟩⟩, w, same => by
    cases w with
    | array b =>
      obtain ⟨rows', cols', ⟨cells'⟩⟩ := b
      simp only [Value.same, Bool.and_eq_true, beq_iff_eq] at same
      obtain ⟨⟨rfl, rfl⟩, each⟩ := same
      simp only [unsigned, unsignedEach_eq_of_same each]
    | _ => cases same
  | text s, w, same => by
    cases w with
    | text t => rw [eq_of_beq same]
    | _ => cases same
  | boolean a, w, same => by
    cases w with
    | boolean b => rw [eq_of_beq same]
    | _ => cases same
  | error e, w, same => by
    cases w with
    | error f => rw [eq_of_beq same]
    | _ => cases same
  | blank, w, same => by
    cases w with
    | blank => rfl
    | _ => cases same

theorem unsignedEach_eq_of_same : ∀ {vs ws : List Value}, sameEach vs ws = true →
    unsignedEach vs = unsignedEach ws
  | [], [], _ => rfl
  | [], _ :: _, same => by cases same
  | _ :: _, [], same => by cases same
  | v :: vs, w :: ws, same => by
    obtain ⟨first, rest⟩ := Bool.and_eq_true_iff.mp same
    rw [unsignedEach, unsignedEach, unsigned_eq_of_same first, unsignedEach_eq_of_same rest]

end

/-- The changes that measure zero although the value is another one. -/
inductive Unnoticed : Value → Value → Prop where
  | blank {y : Float} (zero : (y == 0) = true) : Unnoticed .blank (.number y)
  | nan {x y : Float} (nan : x.isNaN = true) : Unnoticed (.number x) (.number y)
  | signs {v w : Value} (ne : v ≠ w) (same : v.unsigned = w.unsigned) : Unnoticed v w

/-- A change that is not more than a tolerance of zero is none, unless it goes unnoticed. -/
theorem eq_of_still {t : Float} (zero : (t == 0) = true) {old new : Value}
    (number : ∀ y, new = .number y → y.isNaN = false) (still : ¬t < PassContext.change old new)
    (noticed : ¬Unnoticed old new) : new = old := by
  by_contra ne
  have signed : old.unsigned ≠ new.unsigned := fun same =>
    noticed (.signs (fun eq => ne eq.symm) same)
  -- two numbers, a blank and a number, and everything else are measured differently
  unfold PassContext.change at still
  split at still
  next x y =>
    cases nan : x.isNaN with
    | true => exact noticed (.nan nan)
    | false =>
      rcases Distance.eq_or_zeros_of_not_lt_distance zero still nan (number y rfl) with same | zeros
      · exact ne (congrArg Value.number same.symm)
      · exact signed (unsigned_number_of_zeros zeros.1 zeros.2)
  next y => exact noticed (.blank (Distance.beq_zero_of_not_lt_abs zero still (number y rfl)))
  next =>
    split at still
    next same => exact signed (unsigned_eq_of_same same)
    next => exact still (Distance.lt_infinity zero)

/-- No formula delivers a number that is not finite. -/
theorem isFinite_of_toResult {v : Value} {y : Float} (number : v.toResult = .number y) :
    y.isFinite = true := by
  unfold toResult at number
  cases inner : v.unwrapSingle with
  | number x =>
    rw [inner] at number
    simp only [finiteOrNum] at number
    split at number
    next finite => cases number; exact finite
    next => cases number
  | _ => rw [inner] at number; cases number

end Value

/-! ### Cycles -/

namespace PassContext

variable {c : PassContext} {overlay : SortedMap Address Value} {members : List Vertex} {n : Nat}

theorem isFinite_of_evaluate {y : Vertex} {x : Float}
    (number : shown (c.evaluate overlay y) = .number x) : x.isFinite = true := by
  unfold evaluate Formula.cellValue at number
  cases value : y.formula.tree.value
    (c.book.viewWith (c.value overlay) c.library c.config.now c.config.seed) y.address with
  | error fault => rw [value] at number; cases number
  | ok v =>
    rw [value] at number
    exact Value.isFinite_of_toResult number

/-- The outcomes of a sweep are those of members, over whatever these have seen. -/
theorem exists_of_mem_sweep {x : Address × Except Fault Value}
    (member : x ∈ (c.sweep overlay members).2.1) :
    ∃ y ∈ members, ∃ seen, x = (y.address, c.evaluate seen y) := by
  induction members generalizing overlay with
  | nil => cases member
  | cons y rest ih =>
    rw [sweep_cons] at member
    rcases List.mem_cons.mp member with rfl | later
    · exact ⟨y, List.mem_cons_self, overlay, rfl⟩
    · obtain ⟨z, listed, found⟩ := ih later
      exact ⟨z, List.mem_cons_of_mem y listed, found⟩

/-- Whether a member changes unnoticed in the sweep after the first `n`. -/
def Overlooks (c : PassContext) (members : List Vertex) (overlay : SortedMap Address Value)
    (n : Nat) : Prop :=
  ∃ x ∈ (c.sweep (c.swept members n overlay) members).2.1,
    (c.value (c.swept members n overlay) x.1).Unnoticed (shown x.2)

/-- Sweeps that stop without overlooking a change deliver what all members give over what is seen
then, and that is what is delivered. -/
theorem sweeps_fixed (exact : (c.request.options.tolerance == 0) = true) {limit : Nat}
    (stops : c.StopsAt members overlay n) (less : n < limit)
    (noticed : ¬c.Overlooks members overlay n) :
    let outcomes := c.sweeps members limit overlay
    outcomes = members.map (fun y => (y.address, c.evaluate (c.swept members n overlay) y)) ∧
      c.value (record overlay outcomes) = c.value (c.swept members n overlay) := by
  intro outcomes
  have last : outcomes = (c.sweep (c.swept members n overlay) members).2.1 :=
    sweeps_of_stopsAt stops less
  obtain ⟨values, fixed⟩ := sweep_of_settled stops.settled fun x member still => by
    obtain ⟨y, -, seen, rfl⟩ := exists_of_mem_sweep member
    refine Value.eq_of_still exact (fun z number => ?_) still fun overlooked =>
      noticed ⟨_, member, overlooked⟩
    exact Distance.isNaN_of_isFinite (isFinite_of_evaluate number)
  refine ⟨last.trans fixed, funext fun a => ?_⟩
  rw [← values]
  -- the last sweep has recorded the members, and no sweep any other cell
  by_cases member : a ∈ members.map Vertex.address
  · rw [← addresses_sweep (c := c) (c.swept members n overlay), ← last] at member
    obtain ⟨v, recorded⟩ := exists_record member
    rw [overlay_sweep, ← last, value, value, recorded, recorded]
  · have absent := member
    rw [← addresses_sweep (c := c) (c.swept members n overlay), ← last] at absent
    rw [value_sweep_of_notMem member, value_swept_of_notMem member, value, value,
      record_of_notMem absent]

end PassContext

/-! ### What a pass delivers -/

/-- What a cell holds by a result: its value, the marker of its fault, or else what is stored. -/
def Results.content (r : Results) (book : Workbook) (a : Address) : Value :=
  match r.value? a, r.faults.find? fun f => f.address == a with
  | some v, _ => v
  | none, some f => .complain (.unevaluable f.message)
  | none, none => book.value a

namespace Engine

variable {e : Engine} {book : Workbook} {q : Request} {answers : List Checkpoint} {k n : Nat}
  {vs : List Nat} {a : Address}

/-- Cells hold by the result of a pass what the pass has seen in them at its end. -/
theorem content_runPass (e : Engine) (book : Workbook) (q : Request) (answers : List Checkpoint)
    (a : Address) : (e.runPass book q answers).results.content book a =
      (e.context book q).value (e.overlay book q (e.performed book q answers)) a := by
  rw [Results.content]
  cases delivered : (e.runPass book q answers).results.value? a with
  | some v => exact (value_overlay (value?_runPass_iff.mp delivered)).symm
  | none =>
    cases found : (e.runPass book q answers).results.faults.find? fun f => f.address == a with
    | some f =>
      have here : f.address = a := by simpa using List.find?_some found
      obtain ⟨fault, computed, message⟩ := mem_faults_runPass_iff.mp (List.mem_of_find?_eq_some found)
      rw [← here, value_overlay computed]
      exact congrArg (Value.complain ∘ Complaint.unevaluable) message
    | none =>
      -- a cell that has been computed has a value or a fault
      refine (value_overlay_of_notMem fun early => ?_).symm
      obtain ⟨fault | v, computed⟩ := exists_mem_traceOf early
      · have reported := mem_faults_runPass_iff.mpr ⟨fault, computed, rfl⟩
        exact List.find?_eq_none.mp found _ reported (beq_self_eq_true _)
      · rw [value?_runPass_iff.mpr computed] at delivered
        cases delivered

/-- Over what a pass delivers, a member of a settled cycle gives what is delivered for it. -/
theorem cellValue_content (iterative : q.options.iterative = true)
    (exact : (q.options.tolerance == 0) = true) (found : (e.steps book q)[k]? = some (.cycle vs))
    (stops : (e.context book q).StopsAt ((e.context book q).members vs) (e.overlay book q k) n)
    (less : n < max q.options.maxIterations 1)
    (noticed : ¬(e.context book q).Overlooks ((e.context book q).members vs) (e.overlay book q k) n)
    {f : CellFormula} (formula : book.formula? a = some f)
    (member : a ∈ (e.plan book q).1.addresses vs) {x : Except Fault Value}
    (computed : (a, x) ∈ e.traceOf book q (e.performed book q answers)) :
    f.tree.cellValue (book.viewWith ((e.runPass book q answers).results.content book) e.library
      e.config.now e.config.seed) a = x := by
  obtain ⟨later, made⟩ := mem_outcomes_of_traceOf found member computed
  have bound : n < max (e.context book q).request.options.maxIterations 1 := less
  obtain ⟨outcomes, values⟩ :=
    PassContext.sweeps_fixed (c := e.context book q) exact stops bound noticed
  rw [← PassContext.outcomes_cycle (c := e.context book q) iterative] at outcomes values
  rw [← overlay_succ found] at values
  rw [outcomes] at made
  obtain ⟨y, listed, same⟩ := List.mem_map.mp made
  cases same
  obtain ⟨v, -, source⟩ := PassContext.mem_members.mp listed
  obtain rfl : y.formula = f :=
    Option.some.inj ((DependencyGraph.eq_vertexAt source).1.symm.trans formula)
  -- what the member reads is as the last sweep has seen it
  refine PassContext.outcome_congr (c := e.context book q) rfl source (.cells []) fun b reads => ?_
  rw [content_runPass, ← congrFun values b]
  exact seenAfter_of_reads found listed reads later

/-- With a tolerance of zero, the sweeps of a cycle that stop early deliver a fixed point: over the
delivered values, the formula of every member gives what is delivered for it, a value or a fault.
This takes that the last sweep overlooks no change. -/
theorem settled_cycle_fixed (iterative : q.options.iterative = true)
    (exact : (q.options.tolerance == 0) = true) (found : (e.steps book q)[k]? = some (.cycle vs))
    (stops : (e.context book q).StopsAt ((e.context book q).members vs) (e.overlay book q k) n)
    (less : n < max q.options.maxIterations 1)
    (noticed : ¬(e.context book q).Overlooks ((e.context book q).members vs) (e.overlay book q k) n)
    {f : CellFormula} (formula : book.formula? a = some f)
    (member : a ∈ (e.plan book q).1.addresses vs) (answers : List Checkpoint) :
    let r := (e.runPass book q answers).results
    let again := f.tree.cellValue (book.viewWith (r.content book) e.library e.config.now
      e.config.seed) a
    (∀ v, r.value? a = some v → again = .ok v) ∧
      ∀ m, ⟨a, m⟩ ∈ r.faults → ∃ fault, again = .error fault ∧ fault.message = m := by
  intro r again
  constructor
  · intro v delivered
    exact cellValue_content iterative exact found stops less noticed formula member
      (value?_runPass_iff.mp delivered)
  · intro m reported
    obtain ⟨fault, computed, message⟩ := mem_faults_runPass_iff.mp reported
    exact ⟨fault, cellValue_content iterative exact found stops less noticed formula member computed,
      message.symm⟩

/-- A workbook whose only cell is on if it is not negative: it turns on and stays so. -/
def latch : Workbook :=
  Workbook.empty.setFormula ⟨"u", "s", 0, 0⟩
    ⟨.binary .ge (.reference (.cell ⟨none, none⟩ 0 0)) (.literal (.number 0)), []⟩

theorem latch_settles :
    let e : Engine := ⟨⟨false, 1, 256, 100, true, 0, 0⟩, .empty⟩
    let here : Address := ⟨"u", "s", 0, 0⟩
    let q := Request.full.withOptions (.iterating 100 0)
    let r := (e.runPass latch q []).results
    let tree : Formula := .binary .ge (.reference (.cell ⟨none, none⟩ 0 0)) (.literal (.number 0))
    (r.value? here).isSome = true ∧ ∀ v, r.value? here = some v →
      tree.cellValue (latch.viewWith (r.content latch) .empty 0 0) here = .ok v := by
  intro e here q r tree
  let c := e.context latch q
  let before := c.swept (c.members [0]) 1 (e.overlay latch q 0)
  have moving : c.settles (c.members [0]) (e.overlay latch q 0) 0 = false := by decide +kernel
  have settled : c.settles (c.members [0]) (e.overlay latch q 0) 1 = true := by decide +kernel
  -- values cannot be compared by evaluation, so both sides are compared with the one expected
  have on : (c.sweep before (c.members [0])).2.1.all (fun x =>
      (Value.boolean true).same (c.value before x.1) &&
        (Value.boolean true).same (PassContext.shown x.2)) = true := by
    decide +kernel
  have boolean : ∀ v : Value, (Value.boolean true).same v = true → v = .boolean true := by
    intro v same
    cases v with
    | boolean b => rw [← eq_of_beq same]
    | _ => cases same
  refine ⟨by decide +kernel, (settled_cycle_fixed (n := 1) (f := ⟨tree, []⟩) rfl ?exact ?found
    ⟨fun m first => ?moving, settled⟩ ?less ?noticed ?formula ?member []).1⟩
  case exact => decide +kernel
  case found => decide +kernel
  case moving =>
    obtain rfl : m = 0 := Nat.lt_one_iff.mp first
    exact moving
  case less => decide
  case noticed =>
    rintro ⟨x, listed, overlooked⟩
    obtain ⟨old, new⟩ := Bool.and_eq_true_iff.mp (List.all_eq_true.mp on x listed)
    rw [boolean _ old, boolean _ new] at overlooked
    cases overlooked with
    | signs ne => exact ne rfl
  case formula => exact Std.ExtTreeMap.getElem?_insert_self
  case member => decide +kernel

/-- A workbook whose only cell tells whether it holds a blank: zero if so, and one otherwise. -/
def fickle : Workbook :=
  Workbook.empty.setFormula ⟨"u", "s", 0, 0⟩
    ⟨.binary .mul (.binary .ne (.reference (.cell ⟨none, none⟩ 0 0)) (.literal (.text "")))
      (.literal (.number 1)), []⟩

/-- The change from a blank to a zero measures zero, so the first sweep settles the cycle, and the
zero that is delivered is not what the formula gives over it. -/
theorem fickle_settles_at_once :
    let e : Engine := ⟨⟨false, 1, 256, 100, true, 0, 0⟩, .empty⟩
    let here : Address := ⟨"u", "s", 0, 0⟩
    let q := Request.full.withOptions (.iterating 100 0)
    let r := (e.runPass fickle q []).results
    let tree : Formula := .binary .mul
      (.binary .ne (.reference (.cell ⟨none, none⟩ 0 0)) (.literal (.text "")))
      (.literal (.number 1))
    (e.steps fickle q)[0]? = some (.cycle [0]) ∧
      (e.context fickle q).StopsAt ((e.context fickle q).members [0]) (e.overlay fickle q 0) 0 ∧
      ∃ v, r.value? here = some v ∧
        tree.cellValue (fickle.viewWith (r.content fickle) .empty 0 0) here ≠ .ok v := by
  intro e here q r tree
  have settled : (e.context fickle q).settles ((e.context fickle q).members [0])
      (e.overlay fickle q 0) 0 = true := by
    decide +kernel
  have delivered : (r.value? here).any (fun v => v.toNumber?.any (· == 0)) = true := by
    decide +kernel
  have again : ((tree.cellValue (fickle.viewWith (r.content fickle) .empty 0 0) here).toOption.any
      fun v => v.toNumber?.any (· == 0)) = false := by
    decide +kernel
  refine ⟨by decide +kernel, ⟨nofun, settled⟩, ?_⟩
  cases found : r.value? here with
  | none =>
    rw [found] at delivered
    cases delivered
  | some v =>
    rw [found, Option.any_some] at delivered
    refine ⟨v, rfl, fun same => ?_⟩
    rw [same, Except.toOption, Option.any_some, delivered] at again
    cases again

end Engine

end Recalc
