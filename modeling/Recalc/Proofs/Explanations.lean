import Recalc.Proofs.Blindness

/-!
# Formulas that see no explanations

Two trees that differ in nothing but explanations of errors, over views that differ in nothing else,
end in the same fault or compute values that differ in nothing else (`Formula.value_alike`).
-/
namespace Recalc

/-! ### Trees and views without explanations -/

namespace Formula

mutual

/-- The tree with all its literals laid bare. -/
def bare : Formula → Formula
  | literal v => literal v.bare
  | reference r => reference r
  | unary op x => unary op x.bare
  | binary op l r => binary op l.bare r.bare
  | call f args => call f (bareList args)
  | array rows => array (bareRows rows)

def bareList : List Formula → List Formula
  | [] => []
  | x :: rest => x.bare :: bareList rest

def bareRows : List (List Formula) → List (List Formula)
  | [] => []
  | row :: rest => bareList row :: bareRows rest

end

end Formula

/-- The view with all values laid bare. -/
def View.bare (view : View) : View :=
  { view with value := fun a => (view.value a).bare }

/-! ### Computations -/

/-- Whether two computations end in the same fault or in results of which some part is the same, and
draw as many samples. -/
def Evaluation.Agree {α β : Type} (part : α → β) (run other : Evaluation α) : Prop :=
  ∀ drawn, (run drawn).map (Prod.map part id) = (other drawn).map (Prod.map part id)

namespace Evaluation.Agree

variable {α β γ δ : Type} {part : α → β} {part' : γ → δ}

theorem pure {a b : α} (same : part a = part b) : Agree part (Pure.pure a) (Pure.pure b) := by
  intro drawn
  exact congrArg (fun c => Except.ok (c, drawn)) same

theorem throw (fault : Fault) : Agree part (throw fault) (throw fault) :=
  fun _ => rfl

theorem lift {x y : Except Fault α} (same : x.map part = y.map part) :
    Agree part (x : Evaluation α) (y : Evaluation α) := by
  intro drawn
  have paired : ∀ z : Except Fault α, ((z : Evaluation α) drawn).map (Prod.map part id) =
      (z.map part).map fun b => (b, drawn) := fun z => by cases z <;> rfl
  rw [paired, paired, same]

theorem modifyGet {f g : Nat → α × Nat} (same : ∀ drawn, part (f drawn).1 = part (g drawn).1)
    (draws : ∀ drawn, (f drawn).2 = (g drawn).2) : Agree part (modifyGet f) (modifyGet g) := by
  intro drawn
  exact congrArg Except.ok (Prod.ext (same drawn) (draws drawn))

/-- What comes next agrees if it does so after results that agree. -/
theorem bind {run other : Evaluation α} {next next' : α → Evaluation γ} (first : Agree part run other)
    (later : ∀ a b, part a = part b → Agree part' (next a) (next' b)) :
    Agree part' (run >>= next) (other >>= next') := by
  intro drawn
  -- both fault, or both go on with as many samples drawn
  have joined : ∀ (r : Evaluation α) (n : α → Evaluation γ),
      (r >>= n) drawn = (r drawn).bind fun (a, after) => n a after := fun _ _ => rfl
  have same := first drawn
  rw [joined, joined]
  cases ran : run drawn with
  | error fault =>
    cases ran' : other drawn with
    | error fault' =>
      obtain rfl : fault = fault' := by simpa [ran, ran', Except.map] using same
      rfl
    | ok outcome' => simp [ran, ran', Except.map] at same
  | ok outcome =>
    cases ran' : other drawn with
    | error fault' => simp [ran, ran', Except.map] at same
    | ok outcome' =>
      simp only [ran, ran', Except.map, Except.ok.injEq, Prod.ext_iff, Prod.map_fst, Prod.map_snd,
        id_eq] at same
      show (next outcome.1 outcome.2).map _ = (next' outcome'.1 outcome'.2).map _
      rw [same.2]
      exact later outcome.1 outcome'.1 same.1 outcome'.2

end Evaluation.Agree

/-! ### References and array literals -/

namespace Reference

variable {view : View} {home : Address}

theorem values_bare (g : Region) (value : Address → Value) :
    g.values (fun a => (value a).bare) = (g.values value).map Value.bare := by
  rw [Region.values, Region.values, Block.map_ofFn]

private theorem direct?_bare (ref : Reference) :
    (ref.direct? view.bare home).map (Except.map Value.bare) =
      (ref.direct? view home).map (Except.map Value.bare) := by
  cases ref with
  | name n => rfl
  | cell place row col =>
    have located : place.locate view.bare home = place.locate view home := rfl
    simp only [direct?, located]
    cases place.locate view home with
    | error e => rfl
    | ok location => exact congrArg (some ∘ Except.ok) (Value.bare_bare _)
  | range place rectangle =>
    have located : place.locate view.bare home = place.locate view home := rfl
    simp only [direct?, located]
    cases rectangle.check with
    | error e => rfl
    | ok r =>
      cases place.locate view home with
      | error e => rfl
      | ok location =>
        have values := values_bare ⟨location.1, location.2, r⟩ view.value
        refine congrArg (some ∘ Except.ok) ?_
        exact (congrArg (Value.bare ∘ Value.array) values).trans (by simp [Block.map_map])

/-- A reference reads the same, up to explanations. -/
theorem map_bare_evaluate (ref : Reference) :
    (ref.evaluate view.bare home).map Value.bare = (ref.evaluate view home).map Value.bare := by
  have direct : ∀ (t : Reference) (other : Value),
      ((t.direct? view.bare home).getD (.ok other)).map Value.bare =
        ((t.direct? view home).getD (.ok other)).map Value.bare := by
    intro t other
    have same : (t.direct? view.bare home).map (Except.map Value.bare) =
        (t.direct? view home).map (Except.map Value.bare) := direct?_bare t
    cases here : t.direct? view.bare home <;> cases there : t.direct? view home <;>
      simp_all
  cases ref with
  | cell place row col => exact direct (.cell place row col) .blank
  | range place rectangle => exact direct (.range place rectangle) .blank
  | name n =>
    have names : view.bare.definedName? = view.definedName? := rfl
    simp only [evaluate, names]
    cases view.definedName? home.unit n with
    | none => rfl
    | some t => exact direct t _

end Reference

namespace Block

variable {α β : Type}

theorem firstRagged_map (f : α → β) (cols i : Nat) (rows : List (List α)) :
    firstRagged cols i (rows.map (List.map f)) = firstRagged cols i rows := by
  induction rows generalizing i with
  | nil => rfl
  | cons row rest ih => simp only [List.map_cons, firstRagged, List.length_map, ih]

theorem ofRows_map (f : α → β) (rows : List (List α)) :
    ofRows (rows.map (List.map f)) = (ofRows rows).map (Block.map f) := by
  have width : ((rows.map (List.map f)).headD []).length = (rows.headD []).length := by
    cases rows <;> simp
  simp only [ofRows, width, firstRagged_map]
  split
  · rfl
  · split
    · rfl
    · simp [Except.map, Block.map, List.map_flatten]

end Block

namespace Formula

theorem bare_arrayElement (v : Value) : (arrayElement v.bare).bare = (arrayElement v).bare := by
  simp only [arrayElement, Value.unwrapSingle_bare]
  cases v.unwrapSingle <;> simp

theorem map_bare_arrayOfRows (rows : List (List Value)) :
    (arrayOfRows (rows.map (List.map Value.bare))).map Value.bare =
      (arrayOfRows rows).map Value.bare := by
  rw [arrayOfRows, Block.ofRows_map, arrayOfRows]
  cases Block.ofRows rows with
  | error e => rfl
  | ok b => simp [Except.map, Block.map_map]

end Formula

/-! ### Evaluation -/

/-- What a function makes of the same image is the same if it respects images. -/
private theorem eq_of_image {α β γ : Type} {part : α → α} {f : α → β} {g : β → γ}
    (respects : ∀ a, g (f (part a)) = g (f a)) {a b : α} (same : part a = part b) :
    g (f a) = g (f b) := by
  rw [← respects, same, respects]

namespace Formula

section Evaluation

open Evaluation

variable {view : View} {home : Address}

mutual

private theorem evaluate_agree (blind : ∀ name f, view.function? name = some f → f.Blind) :
    ∀ x : Formula, Agree Value.bare (x.bare.evaluate view.bare home) (x.evaluate view home)
  | literal v => Agree.pure v.bare_bare
  | reference r => Agree.lift r.map_bare_evaluate
  | unary op x => by
    rw [bare, evaluate, evaluate]
    exact (evaluate_agree blind x).bind fun a b same =>
      .pure (eq_of_image (Value.bare_mapElements op.bare_apply) same)
  | binary op l r => by
    rw [bare, evaluate, evaluate]
    refine (evaluate_agree blind l).bind fun a b left => (evaluate_agree blind r).bind fun c d right =>
      .pure ?_
    -- the operands are equal once they are laid bare, and an operator may as well be given those
    rw [← Value.bare_broadcast op.bare_apply, left, right, Value.bare_broadcast op.bare_apply]
  | call name args => by
    have functions : view.bare.function? = view.function? := rfl
    rw [bare, evaluate, evaluate, functions]
    cases found : view.function? name with
    | none => exact .throw _
    | some f =>
      -- samples are counted by the call alone, so the streams stay in step
      refine (evaluateList_agree blind args).bind fun vs ws same => .modifyGet ?_ ?_
      · intro drawn
        have here := (blind name f found).call ⟨view.now, RandomStream.sample view.seed home⟩ drawn
        exact (here vs).1.symm.trans (same ▸ (here ws).1)
      · intro drawn
        have here := (blind name f found).call ⟨view.now, RandomStream.sample view.seed home⟩ drawn
        exact (here vs).2.symm.trans (same ▸ (here ws).2)
  | array rows => by
    rw [bare, evaluate, evaluate]
    exact (evaluateRows_agree blind rows).bind fun vss wss same =>
      .lift (eq_of_image map_bare_arrayOfRows same)

private theorem evaluateList_agree (blind : ∀ name f, view.function? name = some f → f.Blind) :
    ∀ l : List Formula, Agree (List.map Value.bare) (evaluateList view.bare home (bareList l))
      (evaluateList view home l)
  | [] => Agree.pure rfl
  | x :: rest => by
    rw [bareList, evaluateList, evaluateList]
    refine (evaluate_agree blind x).bind fun v w first =>
      (evaluateList_agree blind rest).bind fun vs ws others => .pure ?_
    rw [List.map_cons, List.map_cons, first, others]

private theorem evaluateRows_agree (blind : ∀ name f, view.function? name = some f → f.Blind) :
    ∀ rows : List (List Formula), Agree (List.map (List.map Value.bare))
      (evaluateRows view.bare home (bareRows rows)) (evaluateRows view home rows)
  | [] => Agree.pure rfl
  | row :: rest => by
    rw [bareRows, evaluateRows, evaluateRows]
    refine (evaluateList_agree blind row).bind fun vs ws first =>
      (evaluateRows_agree blind rest).bind fun vss wss others => .pure ?_
    rw [List.map_cons, List.map_cons, others]
    refine congrArg (· :: _) (eq_of_image (f := List.map arrayElement) (fun us => ?_) first)
    simp [bare_arrayElement]

end

/-- A tree without explanations has the same fault or value, up to explanations. -/
theorem map_bare_value (blind : ∀ name f, view.function? name = some f → f.Blind) (x : Formula) :
    (x.bare.value view.bare home).map Value.bare = (x.value view home).map Value.bare := by
  have first : ∀ outcome : Except Fault (Value × Nat), (outcome.map Prod.fst).map Value.bare =
      (outcome.map (Prod.map Value.bare id)).map Prod.fst := fun outcome => by cases outcome <;> rfl
  have ran : ∀ (y : Formula) (v : View), y.value v home = (y.evaluate v home 0).map Prod.fst :=
    fun _ _ => rfl
  rw [ran, ran, first, first, evaluate_agree blind x 0]

theorem map_bare_cellValue (blind : ∀ name f, view.function? name = some f → f.Blind) (x : Formula) :
    (x.bare.cellValue view.bare home).map Value.bare = (x.cellValue view home).map Value.bare := by
  have delivered : ∀ outcome : Except Fault Value, (outcome.map Value.toResult).map Value.bare =
      (outcome.map Value.bare).map Value.toResult := fun outcome => by
    cases outcome with
    | error fault => rfl
    | ok v => exact congrArg Except.ok v.toResult_bare.symm
  rw [cellValue, cellValue, delivered, delivered, map_bare_value blind]

end Evaluation

section Alike

variable {view other : View} {home : Address} {x y : Formula}

private theorem blind_of_alike (blind : ∀ name f, view.function? name = some f → f.Blind)
    (views : view.bare = other.bare) : ∀ name f, other.function? name = some f → f.Blind := by
  intro name f found
  have same : view.bare.function? name = other.bare.function? name := by rw [views]
  exact blind name f (same.trans found)

/-- Trees and views that differ in explanations have the same fault, or values that do. -/
theorem value_alike (blind : ∀ name f, view.function? name = some f → f.Blind)
    (views : view.bare = other.bare) (trees : x.bare = y.bare) :
    (x.value view home).map Value.bare = (y.value other home).map Value.bare := by
  rw [← map_bare_value blind x, trees, views, map_bare_value (blind_of_alike blind views) y]

theorem cellValue_alike (blind : ∀ name f, view.function? name = some f → f.Blind)
    (views : view.bare = other.bare) (trees : x.bare = y.bare) :
    (x.cellValue view home).map Value.bare = (y.cellValue other home).map Value.bare := by
  rw [← map_bare_cellValue blind x, trees, views, map_bare_cellValue (blind_of_alike blind views) y]

end Alike

end Formula

end Recalc
