import Recalc.Evaluation

/-!
# Values without explanations

An error value carries an explanation that no computation looks at. `Value.bare` removes it, also
inside blocks, and everything that evaluation does with single values and blocks commutes with that,
up to explanations of its own: coercions, operators, element-wise application, and the checks of
arguments.
-/
namespace Recalc

/-! ### Blocks -/

namespace Block

variable {α β γ : Type}

theorem map_map (f : α → β) (g : β → γ) (b : Block α) : (b.map f).map g = b.map (g ∘ f) := by
  simp [map]

theorem only?_map (f : α → β) (b : Block α) : (b.map f).only? = b.only?.map f := by
  unfold only?
  by_cases single : b.isSingle = true
  · rw [if_pos single, if_pos (show (b.map f).isSingle = true from single)]
    exact Array.getElem?_map
  · rw [if_neg single, if_neg (show ¬(b.map f).isSingle = true from single)]
    rfl

theorem get?_map (f : α → β) (b : Block α) (row col : Nat) :
    (b.map f).get? row col = (b.get? row col).map f := by
  unfold get?
  by_cases inside : row < b.rows ∧ col < b.cols
  · rw [if_pos inside, if_pos (show row < (b.map f).rows ∧ col < (b.map f).cols from inside)]
    exact Array.getElem?_map
  · rw [if_neg inside, if_neg (show ¬(row < (b.map f).rows ∧ col < (b.map f).cols) from inside)]
    rfl

theorem toList_map (f : α → β) (b : Block α) : (b.map f).toList = b.toList.map f := by
  simp [map, toList]

theorem map_ofFn (f : α → β) (rows cols : Nat) (g : Nat → Nat → α) :
    (ofFn rows cols g).map f = ofFn rows cols fun row col => f (g row col) := by
  simp [ofFn, map, Array.map_ofFn, Function.comp_def]

end Block

/-! ### Values -/

@[simp]
theorem CellError.kind_plain (kind : ErrorKind) : (plain kind).kind = kind :=
  rfl

namespace Value

mutual

/-- The value without the explanations of its errors, also of those inside blocks. -/
def bare : Value → Value
  | error e => error (.plain e.kind)
  | array ⟨rows, cols, ⟨cells⟩⟩ => array ⟨rows, cols, ⟨bareEach cells⟩⟩
  | v => v

def bareEach : List Value → List Value
  | [] => []
  | v :: rest => v.bare :: bareEach rest

end

theorem bareEach_eq_map (vs : List Value) : bareEach vs = vs.map bare := by
  induction vs with
  | nil => rfl
  | cons v rest ih => rw [bareEach, ih, List.map_cons]

@[simp]
theorem bare_array (b : Block Value) : (array b).bare = array (b.map bare) := by
  obtain ⟨rows, cols, ⟨cells⟩⟩ := b
  simp [bare, Block.map, bareEach_eq_map]

@[simp]
theorem bare_error (e : CellError) : (error e).bare = error (.plain e.kind) :=
  rfl

@[simp]
theorem bare_number (x : Float) : (number x).bare = number x :=
  rfl

@[simp]
theorem bare_text (s : String) : (text s).bare = text s :=
  rfl

@[simp]
theorem bare_boolean (b : Bool) : (boolean b).bare = boolean b :=
  rfl

@[simp]
theorem bare_blank : blank.bare = blank :=
  rfl

mutual

@[simp]
theorem bare_bare : ∀ v : Value, v.bare.bare = v.bare
  | array ⟨rows, cols, ⟨cells⟩⟩ => by simp only [bare, bareEach_bareEach cells]
  | error _ => rfl
  | number _ => rfl
  | text _ => rfl
  | boolean _ => rfl
  | blank => rfl

theorem bareEach_bareEach : ∀ vs : List Value, bareEach (bareEach vs) = bareEach vs
  | [] => rfl
  | v :: rest => by simp only [bareEach, bare_bare v, bareEach_bareEach rest]

end

@[simp]
theorem bare_comp_bare : bare ∘ bare = bare :=
  funext bare_bare

variable (v : Value)

@[simp]
theorem isError_bare : v.bare.isError = v.isError := by
  cases v <;> simp [isError]

@[simp]
theorem isArray_bare : v.bare.isArray = v.isArray := by
  cases v <;> simp [isArray]

@[simp]
theorem isBoolean_bare : v.bare.isBoolean = v.isBoolean := by
  cases v <;> simp [isBoolean]

@[simp]
theorem isBlank_bare : v.bare.isBlank = v.isBlank := by
  cases v <;> simp [isBlank]

@[simp]
theorem isNumber_bare : v.bare.isNumber = v.isNumber := by
  cases v <;> simp [isNumber]

@[simp]
theorem isText_bare : v.bare.isText = v.isText := by
  cases v <;> simp [isText]

@[simp]
theorem errorKind?_bare : v.bare.errorKind? = v.errorKind? := by
  cases v <;> simp [errorKind?]

@[simp]
theorem shape_bare : v.bare.shape = v.shape := by
  cases v <;> simp [shape, Block.map]

theorem unwrapSingle_bare : v.bare.unwrapSingle = v.unwrapSingle.bare := by
  cases v with
  | array b =>
    simp only [bare_array, unwrapSingle, Block.only?_map]
    cases b.only? <;> simp
  | _ => rfl

theorem finiteOrNum_bare : v.bare.finiteOrNum = v.finiteOrNum.bare := by
  cases v with
  | number x =>
    simp only [bare_number, finiteOrNum]
    split <;> rfl
  | array b => simp [finiteOrNum]
  | _ => rfl

theorem toResult_bare : v.bare.toResult = v.toResult.bare := by
  simp only [toResult, unwrapSingle_bare]
  cases v.unwrapSingle with
  | array b =>
    simp only [bare_array, Block.map_map]
    exact congrArg (fun f => array (b.map f)) (funext finiteOrNum_bare)
  | _ => exact finiteOrNum_bare _

end Value

/-! ### Outcomes -/

namespace Outcome

variable {α β : Type}

/-- The outcome without the explanation of its error. -/
def plain (x : Outcome α) : Outcome α :=
  x.mapError fun e => .plain e.kind

/-- The outcome without any explanation. -/
def bare (x : Outcome Value) : Outcome Value :=
  x.plain.map Value.bare

@[simp]
theorem plain_ok (a : α) : plain (.ok a) = .ok a :=
  rfl

@[simp]
theorem plain_error (e : CellError) : plain (.error e : Outcome α) = .error (.plain e.kind) :=
  rfl

@[simp]
theorem bare_ok (v : Value) : bare (.ok v) = .ok v.bare :=
  rfl

@[simp]
theorem bare_error (e : CellError) : bare (.error e) = .error (.plain e.kind) :=
  rfl

theorem plain_bind (x : Outcome α) (f : α → Outcome β) :
    (x >>= f).plain = x.plain >>= fun a => (f a).plain := by
  cases x <;> rfl

theorem plain_map (x : Outcome α) (f : α → β) : plain (x.map f) = x.plain.map f := by
  cases x <;> rfl

theorem bare_bind (x : Outcome α) (f : α → Outcome Value) :
    (x >>= f).bare = x.plain >>= fun a => (f a).bare := by
  cases x <;> rfl

theorem plain_bind_congr {x y : Outcome α} (same : x.plain = y.plain) {f g : α → Outcome β}
    (later : ∀ a, (f a).plain = (g a).plain) : (x >>= f).plain = (y >>= g).plain := by
  rw [plain_bind, plain_bind, same]
  exact congrArg _ (funext later)

/-- What is made of two results, of which the first one is asked for first. -/
theorem plain_both_congr {γ : Type} {x y : Outcome α} {z w : Outcome β} (first : x.plain = y.plain)
    (second : z.plain = w.plain) (f : α → β → γ) :
    (do return f (← x) (← z) : Outcome γ).plain = (do return f (← y) (← w) : Outcome γ).plain :=
  plain_bind_congr first fun _ => plain_bind_congr second fun _ => rfl

/-- What is done with a result does not depend on how errors would be explained. -/
theorem bare_bind_congr {x y : Outcome α} (same : x.plain = y.plain) (f : α → Outcome Value) :
    (x >>= f).bare = (y >>= f).bare := by
  rw [bare_bind, bare_bind, same]

theorem bare_map_toResult (x : Outcome Value) :
    bare (x.map Value.toResult) = x.bare.map Value.toResult := by
  cases x with
  | error e => rfl
  | ok v => exact congrArg Except.ok v.toResult_bare.symm

theorem toValue_bare (x : Outcome Value) : x.bare.toValue = x.toValue.bare := by
  cases x <;> rfl

theorem toValue_congr {x y : Outcome Value} (same : x.bare = y.bare) :
    x.toValue.bare = y.toValue.bare := by
  rw [← toValue_bare, same, toValue_bare]

end Outcome

/-! ### Coercions -/

namespace Value

section Coercions

variable {v : Value}

/-- A value that is no error is taken for the same number without its explanations. -/
theorem asNumber_bare (proper : v.isError = false) : v.bare.asNumber = v.asNumber := by
  cases v with
  | error e => cases proper
  | array b => simp [asNumber]
  | _ => rfl

theorem asBoolean_bare (proper : v.isError = false) : v.bare.asBoolean = v.asBoolean := by
  cases v with
  | error e => cases proper
  | array b => simp [asBoolean]
  | _ => rfl

theorem asText_bare (proper : v.isError = false) : v.bare.asText = v.asText := by
  cases v with
  | error e => cases proper
  | array b => simp [asText]
  | _ => rfl

theorem asInteger_bare (proper : v.isError = false) : v.bare.asInteger = v.asInteger := by
  rw [asInteger, asInteger, asNumber_bare proper]

theorem asDateSerial_bare (proper : v.isError = false) : v.bare.asDateSerial = v.asDateSerial := by
  cases v with
  | error e => cases proper
  | array b => simp [asDateSerial, asNumber]
  | _ => rfl

theorem plain_asNumber_bare (v : Value) : v.bare.asNumber.plain = v.asNumber.plain := by
  cases v with
  | error e => rfl
  | _ => rw [asNumber_bare rfl]

theorem plain_asBoolean_bare (v : Value) : v.bare.asBoolean.plain = v.asBoolean.plain := by
  cases v with
  | error e => rfl
  | _ => rw [asBoolean_bare rfl]

theorem plain_asText_bare (v : Value) : v.bare.asText.plain = v.asText.plain := by
  cases v with
  | error e => rfl
  | _ => rw [asText_bare rfl]

end Coercions

end Value

/-! ### Operators -/

namespace Value

/-- An operand that is an error is the result, so `f` may look at explanations of errors. -/
theorem bare_applyUnlessError {f : Value → Value → Value}
    (proper : ∀ a b, a.isError = false → b.isError = false → (f a.bare b.bare).bare = (f a b).bare)
    (a b : Value) : (applyUnlessError f a.bare b.bare).bare = (applyUnlessError f a b).bare := by
  simp only [applyUnlessError, isError_bare]
  split
  next => exact a.bare_bare
  next left =>
    split
    next => exact b.bare_bare
    next right => exact proper a b (by simpa using left) (by simpa using right)

end Value

namespace UnaryOp

theorem bare_numeric (f : Float → Float) (v : Value) :
    (numeric f v.bare).bare = (numeric f v).bare :=
  Outcome.toValue_congr (Outcome.bare_bind_congr v.plain_asNumber_bare _)

theorem bare_apply (op : UnaryOp) (v : Value) : (op.apply v.bare).bare = (op.apply v).bare := by
  cases op with
  | plus => exact v.bare_bare
  | minus => exact bare_numeric _ v
  | percent => exact bare_numeric _ v

end UnaryOp

namespace Value

theorem filledFor_bare (v w : Value) : v.bare.filledFor w.bare = (v.filledFor w).bare := by
  cases v <;> cases w <;> simp [filledFor]

theorem order_bare (v w : Value) : v.bare.order w.bare = v.order w := by
  simp only [order, filledFor_bare]
  cases v.filledFor w <;> cases w.filledFor v <;> simp [kindRank]

end Value

namespace BinaryOp

theorem applyProper_bare (op : BinaryOp) {a b : Value} (left : a.isError = false)
    (right : b.isError = false) : op.applyProper a.bare b.bare = op.applyProper a b := by
  cases op with
  | add | sub | mul | div | pow =>
    simp only [applyProper, arithmetic, Value.asNumber_bare left, Value.asNumber_bare right]
  | concat => simp only [applyProper, Value.asText_bare left, Value.asText_bare right]
  | eq | ne | lt | le | gt | ge => simp only [applyProper, Value.order_bare]

/-- The operands that an operator meets are no errors. -/
theorem apply_eq (op : BinaryOp) (a b : Value) :
    op.apply a b = Value.applyUnlessError (fun a b => (op.applyProper a b).toValue) a b := by
  cases a <;> cases b <;> rfl

theorem bare_apply (op : BinaryOp) (a b : Value) :
    (op.apply a.bare b.bare).bare = (op.apply a b).bare := by
  rw [apply_eq, apply_eq]
  refine Value.bare_applyUnlessError (fun c d left right => ?_) a b
  rw [applyProper_bare op left right]

end BinaryOp

/-! ### Element-wise application -/

namespace Value

theorem bare_mapElements {f : Value → Value} (one : ∀ v, (f v.bare).bare = (f v).bare) (v : Value) :
    (v.bare.mapElements f).bare = (v.mapElements f).bare := by
  cases v with
  | array b =>
    simp only [bare_array, mapElements, Block.map_map]
    exact congrArg (fun g => array (b.map g)) (funext one)
  | _ => exact one _

theorem bare_contribution (v : Value) (row col : Nat) :
    (v.bare.contribution row col).bare = (v.contribution row col).bare := by
  simp only [contribution, shape_bare]
  cases v.shape.project? row col with
  | none => rfl
  | some position =>
    cases v with
    | array b =>
      simp only [bare_array, Block.get?_map]
      cases b.get? position.1 position.2 <;> simp
    | _ => rfl

theorem bare_broadcast {f : Value → Value → Value}
    (one : ∀ a b, (f a.bare b.bare).bare = (f a b).bare) (l r : Value) :
    (broadcast f l.bare r.bare).bare = (broadcast f l r).bare := by
  -- an element of an operand that is missing or an error is answered before `f` is asked
  have each : ∀ a b, (applyUnlessError f a.bare b.bare).bare = (applyUnlessError f a b).bare :=
    bare_applyUnlessError fun a b _ _ => one a b
  simp only [broadcast_eq, isArray_bare, shape_bare]
  split
  · simp only [bare_array, Block.map_ofFn]
    refine congrArg (fun g => array (Block.ofFn _ _ g)) (funext fun row => funext fun col => ?_)
    rw [← each, bare_contribution, bare_contribution, each]
  · exact one l r

end Value

/-! ### Arguments -/

namespace Arguments

/-- What a single value has to pass to be an argument. -/
private theorem plain_checkOne_of_single (policy : BooleanPolicy) (position : Nat) {v : Value}
    (single : v.isArray = false) :
    (checkOne policy position v.bare).plain = (checkOne policy position v).plain.map Value.bare := by
  cases v with
  | array b => cases single
  | boolean b => cases policy <;> rfl
  | _ => rfl

theorem plain_checkOne_bare (policy : BooleanPolicy) (position : Nat) (v : Value) :
    (checkOne policy position v.bare).plain = (checkOne policy position v).plain.map Value.bare := by
  cases v with
  | array b =>
    -- a block of one element passes if the element does, which may be a block itself
    simp only [Value.bare_array, checkOne, Block.only?_map]
    cases b.only? with
    | none => rfl
    | some inner =>
      cases inner with
      | array c => simp [Except.map]
      | boolean b => cases policy <;> rfl
      | _ => rfl
  | _ => exact plain_checkOne_of_single policy position rfl

theorem plain_checkFrom_bare (policy : BooleanPolicy) (position : Nat) (vs : List Value) :
    (checkFrom policy position (vs.map Value.bare)).plain =
      (checkFrom policy position vs).plain.map (List.map Value.bare) := by
  induction vs generalizing position with
  | nil => rfl
  | cons v rest ih =>
    simp only [List.map_cons, checkFrom, Outcome.plain_bind, plain_checkOne_bare, ih]
    cases (checkOne policy position v).plain with
    | error e => rfl
    | ok first => cases (checkFrom policy (position + 1) rest).plain <;> rfl

/-- Arguments none of which is an error, as those are that have passed their check. -/
def Proper (args : Arguments) : Prop :=
  ∀ v ∈ args.values, v.isError = false

theorem isError_of_checkOne {policy : BooleanPolicy} {position : Nat} {v w : Value}
    (passed : checkOne policy position v = .ok w) : w.isError = false := by
  unfold checkOne at passed
  simp only at passed
  split at passed
  · cases passed
  · split at passed
    · cases passed
    · cases passed
      rfl
  next noError noBoolean =>
    cases w with
    | error e => exact absurd passed (noError e)
    | _ => rfl

theorem proper_of_checkFrom {policy : BooleanPolicy} {position : Nat} {vs ws : List Value}
    (passed : checkFrom policy position vs = .ok ws) : Proper ⟨ws⟩ := by
  induction vs generalizing position ws with
  | nil =>
    cases passed
    exact nofun
  | cons v rest ih =>
    rw [checkFrom] at passed
    cases one : checkOne policy position v with
    | error e =>
      rw [one] at passed
      cases passed
    | ok first =>
      cases more : checkFrom policy (position + 1) rest with
      | error e =>
        rw [one, more] at passed
        cases passed
      | ok others =>
        rw [one, more] at passed
        cases passed
        exact List.forall_mem_cons.mpr ⟨isError_of_checkOne one, ih more⟩

/-- The arguments without explanations of errors inside blocks. -/
def bare (args : Arguments) : Arguments :=
  ⟨args.values.map Value.bare⟩

section Reading

variable {args : Arguments} (index : Nat)

theorem get?_bare : args.bare.get? index = (args.get? index).map Value.bare :=
  List.getElem?_map

@[simp]
theorem isSupplied_bare : args.bare.isSupplied index = args.isSupplied index := by
  rw [isSupplied, get?_bare, isSupplied]
  cases args.get? index <;> simp

variable (proper : args.Proper)
include proper

/-- What is read from an argument that is there, or why it cannot be. -/
private theorem required_bind_bare {α : Type} {f : Value → Outcome α}
    (same : ∀ v : Value, v.isError = false → f v.bare = f v) :
    (args.bare.required index >>= f) = (args.required index >>= f) := by
  rw [required, get?_bare, required]
  cases found : args.get? index with
  | none => rfl
  | some v => exact same v (proper v (List.mem_of_getElem? found))

theorem number_bare : args.bare.number index = args.number index :=
  required_bind_bare index proper fun v noError => by rw [Value.asNumber_bare noError]

theorem numberOr_bare (default : Float) :
    args.bare.numberOr index default = args.numberOr index default := by
  rw [numberOr, isSupplied_bare, number_bare index proper, numberOr]

theorem integer_bare : args.bare.integer index = args.integer index :=
  required_bind_bare index proper fun v noError => by rw [Value.asInteger_bare noError]

theorem integerOr_bare (default : Int) :
    args.bare.integerOr index default = args.integerOr index default := by
  rw [integerOr, isSupplied_bare, integer_bare index proper, integerOr]

theorem daySerial_bare : args.bare.daySerial index = args.daySerial index :=
  required_bind_bare index proper fun v noError => by rw [Value.asDateSerial_bare noError]

theorem date_bare : args.bare.date index = args.date index := by
  rw [date, daySerial_bare index proper, date]

theorem text_bare : args.bare.text index = args.text index :=
  required_bind_bare index proper fun v noError => by rw [Value.asText_bare noError]

theorem boolean_bare : args.bare.boolean index = args.boolean index :=
  required_bind_bare index proper fun v noError => by rw [Value.asBoolean_bare noError]

end Reading

/-- A function of checked arguments that reads no explanation sees none of the ones before the
check. -/
theorem bare_check_bind {g : Arguments → Outcome Value}
    (reads : ∀ args : Arguments, args.Proper → g args.bare = g args) (policy : BooleanPolicy)
    (values : List Value) :
    (check policy (values.map Value.bare) >>= g).bare = (check policy values >>= g).bare := by
  have same := plain_checkFrom_bare policy 1 values
  rw [Outcome.bare_bind, Outcome.bare_bind, check, check, Outcome.plain_map, Outcome.plain_map, same]
  cases checked : checkFrom policy 1 values with
  | error e => rfl
  | ok ws => exact congrArg Outcome.bare (reads ⟨ws⟩ (proper_of_checkFrom checked))

end Arguments

end Recalc
