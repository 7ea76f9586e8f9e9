import Recalc.Proofs.Documents
import Recalc.Proofs.Finiteness
import Recalc.Wire.Values

/-!
# Values on the wire

Every value whose numbers are finite comes back from its encoding through an exact medium
(`Value.restored`). Whatever the document, a decoded value holds only well-shaped blocks, and a
document with a block of any other shape, at whatever depth, is not decoded at all.
-/
namespace Recalc

open Json

variable {α : Type} {medium : Medium}

/-! ### Errors -/

theorem ErrorKind.restored (kind : ErrorKind) : Restores medium toJson ofJson? kind := by
  simp only [Restores, toJson, conveyed]
  cases kind <;> rfl

theorem CellError.restored (e : CellError) : Restores medium toJson ofJson? e := by
  simp only [Restores, ofJson?, Option.bind_eq_bind, Option.bind_eq_some_iff]
  refine ⟨_, members?_conveyed rfl (by decide), e.kind, ?_, e.message, ?_, rfl⟩
  · exact Members.required_conveyed rfl e.kind.restored
  · exact Members.optional_sent List.not_mem_nil rfl (Restores.optionalString e.message)

/-! ### Blocks -/

namespace Block

theorem parts_of_ofShape {rows cols : Nat} {cells : Array α} {b : Block α}
    (made : ofShape rows cols cells = .ok b) :
    b.rows = rows ∧ b.cols = cols ∧ b.cells = cells := by
  unfold ofShape at made
  split at made
  · cases made
  · split at made
    · cases made
      exact ⟨rfl, rfl, rfl⟩
    · cases made

/-- A block comes back from its shape and its elements. -/
theorem restored (exact : medium.Exact) {encode : α → Json} {decode : Json → Option α} {b : Block α}
    (wellShaped : b.WellShaped) (small : b.cells.size < 0x10000000000000000)
    (each : ∀ a ∈ b.toList, Restores medium encode decode a) :
    Restores medium (fun b => jsonOfElements b.rows b.cols (b.toList.map encode)) (ofJson? decode) b := by
  obtain ⟨rowsPos, colsPos, size⟩ := wellShaped
  have rows : b.rows < 0x10000000000000000 :=
    (Nat.le_mul_of_pos_right b.rows colsPos).trans_lt (size ▸ small)
  have cols : b.cols < 0x10000000000000000 :=
    (Nat.le_mul_of_pos_left b.cols rowsPos).trans_lt (size ▸ small)
  have shape : ofShape b.rows b.cols b.toList.toArray = .ok b := by
    rw [toList, Array.toArray_toList, ofShape, if_neg (by omega), if_pos size]
  simp only [Restores, ofJson?, Option.bind_eq_bind, Option.bind_eq_some_iff]
  refine ⟨_, members?_conveyed rfl (by decide), b.rows, ?_, b.cols, ?_, b.toList, ?_, ?_⟩
  · exact Members.required_conveyed rfl (Restores.count exact rows)
  · exact Members.required_conveyed rfl (Restores.count exact cols)
  · exact Members.required_conveyed rfl (Restores.list each)
  · rw [shape]
    rfl

/-- What a decoded block says of its document. -/
theorem decoded {f : Json → Option α} {j : Json} {b : Block α} (decodes : ofJson? f j = some b) :
    b.WellShaped ∧ ∃ m items, j.members? ["rows", "cols", "cells"] = some m ∧
      m.get? 0 "rows" = some (.integer b.rows) ∧ m.get? 1 "cols" = some (.integer b.cols) ∧
      m.get? 2 "cells" = some (.array items) ∧
      List.Forall₂ (fun item a => f item = some a) items b.toList := by
  simp only [ofJson?, Option.bind_eq_bind, Option.bind_eq_some_iff, Members.required] at decodes
  obtain ⟨m, members, rows, ⟨rowsItem, foundRows, countRows⟩, cols,
    ⟨colsItem, foundCols, countCols⟩, cells, ⟨cellsItem, foundCells, listed⟩, shaped⟩ := decodes
  have shape : ofShape rows cols cells.toArray = .ok b := by
    cases made : ofShape rows cols cells.toArray with
    | error e =>
      rw [made] at shaped
      cases shaped
    | ok block =>
      rw [made] at shaped
      exact congrArg Except.ok (Option.some.inj shaped)
  obtain ⟨rfl, rfl, same⟩ := parts_of_ofShape shape
  obtain ⟨items, rfl, each⟩ := exists_items_of_list? listed
  refine ⟨wellShaped_of_ofShape shape, m, items, members, ?_, ?_, foundCells, ?_⟩
  · rw [foundRows, eq_integer_of_natBelow? countRows]
  · rw [foundCols, eq_integer_of_natBelow? countCols]
  · rw [toList, same]
    exact mapM_eq_some_iff.mp each

end Block

/-! ### Values -/

namespace Value

mutual

/-- The blocks in a value, also those inside blocks. -/
def blocks : Value → List (Block Value)
  | array ⟨rows, cols, ⟨cells⟩⟩ => ⟨rows, cols, ⟨cells⟩⟩ :: blocksOfEach cells
  | _ => []

def blocksOfEach : List Value → List (Block Value)
  | [] => []
  | v :: rest => v.blocks ++ blocksOfEach rest

end

/-- Whether all blocks in a value are well shaped, at whatever depth. -/
def WellShaped (v : Value) : Prop :=
  ∀ b ∈ v.blocks, b.WellShaped

/-- Whether the elements of all blocks in a value, which are well shaped, are counted in 64 bits. -/
def Fits (v : Value) : Prop :=
  ∀ b ∈ v.blocks, b.WellShaped ∧ b.cells.size < 0x10000000000000000

theorem blocksOfEach_eq_flatMap (vs : List Value) : blocksOfEach vs = vs.flatMap blocks := by
  induction vs with
  | nil => rfl
  | cons v rest ih => rw [blocksOfEach, ih, List.flatMap_cons]

theorem blocks_array (b : Block Value) : (array b).blocks = b :: b.toList.flatMap blocks := by
  rw [blocks, blocksOfEach_eq_flatMap]
  rfl

theorem fits_array_iff {b : Block Value} :
    (array b).Fits ↔
      (b.WellShaped ∧ b.cells.size < 0x10000000000000000) ∧ ∀ v ∈ b.toList, v.Fits := by
  simp only [Fits, blocks_array, List.forall_mem_cons, List.forall_mem_flatMap]

theorem jsonOfEach_eq_map (vs : List Value) : jsonOfEach vs = vs.map toJson := by
  induction vs with
  | nil => rfl
  | cons v rest ih => rw [jsonOfEach, ih, List.map_cons]

theorem toJson_array (b : Block Value) :
    (array b).toJson =
      .object [("Array", Block.jsonOfElements b.rows b.cols (b.toList.map toJson))] := by
  rw [toJson, jsonOfEach_eq_map]
  rfl

/-- Elements lie three levels deeper than their block. -/
theorem depth_element (medium : Medium) {b : Block Value} {v : Value} (listed : v ∈ b.toList) :
    (v.toJson.conveyed medium).depth + 3 ≤ ((array b).toJson.conveyed medium).depth := by
  have item : (v.toJson.conveyed medium).depth ≤
      depthOfItems ((b.toList.map toJson).map (conveyed medium)) :=
    depth_le_depthOfItems (List.mem_map_of_mem (List.mem_map_of_mem listed))
  rw [toJson_array, conveyed_variant, Block.jsonOfElements, conveyed_object]
  simp only [List.map_cons, List.map_nil, conveyed_array, depth, depthOfMembers]
  omega

section Variants

variable {element : Json → Option Value} (p : Json)

theorem ofJsonBy?_number : ofJsonBy? element (.object [("Number", p)]) = p.float?.map number :=
  rfl

theorem ofJsonBy?_text : ofJsonBy? element (.object [("Text", p)]) = p.string?.map text :=
  rfl

theorem ofJsonBy?_boolean :
    ofJsonBy? element (.object [("Boolean", p)]) = p.boolean?.map boolean :=
  rfl

theorem ofJsonBy?_error :
    ofJsonBy? element (.object [("Error", p)]) = (CellError.ofJson? p).map error :=
  rfl

theorem ofJsonBy?_array :
    ofJsonBy? element (.object [("Array", p)]) = (Block.ofJson? element p).map array :=
  rfl

end Variants

/-- A value comes back from its encoding if its elements do. -/
theorem restoredBy (exact : medium.Exact) {element : Json → Option Value} {v : Value}
    (finite : v.Finite) (fits : v.Fits)
    (inside : ∀ b, v = array b → ∀ w ∈ b.toList, Restores medium toJson element w) :
    Restores medium toJson (ofJsonBy? element) v := by
  cases v with
  | number x =>
    have restored := Restores.real exact (finite x (by simp [numbers]))
    rw [Restores, toJson, conveyed_variant, ofJsonBy?_number, restored.eq, Option.map_some]
  | text s =>
    have restored : Restores medium .string string? s := Restores.string s
    rw [Restores, toJson, conveyed_variant, ofJsonBy?_text, restored.eq, Option.map_some]
  | boolean b =>
    have restored : Restores medium .boolean boolean? b := Restores.boolean b
    rw [Restores, toJson, conveyed_variant, ofJsonBy?_boolean, restored.eq, Option.map_some]
  | error e =>
    have restored : Restores medium CellError.toJson CellError.ofJson? e := e.restored
    rw [Restores, toJson, conveyed_variant, ofJsonBy?_error, restored.eq, Option.map_some]
  | array b =>
    obtain ⟨⟨wellShaped, small⟩, -⟩ := fits_array_iff.mp fits
    have restored := Block.restored exact wellShaped small (inside b rfl)
    rw [Restores, toJson_array, conveyed_variant, ofJsonBy?_array, restored.eq, Option.map_some]
  | blank =>
    rw [Restores, toJson, conveyed_string]
    rfl

theorem restoredWithin (exact : medium.Exact) {nesting : Nat} {v : Value} (finite : v.Finite)
    (fits : v.Fits) (shallow : (v.toJson.conveyed medium).depth < nesting) :
    Restores medium toJson (ofJsonWithin? nesting) v := by
  induction nesting generalizing v with
  | zero => exact absurd shallow (Nat.not_lt_zero _)
  | succ nesting ih =>
    apply restoredBy exact finite fits
    rintro b rfl w listed
    have deeper := depth_element medium listed
    have elementFinite := (finite_array_iff b).mp finite w listed
    have elementFits := (fits_array_iff.mp fits).2 w listed
    exact ih elementFinite elementFits (by omega)

theorem restored (exact : medium.Exact) {v : Value} (finite : v.Finite) (fits : v.Fits) :
    Restores medium toJson ofJson? v :=
  restoredWithin exact finite fits (Nat.lt_succ_self _)

/-! ### Shapes -/

theorem ofJsonBy?_of_variant {element : Json → Option Value} {j p : Json}
    (variant : j.variant? = some ("Array", some p)) :
    ofJsonBy? element j = (Block.ofJson? element p).map array := by
  rw [ofJsonBy?, variant]
  rfl

/-- No other variant is decoded as a block. -/
theorem exists_payload_of_ofJsonBy? {element : Json → Option Value} {j : Json} {b : Block Value}
    (decodes : ofJsonBy? element j = some (array b)) : ∃ p, Block.ofJson? element p = some b := by
  obtain ⟨⟨name, payload⟩, -, decodes⟩ := Option.bind_eq_some_iff.mp decodes
  dsimp only at decodes
  split at decodes
  next number => simp at decodes
  next text => simp at decodes
  next boolean => simp at decodes
  next error => simp at decodes
  next p => exact ⟨p, by simpa using decodes⟩
  next empty =>
    unfold unit? at decodes
    split at decodes <;> simp at decodes
  next => simp at decodes

/-- Whatever the document, the blocks in a decoded value are well shaped. -/
theorem wellShaped_of_ofJsonWithin? {nesting : Nat} {j : Json} {v : Value}
    (decodes : ofJsonWithin? nesting j = some v) : v.WellShaped := by
  induction nesting generalizing j v with
  | zero => cases decodes
  | succ nesting ih =>
    cases v with
    | array b =>
      obtain ⟨p, block⟩ := exists_payload_of_ofJsonBy? decodes
      obtain ⟨wellShaped, m, items, -, -, -, -, each⟩ := Block.decoded block
      rw [WellShaped, blocks_array, List.forall_mem_cons, List.forall_mem_flatMap]
      refine ⟨wellShaped, fun v listed => ?_⟩
      obtain ⟨item, -, decoded⟩ := exists_of_forall₂ each listed
      exact ih decoded
    | _ => simp [WellShaped, blocks]

/-- Documents of values that have a block somewhere which its elements do not fill, or which has no
row or no column. -/
inductive Misshapen : Json → Prop
  | here {j p : Json} {m : Members} {rows cols : Int} {items : List Json} :
    j.variant? = some ("Array", some p) → p.members? ["rows", "cols", "cells"] = some m →
    m.get? 0 "rows" = some (.integer rows) → m.get? 1 "cols" = some (.integer cols) →
    m.get? 2 "cells" = some (.array items) →
    ¬(1 ≤ rows ∧ 1 ≤ cols ∧ items.length = rows * cols) → Misshapen j
  | inside {j p item : Json} {m : Members} {items : List Json} :
    j.variant? = some ("Array", some p) → p.members? ["rows", "cols", "cells"] = some m →
    m.get? 2 "cells" = some (.array items) → item ∈ items → Misshapen item → Misshapen j

/-- No such document is decoded, however large the product of its rows and columns. -/
theorem Misshapen.ofJsonWithin? {j : Json} (misshapen : Misshapen j) (nesting : Nat) :
    ofJsonWithin? nesting j = none := by
  induction misshapen generalizing nesting with
  | @here j p m rows cols items variant members foundRows foundCols foundCells unfit =>
    cases nesting with
    | zero => rfl
    | succ nesting =>
      rw [Value.ofJsonWithin?, ofJsonBy?_of_variant variant, Option.map_eq_none_iff]
      refine Option.eq_none_iff_forall_ne_some.mpr fun b decodes => unfit ?_
      obtain ⟨⟨rowsPos, colsPos, size⟩, _, _, same, hasRows, hasCols, hasCells, each⟩ :=
        Block.decoded decodes
      obtain rfl := Option.some.inj (members.symm.trans same)
      obtain rfl : rows = b.rows := by simpa using foundRows.symm.trans hasRows
      obtain rfl : cols = b.cols := by simpa using foundCols.symm.trans hasCols
      obtain rfl : items = _ := by simpa using foundCells.symm.trans hasCells
      have count : items.length = b.rows * b.cols := each.length_eq.trans size
      exact ⟨by omega, by omega, by exact_mod_cast count⟩
  | @inside j p item m items variant members foundCells listed _ ih =>
    cases nesting with
    | zero => rfl
    | succ nesting =>
      rw [Value.ofJsonWithin?, ofJsonBy?_of_variant variant, Option.map_eq_none_iff]
      refine Option.eq_none_iff_forall_ne_some.mpr fun b decodes => ?_
      obtain ⟨-, _, _, same, -, -, hasCells, each⟩ := Block.decoded decodes
      obtain rfl := Option.some.inj (members.symm.trans same)
      obtain rfl : items = _ := by simpa using foundCells.symm.trans hasCells
      obtain ⟨v, -, decoded⟩ := exists_of_forall₂ each.flip listed
      rw [ih nesting] at decoded
      cases decoded

end Value

end Recalc
