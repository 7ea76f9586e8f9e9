import Mathlib.Data.List.Forall2
import Recalc.Proofs.Maps
import Recalc.Proofs.Numerals
import Recalc.Wire.Fields

/-!
# Documents through a medium

Between an encoder and a decoder stands a medium that takes documents along, such as a text that is
written and read back. It keeps everything but numbers, and it is exact if it keeps the integers of
64 bits too and each finite number is still decoded as itself. `Restores` says that a value comes
back from its encoding through a medium: scalars do, and structures, lists, maps and sets do if their
parts do.
-/
namespace Recalc

/-- A map is what its entries make. -/
theorem SortedMap.foldl_insert_toList {κ α : Type} [Ord κ] [Std.TransOrd κ] [Std.LawfulEqOrd κ]
    [DecidableEq κ] (m : SortedMap κ α) :
    m.toList.foldl (fun m x => m.insert x.1 x.2) (∅ : SortedMap κ α) = m := by
  rw [← Std.ExtTreeMap.insertMany_list_eq_foldl]
  apply Std.ExtTreeMap.ext_getElem?
  intro k
  cases found : m[k]? with
  | some a =>
    exact Std.ExtTreeMap.getElem?_insertMany_list_of_mem Std.ReflCmp.compare_self
      Std.ExtTreeMap.distinct_keys_toList (Std.ExtTreeMap.mem_toList_iff_getElem?_eq_some.mpr found)
  | none =>
    have absent : (m.toList.map Prod.fst).contains k = false := by
      simpa using found
    rw [Std.ExtTreeMap.getElem?_insertMany_list_of_contains_eq_false absent]
    exact Std.ExtTreeMap.getElem?_empty

/-- A set is what its members make. -/
theorem SortedSet.foldl_insert_toList {κ : Type} [Ord κ] [Std.TransOrd κ] [Std.LawfulEqOrd κ]
    (s : SortedSet κ) : s.toList.foldl (fun s k => s.insert k) (∅ : SortedSet κ) = s := by
  apply Std.ExtTreeSet.ext_mem
  intro k
  rw [SortedSet.mem_foldl_insert, Std.ExtTreeSet.mem_toList]
  simp

namespace Json

open Number.Decimal

variable {α β : Type}

/-! ### What a medium conveys -/

/-- What becomes of the numbers of a document on its way. -/
structure Medium where
  integer : Int → Json
  real : Float → Json

namespace Medium

/-- Whether integers of 64 bits are kept and finite numbers are decoded as themselves. -/
structure Exact (medium : Medium) : Prop where
  integer : ∀ n, -0x8000000000000000 ≤ n → n < 0x10000000000000000 → medium.integer n = .integer n
  real : ∀ x : Float, x.isFinite = true → (medium.real x).float? = some x

/-- The medium that keeps all documents as they are. -/
def keeping : Medium :=
  ⟨.integer, .real⟩

theorem exact_keeping : keeping.Exact where
  integer _ _ _ := rfl
  real _ finite := if_pos finite

end Medium

variable {medium : Medium}

mutual

/-- A document as it comes back from a medium. -/
def conveyed (medium : Medium) : Json → Json
  | integer n => medium.integer n
  | real x => medium.real x
  | array items => array (conveyedItems medium items)
  | object members => object (conveyedMembers medium members)
  | j => j

def conveyedItems (medium : Medium) : List Json → List Json
  | [] => []
  | item :: rest => item.conveyed medium :: conveyedItems medium rest

def conveyedMembers (medium : Medium) : List (String × Json) → List (String × Json)
  | [] => []
  | (name, item) :: rest => (name, item.conveyed medium) :: conveyedMembers medium rest

end

theorem conveyed_array (items : List Json) :
    (array items).conveyed medium = array (items.map (conveyed medium)) := by
  have each : conveyedItems medium items = items.map (conveyed medium) := by
    induction items with
    | nil => rfl
    | cons item rest ih => rw [conveyedItems, ih, List.map_cons]
  rw [conveyed, each]

theorem conveyed_object (ms : List (String × Json)) :
    (object ms).conveyed medium = object (ms.map fun m => (m.1, m.2.conveyed medium)) := by
  have each : conveyedMembers medium ms = ms.map fun m => (m.1, m.2.conveyed medium) := by
    induction ms with
    | nil => rfl
    | cons m rest ih => rw [conveyedMembers, ih, List.map_cons]
  rw [conveyed, each]

theorem conveyed_variant (name : String) (payload : Json) :
    (object [(name, payload)]).conveyed medium = object [(name, payload.conveyed medium)] :=
  conveyed_object _

theorem conveyed_string (s : String) : (string s).conveyed medium = string s := by
  simp only [conveyed]

theorem depth_le_depthOfItems {item : Json} {items : List Json} (listed : item ∈ items) :
    item.depth ≤ depthOfItems items := by
  induction listed with
  | head rest => exact Nat.le_max_left _ _
  | tail first _ ih => exact Nat.le_trans ih (Nat.le_max_right _ _)

theorem depth_le_depthOfMembers {m : String × Json} {ms : List (String × Json)} (listed : m ∈ ms) :
    m.2.depth ≤ depthOfMembers ms := by
  induction listed with
  | head rest => exact Nat.le_max_left _ _
  | tail first _ ih => exact Nat.le_trans ih (Nat.le_max_right _ _)

/-- Whether a value comes back from its encoding. -/
def Restores (medium : Medium) (encode : α → Json) (decode : Json → Option α) (a : α) : Prop :=
  decode ((encode a).conveyed medium) = some a

theorem Restores.eq {encode : α → Json} {decode : Json → Option α} {a : α}
    (restored : Restores medium encode decode a) : decode ((encode a).conveyed medium) = some a :=
  restored

namespace Restores

/-! ### Scalars -/

theorem string (s : String) : Restores medium .string string? s := by
  simp only [Restores, conveyed, string?]

theorem boolean (b : Bool) : Restores medium .boolean boolean? b := by
  simp only [Restores, conveyed, boolean?]

theorem real (exact : medium.Exact) {x : Float} (finite : x.isFinite = true) :
    Restores medium .real float? x := by
  simp only [Restores, conveyed]
  exact exact.real x finite

theorem natBelow (exact : medium.Exact) {bound n : Nat} (small : n < bound)
    (narrow : bound ≤ 0x10000000000000000) : Restores medium ofNat (natBelow? bound) n := by
  have below : (0 : Int) ≤ n ∧ (n : Int) < bound := by omega
  have kept : medium.integer n = .integer n := exact.integer n (by omega) (by omega)
  simp only [Restores, ofNat, conveyed, kept, natBelow?, if_pos below, Int.toNat_natCast]

theorem optionalString (o : Option String) :
    Restores medium (ofOption .string) (option? string?) o := by
  cases o with
  | none => simp only [Restores, ofOption, conveyed, option?]
  | some s => simp only [Restores, ofOption, conveyed, option?, string?, Option.map_some]

theorem index (exact : medium.Exact) {n : Nat} (small : n < indexBound) :
    Restores medium ofNat index? n :=
  natBelow exact small (by decide)

theorem count (exact : medium.Exact) {n : Nat} (small : n < 0x10000000000000000) :
    Restores medium ofNat count? n :=
  natBelow exact small (Nat.le_refl _)

end Restores

/-- Only the number itself is decoded as a natural number. -/
theorem eq_integer_of_natBelow? {bound n : Nat} {j : Json} (decodes : j.natBelow? bound = some n) :
    j = .integer n := by
  unfold natBelow? at decodes
  split at decodes
  next i =>
    split at decodes
    next inside =>
      obtain rfl := Option.some.inj decodes
      rw [Int.toNat_of_nonneg inside.1]
    next => cases decodes
  next => cases decodes

/-! ### Lists, sets and maps -/

theorem exists_items_of_list? {decode : Json → Option α} {j : Json} {l : List α}
    (decodes : j.list? decode = some l) : ∃ items, j = array items ∧ items.mapM decode = some l := by
  unfold list? at decodes
  split at decodes
  next items => exact ⟨items, rfl, decodes⟩
  next => cases decodes

theorem mapM_eq_some_iff {decode : β → Option α} {items : List β} {l : List α} :
    items.mapM decode = some l ↔ List.Forall₂ (fun item a => decode item = some a) items l := by
  induction items generalizing l with
  | nil => simp [eq_comm]
  | cons item rest ih =>
    simp only [List.mapM_cons, Option.bind_eq_bind, Option.bind_eq_some_iff, Option.pure_def,
      Option.some.injEq, List.forall₂_cons_left_iff, ih]
    constructor
    · rintro ⟨a, first, others, each, rfl⟩
      exact ⟨a, others, first, each, rfl⟩
    · rintro ⟨a, others, first, each, rfl⟩
      exact ⟨a, first, others, each, rfl⟩

theorem mapM_map {encode : α → β} {decode : β → Option α} {l : List α}
    (each : ∀ a ∈ l, decode (encode a) = some a) : (l.map encode).mapM decode = some l :=
  mapM_eq_some_iff.mpr (List.forall₂_map_left_iff.mpr (List.forall₂_same.mpr each))

/-- In lists that correspond, everything has something that corresponds to it. -/
theorem exists_of_forall₂ {R : α → β → Prop} {items : List α} {l : List β}
    (corresponds : List.Forall₂ R items l) {b : β} (listed : b ∈ l) : ∃ a ∈ items, R a b := by
  induction corresponds with
  | nil => cases listed
  | cons first _ ih =>
    rcases List.mem_cons.mp listed with rfl | later
    · exact ⟨_, List.mem_cons_self, first⟩
    · obtain ⟨a, member, related⟩ := ih later
      exact ⟨a, List.mem_cons_of_mem _ member, related⟩

namespace Restores

theorem list {encode : α → Json} {decode : Json → Option α} {l : List α}
    (each : ∀ a ∈ l, Restores medium encode decode a) :
    Restores medium (fun l => array (l.map encode)) (list? decode) l := by
  simp only [Restores, conveyed_array, list?, List.map_map]
  exact mapM_map each

theorem set (s : SortedSet String) : Restores medium ofSet set? s := by
  have texts : Restores medium (fun l => array (l.map .string)) (list? string?) s.toList :=
    list fun t _ => string t
  rw [Restores, ofSet, set?, texts.eq, Option.map_some, SortedSet.foldl_insert_toList]

/-- A map comes back if its items do and each of its keys is read from its text. -/
theorem map {κ : Type} [Ord κ] [Std.TransOrd κ] [Std.LawfulEqOrd κ] [DecidableEq κ]
    {text : κ → String} {key : String → Option κ} {encode : α → Json} {decode : Json → Option α}
    {m : SortedMap κ α}
    (each : ∀ k a, m[k]? = some a → key (text k) = some k ∧ Restores medium encode decode a) :
    Restores medium (ofMap text encode) (map? key decode) m := by
  have entries : ((m.toList.map fun x => (text x.1, encode x.2)).map
      fun x => (x.1, x.2.conveyed medium)).mapM (fun x => do
        let k ← key x.1
        let a ← decode x.2
        return (k, a)) = some m.toList := by
    rw [List.map_map]
    apply mapM_map
    rintro ⟨k, a⟩ listed
    obtain ⟨read, restored⟩ := each k a (Std.ExtTreeMap.mem_toList_iff_getElem?_eq_some.mp listed)
    simp only [Function.comp, read, restored.eq]
    rfl
  simp only [Restores, ofMap, conveyed_object, map?, entries]
  exact congrArg some m.foldl_insert_toList

end Restores

section Decoded

variable {κ : Type} [Ord κ] [Std.TransOrd κ] [Std.LawfulEqOrd κ] [DecidableEq κ]
  {key : String → Option κ} {decode : Json → Option α} {m : SortedMap κ α}

theorem mem_of_foldl_insert {entries : List (κ × α)} {k : κ} {a : α}
    (found : (entries.foldl (fun m x => m.insert x.1 x.2) m)[k]? = some a) :
    m[k]? = some a ∨ (k, a) ∈ entries := by
  induction entries generalizing m with
  | nil => exact .inl found
  | cons x rest ih =>
    rcases ih found with inserted | later
    · rw [SortedMap.getElem?_insert] at inserted
      split at inserted
      next same =>
        obtain rfl := Option.some.inj inserted
        exact .inr (List.mem_cons.mpr (.inl (Prod.ext same.symm rfl)))
      next => exact .inl inserted
    · exact .inr (List.mem_cons_of_mem x later)

omit [Std.LawfulEqOrd κ] [DecidableEq κ] in
/-- The members of an object that is decoded as a map and the entries that they become. -/
theorem exists_entries_of_map? {j : Json} (decodes : j.map? key decode = some m) :
    ∃ (ms : List (String × Json)) (entries : List (κ × α)), j = object ms ∧
      entries.foldl (fun m x => m.insert x.1 x.2) (∅ : SortedMap κ α) = m ∧
      List.Forall₂ (fun x e => key x.1 = some e.1 ∧ decode x.2 = some e.2) ms entries := by
  unfold map? at decodes
  split at decodes
  next ms =>
    simp only [Option.bind_eq_bind, Option.bind_eq_some_iff, Option.pure_def,
      Option.some.injEq] at decodes
    obtain ⟨entries, each, rfl⟩ := decodes
    refine ⟨ms, entries, rfl, rfl, (mapM_eq_some_iff.mp each).imp ?_⟩
    rintro ⟨name, item⟩ e entry
    obtain ⟨k, read, rest⟩ := Option.bind_eq_some_iff.mp entry
    obtain ⟨a, decoded, same⟩ := Option.bind_eq_some_iff.mp rest
    obtain rfl := Option.some.inj same
    exact ⟨read, decoded⟩
  next => cases decodes

/-- What a decoded map holds has been decoded. -/
theorem exists_item_of_map? {j : Json} (decodes : j.map? key decode = some m) {k : κ} {a : α}
    (found : m[k]? = some a) : ∃ item, decode item = some a := by
  obtain ⟨ms, entries, rfl, rfl, each⟩ := exists_entries_of_map? decodes
  rcases mem_of_foldl_insert found with none | listed
  · rw [Std.ExtTreeMap.getElem?_empty] at none
    cases none
  · obtain ⟨x, -, -, decoded⟩ := exists_of_forall₂ each listed
    exact ⟨x.2, decoded⟩

/-- The members of an object. -/
def entries : Json → List (String × Json)
  | object ms => ms
  | _ => []

omit [Std.LawfulEqOrd κ] [DecidableEq κ] in
/-- Everything in an object that is decoded as a map is decoded, also what another member with its
name replaces. -/
theorem decodes_of_mem_entries {j : Json} (decodes : j.map? key decode = some m)
    {x : String × Json} (listed : x ∈ j.entries) : ∃ a, decode x.2 = some a := by
  obtain ⟨ms, _, rfl, -, each⟩ := exists_entries_of_map? decodes
  obtain ⟨e, -, -, decoded⟩ := exists_of_forall₂ each.flip listed
  exact ⟨e.2, decoded⟩

end Decoded

/-- The text of a row or column number is read as this number. -/
theorem indexOfText?_toString {n : Nat} (small : n < indexBound) :
    indexOfText? (toString n) = some n := by
  have digits : (toString n).toList = Nat.toDigits 10 n := by
    rw [Nat.toString_eq_ofList_toDigits, String.toList_ofList]
  have all : (Nat.toDigits 10 n).all Char.isDigit = true :=
    List.all_eq_true.mpr fun c => Nat.isDigit_of_mem_toDigits (by decide) (by decide)
  have value := natOfDigits_toDigits n
  unfold indexOfText?
  rw [digits]
  split
  next empty => exact absurd empty Nat.toDigits_ne_nil
  next zero =>
    rw [zero] at value
    exact congrArg some value
  next more other led =>
    -- only zero itself starts with a zero
    have positive : 0 < n := by
      rcases Nat.eq_zero_or_pos n with rfl | positive
      · exact absurd (List.cons.inj led).2.symm other
      · exact positive
    exact absurd (congrArg List.head? led) (head?_toDigits positive)
  next =>
    rw [if_pos all, value]
    exact if_pos small

/-! ### Structures -/

theorem lookup_map_snd (f : α → β) (name : String) (ms : List (String × α)) :
    (ms.map fun m => (m.1, f m.2)).lookup name = (ms.lookup name).map f := by
  induction ms with
  | nil => rfl
  | cons m rest ih =>
    rw [List.map_cons, List.lookup_cons, List.lookup_cons, ih]
    cases name == m.1 <;> rfl

theorem lookup_filter_fst (keep : String → Bool) (name : String) (ms : List (String × α)) :
    (ms.filter fun m => keep m.1).lookup name = if keep name then ms.lookup name else none := by
  induction ms with
  | nil => simp
  | cons m rest ih =>
    rw [List.filter_cons, apply_ite (List.lookup name), List.lookup_cons, List.lookup_cons, ih]
    cases same : name == m.1 with
    | false => simp
    | true =>
      rw [eq_of_beq same]
      cases keep m.1 <;> simp

/-- An object that repeats no name is a structure. -/
theorem members?_object {ms : List (String × Json)} (distinct : (ms.map Prod.fst).Nodup)
    (names : List String) : (object ms).members? names = some (.named ms) := by
  have once : ∀ name, (ms.filter fun m => m.1 == name).length ≤ 1 := by
    intro name
    have count := List.nodup_iff_count_le_one.mp distinct name
    rw [List.count, List.countP_map, List.countP_eq_length_filter] at count
    exact count
  rw [members?, if_pos]
  exact List.all_eq_true.mpr fun name _ => decide_eq_true (once name)

/-- An object without some of its members. -/
def without (left : List String) : Json → Json
  | object ms => object (ms.filter fun m => !left.contains m.1)
  | j => j

/-- An object with the members of one name changed. -/
def changing (name : String) (f : Json → Json) : Json → Json
  | object ms => object (ms.map fun m => if m.1 = name then (m.1, f m.2) else m)
  | j => j

/-- The members of an object that come through a medium when some of them are left out. -/
def Members.sent (medium : Medium) (left : List String) (ms : List (String × Json)) : Members :=
  named ((ms.filter fun m => !left.contains m.1).map fun m => (m.1, m.2.conveyed medium))

section Structures

variable {ms : List (String × Json)} {names left : List String} {name : String} {position : Nat}
  {item : Json} {decode : Json → Option α} {a : α}

theorem members?_without (named : ms.map Prod.fst = names) (distinct : names.Nodup) :
    (((object ms).without left).conveyed medium).members? names = some (.sent medium left ms) := by
  rw [without, conveyed_object]
  apply members?_object
  rw [List.map_map]
  exact (named ▸ distinct).sublist (List.filter_sublist.map Prod.fst)

theorem without_nil (j : Json) : j.without [] = j := by
  cases j <;> simp [without]

theorem members?_conveyed (named : ms.map Prod.fst = names) (distinct : names.Nodup) :
    ((object ms).conveyed medium).members? names = some (.sent medium [] ms) := by
  have all : (((object ms).without []).conveyed medium).members? names = some (.sent medium [] ms) :=
    members?_without named distinct
  rwa [without_nil] at all

namespace Members

theorem get?_sent :
    (sent medium left ms).get? position name =
      if name ∈ left then none else (ms.lookup name).map (conveyed medium) := by
  have kept := lookup_filter_fst (fun name => !left.contains name) name ms
  rw [sent, get?, lookup_map_snd, kept]
  by_cases listed : name ∈ left <;> simp [listed]

theorem required_sent (kept : name ∉ left) (listed : ms.lookup name = some item)
    (decoded : decode (item.conveyed medium) = some a) :
    (sent medium left ms).required position name decode = some a := by
  rw [required, get?_sent, if_neg kept, listed]
  exact decoded

theorem required_conveyed (listed : ms.lookup name = some item)
    (decoded : decode (item.conveyed medium) = some a) :
    (sent medium [] ms).required position name decode = some a :=
  required_sent List.not_mem_nil listed decoded

theorem optional_sent {o : Option α} (kept : name ∉ left) (listed : ms.lookup name = some item)
    (decoded : (item.conveyed medium).option? decode = some o) :
    (sent medium left ms).optional position name decode = some o := by
  have found : (sent medium left ms).get? position name = some (item.conveyed medium) := by
    rw [get?_sent, if_neg kept, listed, Option.map_some]
  simp only [optional, found, decoded]

/-- A member that is left out counts as its default. -/
theorem withDefault_sent (listed : ms.lookup name = some item) {default : α}
    (decoded : decode (item.conveyed medium) = some a) :
    (sent medium left ms).withDefault position name default decode =
      some (if name ∈ left then default else a) := by
  by_cases gone : name ∈ left
  · rw [withDefault, get?_sent, if_pos gone, if_pos gone]
  · rw [withDefault, get?_sent, if_neg gone, if_neg gone, listed]
    exact decoded

end Members

end Structures

end Json

end Recalc
