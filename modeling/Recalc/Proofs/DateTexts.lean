import Mathlib.Data.List.DropRight
import Recalc.Coercion
import Recalc.Proofs.Calendar
import Recalc.Proofs.Numerals

/-!
# Texts of dates

The layouts of dates do not get into each other's way: a date is read back from each of its texts,
between any blanks, although two layouts have the same marks (`ofText?_of_writes`). A text that is
read as a number has none of the marks, so it is not read as a date (`ofText?_eq_none_of_number`).
-/
namespace Recalc

open Number.Decimal

namespace Text

variable {c : Char} {s before after : List Char}

theorem isBlank_of_isDigit (digit : c.isDigit = true) : isBlank c = false := by
  simp only [Char.isDigit, Bool.and_eq_true, decide_eq_true_eq, UInt32.le_iff_toNat_le] at digit
  have low : 48 ≤ c.toNat := digit.1
  have high : c.toNat ≤ 57 := digit.2
  simp only [isBlank, Bool.or_eq_false_iff, Bool.and_eq_false_iff, decide_eq_false_iff_not,
    beq_eq_false_iff_ne]
  omega

theorem trimLeft_append (blank : ∀ c ∈ before, isBlank c = true) (s : List Char) :
    trimLeft (before ++ s) = trimLeft s :=
  List.dropWhile_append_of_pos blank

theorem trimLeft_of_not_blank (solid : ∀ c ∈ s.head?, isBlank c = false) : trimLeft s = s := by
  cases s with
  | nil => rfl
  | cons c s => exact trimLeft_of_head_not_blank (solid c rfl)

theorem head?_trimLeft (s : List Char) : ∀ c ∈ (trimLeft s).head?, isBlank c = false := by
  induction s with
  | nil => simp [trimLeft]
  | cons c s ih =>
    cases blank : isBlank c with
    | false => simpa [trimLeft_of_head_not_blank blank] using blank
    | true => simpa [trimLeft_cons_of_blank blank] using ih

theorem trimLeft_trimLeft (s : List Char) : trimLeft (trimLeft s) = trimLeft s :=
  trimLeft_of_not_blank (head?_trimLeft s)

/-- Blanks go from both ends of a text that has none itself. -/
theorem trim_surrounded (before_blank : ∀ c ∈ before, isBlank c = true)
    (after_blank : ∀ c ∈ after, isBlank c = true) (solid : ∀ c ∈ s, isBlank c = false)
    (some : s ≠ []) : trim (before ++ s ++ after) = s := by
  have left : trimLeft (before ++ s ++ after) = s ++ after := by
    rw [List.append_assoc, trimLeft_append before_blank]
    obtain ⟨c, t, rfl⟩ := List.exists_cons_of_ne_nil some
    exact trimLeft_of_head_not_blank (solid c List.mem_cons_self)
  have right : trimLeft (s ++ after).reverse = s.reverse := by
    rw [List.reverse_append, trimLeft_append (by simpa using after_blank)]
    refine trimLeft_of_not_blank ?_
    intro c first
    exact solid c (List.mem_reverse.mp (List.mem_of_head? first))
  rw [trim, left, right, List.reverse_reverse]

/-- What follows a solid character is trimmed on its right only. -/
theorem exists_trim_append (first : ∀ b ∈ (before ++ [c]).head?, isBlank b = false)
    (solid : isBlank c = false) (after : List Char) :
    ∃ rest, trim (before ++ c :: after) = before ++ c :: rest := by
  have left : trimLeft (before ++ c :: after) = before ++ c :: after := by
    refine trimLeft_of_not_blank ?_
    cases before with
    | nil => simpa using solid
    | cons b before => simpa using first
  have right : ∀ back : List Char, ∃ kept,
      trimLeft (back ++ c :: before.reverse) = kept ++ c :: before.reverse := by
    intro back
    induction back with
    | nil => exact ⟨[], trimLeft_of_head_not_blank solid⟩
    | cons b back ih =>
      cases blank : isBlank b with
      | false => exact ⟨b :: back, trimLeft_of_head_not_blank blank⟩
      | true => simpa [trimLeft_cons_of_blank blank] using ih
  obtain ⟨kept, trimmed⟩ := right after.reverse
  refine ⟨kept.reverse, ?_⟩
  rw [trim, left]
  simp [trimmed]

theorem trimLeft_trim (s : List Char) : trimLeft (trim s) = trim s := by
  refine trimLeft_of_not_blank ?_
  intro c first
  -- trimming on the right keeps the first character
  obtain ⟨back, split⟩ := List.dropWhile_suffix (l := (trimLeft s).reverse) isBlank
  have parts : trim s ++ back.reverse = trimLeft s := by
    rw [← List.reverse_reverse (trimLeft s), ← split, List.reverse_append]
    rfl
  refine head?_trimLeft s c ?_
  rw [← parts, List.head?_append, first]
  rfl

end Text

namespace DateText

variable {d : Date} {n : ℕ} {year : ℤ} {mark : Char} {digits lead rest s text : List Char}

/-! ### Reading fields -/

/-- A field takes digits up to the first other character or up to its width. -/
theorem readField_append {most : ℕ} (some : digits ≠ []) (all : ∀ c ∈ digits, c.isDigit = true)
    (narrow : digits.length ≤ most)
    (stop : digits.length = most ∨ ∀ c ∈ rest.head?, c.isDigit = false) :
    readField most (digits ++ rest) = .some (natOfDigits digits, rest) := by
  have solid : Text.trimLeft (digits ++ rest) = digits ++ rest := by
    obtain ⟨c, more, rfl⟩ := List.exists_cons_of_ne_nil some
    exact Text.trimLeft_of_head_not_blank (Text.isBlank_of_isDigit (all c List.mem_cons_self))
  have taken : ((digits ++ rest).takeWhile Char.isDigit).take most = digits := by
    rw [List.takeWhile_append_of_pos all]
    rcases stop with rfl | stop
    · exact List.take_left
    · have none : rest.takeWhile Char.isDigit = [] := by
        cases rest with
        | nil => rfl
        | cons c rest => simp [stop c rfl]
      rw [none, List.append_nil, List.take_of_length_le narrow]
  have filled : digits.isEmpty = false := by simpa using some
  simp only [readField, solid, taken, filled, Bool.false_eq_true, if_false, List.drop_left]

/-- Without a sign a year is a field of four digits. -/
theorem readYear_append (some : digits ≠ []) (all : ∀ c ∈ digits, c.isDigit = true)
    (narrow : digits.length ≤ 4) (stop : digits.length = 4 ∨ ∀ c ∈ rest.head?, c.isDigit = false) :
    readYear (digits ++ rest) = .some (natOfDigits digits, rest) := by
  have field := readField_append some all narrow stop
  obtain ⟨c, more, rfl⟩ := List.exists_cons_of_ne_nil some
  have digit := all c List.mem_cons_self
  have solid : Text.trimLeft (c :: more ++ rest) = c :: more ++ rest :=
    Text.trimLeft_of_head_not_blank (Text.isBlank_of_isDigit digit)
  rw [readYear, solid]
  split
  next minus =>
    obtain rfl : c = '-' := (List.cons.inj minus).1
    cases digit
  next plus =>
    obtain rfl : c = '+' := (List.cons.inj plus).1
    cases digit
  next => rw [field]; rfl

/-! ### Texts of a date -/

/-- The texts of a date: its year in four digits, its month and day with or without a leading zero,
and the order and marks of one of the layouts. -/
inductive Writes (d : Date) : List Char → Prop
  | dashes (m n : ℕ) : m ∈ [1, 2] → n ∈ [1, 2] →
    Writes d (numeral 4 d.year.toNat ++ '-' :: numeral m d.month ++ '-' :: numeral n d.day)
  | slashes (m n : ℕ) : m ∈ [1, 2] → n ∈ [1, 2] →
    Writes d (numeral 4 d.year.toNat ++ '/' :: numeral m d.month ++ '/' :: numeral n d.day)
  | monthFirst (m n : ℕ) : m ∈ [1, 2] → n ∈ [1, 2] →
    Writes d (numeral m d.month ++ '/' :: numeral n d.day ++ '/' :: numeral 4 d.year.toNat)

/-- A month or day is read up to the mark that follows it, or to the end. -/
theorem readField_numeral {m : ℕ} (width : m ∈ [1, 2]) (small : n < 100) (rest : List Char)
    (stop : ∀ c ∈ rest.head?, c.isDigit = false) :
    readField 2 (numeral m n ++ rest) = some (n, rest) := by
  have narrow : m ≤ 2 := by
    simp only [List.mem_cons, List.not_mem_nil, or_false] at width
    omega
  rw [readField_append (numeral_ne_nil m n) (fun _ => isDigit_of_mem_numeral)
    (length_numeral_le narrow (by decide) small) (.inr stop), natOfDigits_numeral]

/-- In the place of a year, a month is read up to its mark too. -/
theorem readYear_numeral {m : ℕ} (width : m ∈ [1, 2]) (small : n < 100) (rest : List Char)
    (stop : ∀ c ∈ rest.head?, c.isDigit = false) :
    readYear (numeral m n ++ rest) = some ((n : ℤ), rest) := by
  have narrow : m ≤ 4 := by
    simp only [List.mem_cons, List.not_mem_nil, or_false] at width
    omega
  rw [readYear_append (numeral_ne_nil m n) (fun _ => isDigit_of_mem_numeral)
    (length_numeral_le narrow (by decide) (by omega)) (.inr stop), natOfDigits_numeral]

theorem readYear_fourDigits (small : n < 10000) (rest : List Char) :
    readYear (numeral 4 n ++ rest) = some ((n : ℤ), rest) := by
  have length := length_numeral (by decide) (show n < 10 ^ 4 by omega)
  rw [readYear_append (numeral_ne_nil 4 n) (fun _ => isDigit_of_mem_numeral) length.le (.inl length),
    natOfDigits_numeral]

/-- In the place of a day, two digits of a year are read and two are left. -/
theorem exists_readField_fourDigits (small : n < 10000) :
    ∃ day c rest, readField 2 (numeral 4 n) = some (day, c :: rest) := by
  have length := length_numeral (by decide) (show n < 10 ^ 4 by omega)
  match digits : numeral 4 n, length with
  | [a, b, c, d], _ =>
    have all : ∀ x ∈ [a, b], x.isDigit = true := by
      intro x member
      have listed : x ∈ numeral 4 n := digits ▸ List.mem_append_left [c, d] member
      exact isDigit_of_mem_numeral listed
    have taken : readField 2 ([a, b] ++ [c, d]) = some (natOfDigits [a, b], [c, d]) :=
      readField_append nofun all (le_refl 2) (.inl rfl)
    exact ⟨_, c, [d], taken⟩

/-- A layout is left at a mark that is not its own. -/
theorem readBy_of_other_mark (parts : List LayoutPart) {other : Char}
    (read : readYear s = some (year, mark :: rest)) (differ : other ≠ mark) :
    readBy (.year :: .mark other :: parts) s = none := by
  simp [readBy, readLayout, read, differ]

section Layouts

variable (low : 1 ≤ d.year) (high : d.year ≤ 9999)
include low high

/-- A text that starts with the year is read by the layout that has its marks. -/
theorem readBy_yearFirst {m n : ℕ} (month : m ∈ [1, 2]) (day : n ∈ [1, 2]) {mark : Char}
    (plain : mark.isDigit = false) :
    readBy [.year, .mark mark, .month, .mark mark, .day]
      (numeral 4 d.year.toNat ++ mark :: numeral m d.month ++ mark :: numeral n d.day) = some d := by
  have := d.month_bounds
  have := d.day_le
  have first := readYear_fourDigits (n := d.year.toNat) (by omega)
    (mark :: (numeral m d.month ++ mark :: numeral n d.day))
  have second := readField_numeral month (n := d.month) (by omega) (mark :: numeral n d.day)
    (by simpa using plain)
  have third := readField_numeral day (n := d.day) (by omega) [] nofun
  rw [List.append_nil] at third
  have same : ((d.year.toNat : ℕ) : ℤ) = d.year := by omega
  simp only [readBy, List.append_assoc, List.cons_append, readLayout, first, second, third,
    Option.bind_some, if_true, same]
  exact Date.ofParts?_eq_some_iff.mpr ⟨rfl, rfl, rfl⟩

theorem readBy_monthFirst {m n : ℕ} (month : m ∈ [1, 2]) (day : n ∈ [1, 2]) :
    readBy [.month, .mark '/', .day, .mark '/', .year]
      (numeral m d.month ++ '/' :: numeral n d.day ++ '/' :: numeral 4 d.year.toNat) = some d := by
  have := d.month_bounds
  have := d.day_le
  have first := readField_numeral month (n := d.month) (by omega)
    ('/' :: (numeral n d.day ++ '/' :: numeral 4 d.year.toNat)) (by simp)
  have second := readField_numeral day (n := d.day) (by omega) ('/' :: numeral 4 d.year.toNat)
    (by simp)
  have third := readYear_fourDigits (n := d.year.toNat) (by omega) []
  rw [List.append_nil] at third
  have same : ((d.year.toNat : ℕ) : ℤ) = d.year := by omega
  simp only [readBy, List.append_assoc, List.cons_append, readLayout, first, second, third,
    Option.bind_some, if_true, same]
  exact Date.ofParts?_eq_some_iff.mpr ⟨rfl, rfl, rfl⟩

/-- The layout that starts with the year takes a text that ends with it for one that goes on after
the day. -/
theorem readBy_slashes_of_monthFirst {m n : ℕ} (month : m ∈ [1, 2]) (day : n ∈ [1, 2]) :
    readBy [.year, .mark '/', .month, .mark '/', .day]
      (numeral m d.month ++ '/' :: numeral n d.day ++ '/' :: numeral 4 d.year.toNat) = none := by
  have := d.month_bounds
  have := d.day_le
  have first := readYear_numeral month (n := d.month) (by omega)
    ('/' :: (numeral n d.day ++ '/' :: numeral 4 d.year.toNat)) (by simp)
  have second := readField_numeral day (n := d.day) (by omega) ('/' :: numeral 4 d.year.toNat)
    (by simp)
  obtain ⟨_, c, rest, third⟩ := exists_readField_fourDigits (n := d.year.toNat) (by omega)
  simp only [readBy, List.append_assoc, List.cons_append, readLayout, first, second, third,
    Option.bind_some, if_true, Option.bind_none]

/-- Each of its texts is read as the date, by the first layout that reads it at all. -/
theorem findSome?_layouts (writes : Writes d text) :
    layouts.findSome? (readBy · text) = some d := by
  have := d.month_bounds
  cases writes with
  | dashes m n month day =>
    have read := readBy_yearFirst low high month day (show '-'.isDigit = false from rfl)
    simp only [layouts, List.findSome?_cons, read]
  | slashes m n month day =>
    have read := readBy_yearFirst low high month day (show '/'.isDigit = false from rfl)
    have skip := readBy_of_other_mark [.month, .mark '-', .day]
      (readYear_fourDigits (n := d.year.toNat) (by omega)
        ('/' :: (numeral m d.month ++ '/' :: numeral n d.day))) (show '-' ≠ '/' by decide)
    rw [← List.cons_append, ← List.append_assoc] at skip
    simp only [layouts, List.findSome?_cons, skip, read]
  | monthFirst m n month day =>
    have read := readBy_monthFirst low high month day
    have skip := readBy_of_other_mark [.month, .mark '-', .day]
      (readYear_numeral month (n := d.month) (by omega)
        ('/' :: (numeral n d.day ++ '/' :: numeral 4 d.year.toNat)) (by simp))
      (show '-' ≠ '/' by decide)
    rw [← List.cons_append, ← List.append_assoc] at skip
    simp only [layouts, List.findSome?_cons, skip, readBy_slashes_of_monthFirst low high month day,
      read]

omit low high

/-- The texts of a date have no blanks. -/
theorem Writes.solid (writes : Writes d text) : ∀ c ∈ text, Text.isBlank c = false := by
  have numeral_solid : ∀ width n, ∀ c ∈ numeral width n, Text.isBlank c = false :=
    fun width n c member => Text.isBlank_of_isDigit (isDigit_of_mem_numeral member)
  have dash : Text.isBlank '-' = false := by decide
  have slash : Text.isBlank '/' = false := by decide
  intro c member
  cases writes <;>
  · simp only [List.mem_append, List.mem_cons] at member
    rcases member with (inside | rfl | inside) | rfl | inside
    · exact numeral_solid _ _ c inside
    · assumption
    · exact numeral_solid _ _ c inside
    · assumption
    · exact numeral_solid _ _ c inside

theorem Writes.ne_nil (writes : Writes d text) : text ≠ [] := by
  cases writes <;> simp

end Layouts

/-! ### Numbers are no dates -/

/-- Digits with or without a sign before them. -/
inductive SignedDigits : List Char → Prop
  | plain (digits : List Char) : digits ≠ [] → (∀ c ∈ digits, c.isDigit = true) →
    SignedDigits digits
  | signed (sign : Char) (digits : List Char) : sign = '-' ∨ sign = '+' →
    (∀ c ∈ digits, c.isDigit = true) → SignedDigits (sign :: digits)

/-- What a field leaves follows the digits that it takes. -/
theorem exists_digits_of_readField {most : ℕ} (read : readField most s = some (n, rest)) :
    ∃ digits, digits ≠ [] ∧ (∀ c ∈ digits, c.isDigit = true) ∧
      Text.trimLeft s = digits ++ rest := by
  rw [readField] at read
  generalize Text.trimLeft s = t at read ⊢
  obtain ⟨later, whole⟩ := List.take_prefix most (t.takeWhile Char.isDigit)
  obtain ⟨others, parts⟩ := t.takeWhile_prefix Char.isDigit
  rw [← whole, List.append_assoc] at parts
  generalize taken : (t.takeWhile Char.isDigit).take most = digits at read parts
  split at read
  next => cases read
  next filled =>
    obtain ⟨-, left⟩ := Prod.mk.inj (Option.some.inj read)
    refine ⟨digits, by simpa using filled, fun c member => ?_, ?_⟩
    · rw [← taken] at member
      exact List.mem_takeWhile_imp (List.mem_of_mem_take member)
    · rw [← left]
      nth_rewrite 2 [← parts]
      rw [List.drop_left, parts]

theorem exists_lead_of_readYear (read : readYear s = some (year, rest)) :
    ∃ lead, SignedDigits lead ∧ Text.trimLeft s = lead ++ rest := by
  have signed : ∀ t (apply : ℕ → ℤ), readYear.signed t apply = some (year, rest) →
      ∃ digits, (∀ c ∈ digits, c.isDigit = true) ∧ t = digits ++ rest := by
    intro t apply read
    rw [readYear.signed] at read
    dsimp only [splitDigits] at read
    split at read
    next => cases read
    next =>
      obtain ⟨-, rfl⟩ := Prod.mk.inj (Option.some.inj read)
      exact ⟨_, fun c => List.mem_takeWhile_imp, List.takeWhile_append_dropWhile.symm⟩
  rw [readYear] at read
  split at read
  next t trimmed =>
    obtain ⟨digits, all, rfl⟩ := signed t _ read
    exact ⟨'-' :: digits, .signed '-' digits (.inl rfl) all, trimmed⟩
  next t trimmed =>
    obtain ⟨digits, all, rfl⟩ := signed t _ read
    exact ⟨'+' :: digits, .signed '+' digits (.inr rfl) all, trimmed⟩
  next =>
    obtain ⟨⟨n, left⟩, field, same⟩ := Option.map_eq_some_iff.mp read
    obtain ⟨-, rfl⟩ := Prod.mk.inj same
    obtain ⟨digits, some, all, split⟩ := exists_digits_of_readField field
    rw [Text.trimLeft_trimLeft] at split
    exact ⟨digits, .plain digits some all, split⟩

/-- A text that some layout reads starts with signed digits and a mark. -/
theorem exists_mark_of_readBy {layout : List LayoutPart} (listed : layout ∈ layouts)
    (read : readBy layout s = some d) : ∃ lead mark rest, SignedDigits lead ∧
      (mark = '-' ∨ mark = '/') ∧ Text.trimLeft s = lead ++ mark :: rest := by
  obtain ⟨fields, read, -⟩ := Option.bind_eq_some_iff.mp read
  have marked : ∀ (c : Char) parts fields' rest,
      readLayout (.mark c :: parts) fields' rest = some fields → ∃ rest', rest = c :: rest' := by
    intro c parts fields' rest read
    cases rest with
    | nil => cases read
    | cons c' rest =>
      rw [readLayout] at read
      split at read
      next same => exact ⟨rest, same ▸ rfl⟩
      next => cases read
  simp only [layouts, List.mem_cons, List.not_mem_nil, or_false] at listed
  rcases listed with rfl | rfl | rfl
  · obtain ⟨⟨year, left⟩, first, later⟩ := Option.bind_eq_some_iff.mp read
    obtain ⟨rest, rfl⟩ := marked _ _ _ _ later
    obtain ⟨lead, digits, split⟩ := exists_lead_of_readYear first
    exact ⟨lead, '-', rest, digits, .inl rfl, split⟩
  · obtain ⟨⟨year, left⟩, first, later⟩ := Option.bind_eq_some_iff.mp read
    obtain ⟨rest, rfl⟩ := marked _ _ _ _ later
    obtain ⟨lead, digits, split⟩ := exists_lead_of_readYear first
    exact ⟨lead, '/', rest, digits, .inr rfl, split⟩
  · obtain ⟨⟨month, left⟩, first, later⟩ := Option.bind_eq_some_iff.mp read
    obtain ⟨rest, rfl⟩ := marked _ _ _ _ later
    obtain ⟨digits, some, all, split⟩ := exists_digits_of_readField first
    exact ⟨digits, '/', rest, .plain digits some all, .inr rfl, split⟩

theorem SignedDigits.solid (digits : SignedDigits lead) :
    ∀ c ∈ lead.head?, Text.isBlank c = false := by
  intro c first
  cases digits with
  | plain _ some all => exact Text.isBlank_of_isDigit (all c (List.mem_of_head? first))
  | signed sign _ either _ =>
    obtain rfl : sign = c := by simpa using first
    rcases either with rfl | rfl <;> decide

/-- A mark after signed digits belongs to no decimal. -/
theorem read_eq_none (signed : SignedDigits lead) (dash : mark = '-' ∨ mark = '/')
    (rest : List Char) : Number.Decimal.read (lead ++ mark :: rest) = none := by
  have noDigit : ∀ c ∈ (mark :: rest).head?, c.isDigit = false := by
    rintro c ⟨⟩
    rcases dash with rfl | rfl <;> decide
  have noExponent : readExponent (mark :: rest) = none := by
    rcases dash with rfl | rfl <;> simp [readExponent]
  have noPoint : mark ≠ '.' := by
    rcases dash with rfl | rfl <;> decide
  obtain ⟨digits, negative, all, split⟩ : ∃ digits negative, (∀ c ∈ digits, c.isDigit = true) ∧
      splitSign (lead ++ mark :: rest) = (negative, digits ++ mark :: rest) := by
    cases signed with
    | plain _ some all =>
      obtain ⟨c, more, rfl⟩ := List.exists_cons_of_ne_nil some
      refine ⟨c :: more, false, all, ?_⟩
      have digit := all c List.mem_cons_self
      show splitSign (c :: (more ++ mark :: rest)) = _
      unfold splitSign
      split
      next minus => obtain rfl : c = '-' := (List.cons.inj minus).1; cases digit
      next plus => obtain rfl : c = '+' := (List.cons.inj plus).1; cases digit
      next => rfl
    | signed sign digits either all =>
      rcases either with rfl | rfl
      · exact ⟨digits, true, all, rfl⟩
      · exact ⟨digits, false, all, rfl⟩
  rw [Number.Decimal.read, split]
  dsimp only
  rw [splitDigits_append all noDigit]
  -- no point follows the digits, and no exponent starts with a mark
  split
  next point => exact absurd (List.cons.inj point).1 noPoint
  next => simp only [noExponent, Option.map_none, ite_self]

/-- The mark is still there when a percent sign at the end has been taken off. -/
theorem exists_trim_of_percent {back : List Char} (signed : SignedDigits lead)
    (dash : mark = '-' ∨ mark = '/') (percent : (lead ++ mark :: rest).reverse = '%' :: back) :
    ∃ left, Text.trim back.reverse = lead ++ mark :: left := by
  have solid : Text.isBlank mark = false := by rcases dash with rfl | rfl <;> decide
  have noPercent : mark ≠ '%' := by rcases dash with rfl | rfl <;> decide
  have whole : lead ++ mark :: rest = back.reverse ++ ['%'] := by
    rw [← List.reverse_reverse (lead ++ mark :: rest), percent, List.reverse_cons]
  rcases List.eq_nil_or_concat rest with rfl | ⟨before, last, rfl⟩
  · obtain ⟨-, last⟩ := List.append_inj' whole rfl
    exact absurd (List.cons.inj last).1 noPercent
  · rw [List.concat_eq_append, ← List.cons_append, ← List.append_assoc] at whole
    obtain ⟨inner, -⟩ := List.append_inj' whole rfl
    rw [← inner]
    refine Text.exists_trim_append ?_ solid before
    cases lead with
    | nil => simpa using solid
    | cons c lead => simpa using signed.solid

/-- A mark after signed digits keeps a text from being read as a number. -/
theorem numberOfText?_eq_none {t : String} (signed : SignedDigits lead)
    (dash : mark = '-' ∨ mark = '/') (split : Text.trim t.toList = lead ++ mark :: rest) :
    numberOfText? t = none := by
  rw [numberOfText?, split]
  dsimp only
  split
  next d read =>
    exfalso
    split at read
    next back percent =>
      obtain ⟨left, trimmed⟩ := exists_trim_of_percent signed dash percent
      dsimp only at read
      rw [trimmed, read_eq_none signed dash] at read
      cases read
    next =>
      dsimp only at read
      rw [read_eq_none signed dash] at read
      cases read
  next => rfl

end DateText

/-- A date is read back from each of its texts, between any blanks. No text that is read as a number
is read as a date. -/
theorem Date.texts_decode :
    (∀ (d : Date) (text before after : List Char), 1 ≤ d.year → d.year ≤ 9999 →
      DateText.Writes d text → (∀ c ∈ before, Text.isBlank c = true) →
      (∀ c ∈ after, Text.isBlank c = true) →
      Date.ofText? (String.ofList (before ++ text ++ after)) = some d) ∧
    ∀ s : String, (numberOfText? s).isSome → Date.ofText? s = none := by
  constructor
  · intro d text before after low high writes before_blank after_blank
    rw [Date.ofText?, String.toList_ofList,
      Text.trim_surrounded before_blank after_blank writes.solid writes.ne_nil]
    exact DateText.findSome?_layouts low high writes
  · intro s number
    by_contra dated
    obtain ⟨d, found⟩ := Option.ne_none_iff_exists'.mp dated
    obtain ⟨layout, listed, read⟩ := List.exists_of_findSome?_eq_some found
    obtain ⟨lead, mark, rest, signed, dash, split⟩ := DateText.exists_mark_of_readBy listed read
    rw [Text.trimLeft_trim] at split
    rw [DateText.numberOfText?_eq_none signed dash split] at number
    cases number

/-- The first of December of the year 987 with its month first and its day without a leading zero: the
layouts with the year first would take the month for the year. The number has what could be signed
digits and a mark, but a point before it. -/
theorem Date.texts_decode_december :
    let d : Date := ⟨987, 12, 1, by decide, by decide, by decide⟩
    Date.ofText? " 12/1/0987\u2003" = some d ∧ Date.ofText? " -12.5e-1 % " = none := by
  intro d
  constructor
  · have text : " 12/1/0987\u2003" = String.ofList ([' '] ++
        (numeral 1 d.month ++ '/' :: numeral 1 d.day ++ '/' :: numeral 4 d.year.toNat) ++
          ['\u2003']) := by decide
    rw [text]
    exact texts_decode.1 d _ [' '] ['\u2003'] (by decide) (by decide)
      (.monthFirst 1 1 (by decide) (by decide)) (List.forall_mem_singleton.mpr (by decide))
      (List.forall_mem_singleton.mpr (by decide))
  · exact texts_decode.2 _ (by decide +kernel)

end Recalc
