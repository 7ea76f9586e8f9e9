import Mathlib.Data.List.Induction
import Mathlib.Data.List.Shortlex
import Mathlib.Data.Nat.Digits.Defs
import Recalc.Address

/-!
# Column letters

The letters of a column are its number, counted from one, in base 26 with the digits one to
twenty-six. As no digit is zero, a number has only one numeral and every numeral is that of a column
(`columnLetters_numbering`). Of two numerals the shorter one stands for the smaller number, and among
those of one length the letters decide from the left.
-/
namespace Recalc

variable {a b m n place : Nat} {c d : Char} {letters former latter : List Char} {text : String}

/-! ### Letters as digits -/

def IsLetter (c : Char) : Prop :=
  'A' ≤ c ∧ c ≤ 'Z'

/-- The letter that comes this many places after `A`. -/
def letterAt (place : Nat) : Char :=
  Char.ofNat ('A'.toNat + place)

/-- The digit that a letter is: one for `A` and twenty-six for `Z`. -/
def letterDigit (c : Char) : Nat :=
  c.toNat - 'A'.toNat + 1

theorem isLetter_iff : IsLetter c ↔ 'A'.toNat ≤ c.toNat ∧ c.toNat < 'A'.toNat + 26 := by
  show 'A'.toNat ≤ c.toNat ∧ c.toNat ≤ 'A'.toNat + 25 ↔ _
  omega

theorem toNat_letterAt (within : place < 26) : (letterAt place).toNat = 'A'.toNat + place := by
  decide +revert

theorem isLetter_letterAt (within : place < 26) : IsLetter (letterAt place) := by
  rw [isLetter_iff, toNat_letterAt within]
  omega

theorem letterDigit_letterAt (within : place < 26) : letterDigit (letterAt place) = place + 1 := by
  rw [letterDigit, toNat_letterAt within]
  omega

theorem exists_letterAt (isLetter : IsLetter c) : ∃ place < 26, letterAt place = c := by
  obtain ⟨first, last⟩ := isLetter_iff.mp isLetter
  refine ⟨c.toNat - 'A'.toNat, by omega, ?_⟩
  rw [letterAt, Nat.add_sub_cancel' first, Char.ofNat_toNat]

theorem letterAt_lt_letterAt (less : m < n) (within : n < 26) : letterAt m < letterAt n := by
  show (letterAt m).toNat < (letterAt n).toNat
  rw [toNat_letterAt within, toNat_letterAt (by omega)]
  omega

/-! ### Numerals -/

/-- The number that letters write in base 26, the last of them counting ones. -/
def letterNumber (letters : List Char) : Nat :=
  Nat.ofDigits 26 (letters.reverse.map letterDigit)

/-- The numeral of a number; that of zero is empty. -/
def letterNumeral : Nat → List Char
  | 0 => []
  | n + 1 => letterNumeral (n / 26) ++ [letterAt (n % 26)]

theorem letterNumber_concat :
    letterNumber (letters ++ [c]) = letterDigit c + 26 * letterNumber letters := by
  rw [letterNumber, List.reverse_concat, List.map_cons, Nat.ofDigits_cons, letterNumber]

/-- Numerals are written from the last letter to the first, in front of what is already written. -/
theorem go_eq_letterNumeral : columnLetters.go n letters = letterNumeral n ++ letters := by
  fun_induction columnLetters.go n letters with
  | case1 letters => rw [letterNumeral, List.nil_append]
  | case2 n letters positive ih =>
    obtain ⟨n, rfl⟩ := Nat.exists_eq_succ_of_ne_zero positive
    rw [ih, letterNumeral, List.append_assoc]
    rfl

theorem toList_columnLetters : (columnLetters a).toList = letterNumeral (a + 1) := by
  rw [columnLetters, String.toList_ofList, go_eq_letterNumeral, List.append_nil]

theorem isLetter_of_mem_letterNumeral (member : c ∈ letterNumeral n) : IsLetter c := by
  fun_induction letterNumeral n with
  | case1 => simp at member
  | case2 n ih =>
    rcases List.mem_append.mp member with before | last
    · exact ih before
    · rw [List.mem_singleton.mp last]
      exact isLetter_letterAt (Nat.mod_lt n (by decide))

theorem letterNumber_letterNumeral (n : Nat) : letterNumber (letterNumeral n) = n := by
  fun_induction letterNumeral n with
  | case1 => rfl
  | case2 n ih =>
    rw [letterNumber_concat, ih, letterDigit_letterAt (Nat.mod_lt n (by decide))]
    omega

/-- A numeral is determined by its number: the remainder gives its last letter back, and the quotient
those before. -/
theorem letterNumeral_letterNumber (all : ∀ c ∈ letters, IsLetter c) :
    letterNumeral (letterNumber letters) = letters := by
  induction letters using List.reverseRecOn with
  | nil => rw [letterNumber, List.reverse_nil, List.map_nil, Nat.ofDigits_nil, letterNumeral]
  | append_singleton before c ih =>
    have rest := ih fun d member => all d (List.mem_append_left [c] member)
    obtain ⟨place, within, rfl⟩ := exists_letterAt (all c (by simp))
    have number : letterNumber (before ++ [letterAt place])
        = 26 * letterNumber before + place + 1 := by
      rw [letterNumber_concat, letterDigit_letterAt within]
      omega
    have quotient : (26 * letterNumber before + place) / 26 = letterNumber before := by omega
    have remainder : (26 * letterNumber before + place) % 26 = place := by omega
    rw [number, letterNumeral, quotient, remainder, rest]

/-! ### Order -/

theorem lex_concat (length : former.length = latter.length)
    (less : List.Lex (· < ·) former latter) :
    List.Lex (· < ·) (former ++ [c]) (latter ++ [d]) := by
  induction less with
  | nil => simp at length
  | cons _ ih => exact List.Lex.cons (ih (Nat.succ.inj length))
  | rel first => exact List.Lex.rel first

/-- Whatever letter follows each, two numerals stay in order. -/
theorem shortlex_concat (less : List.Shortlex (· < ·) former latter) :
    List.Shortlex (· < ·) (former ++ [c]) (latter ++ [d]) := by
  rcases List.shortlex_def.mp less with shorter | ⟨length, lex⟩
  · exact List.Shortlex.of_length_lt (by simpa using shorter)
  · exact List.Shortlex.of_lex (by simpa using length) (lex_concat length lex)

/-- Of two numbers the greater has the greater quotient, and then the letters before the last decide,
or the same quotient and the greater remainder, and then the last letter does. -/
theorem letterNumeral_shortlex (less : m < n) :
    List.Shortlex (· < ·) (letterNumeral m) (letterNumeral n) := by
  fun_induction letterNumeral n generalizing m with
  | case1 => omega
  | case2 n ih =>
    cases m with
    | zero => exact List.Shortlex.of_length_lt (by simp [letterNumeral])
    | succ m =>
      rw [letterNumeral]
      rcases Nat.lt_or_eq_of_le (Nat.div_le_div_right (c := 26) (show m ≤ n by omega)) with
        quotient | quotient
      · exact shortlex_concat (ih quotient)
      · rw [quotient]
        have last := letterAt_lt_letterAt (m := m % 26) (n := n % 26) (by omega) (by omega)
        exact ((List.shortlex_singleton_iff _ _).mpr last).append_left _

theorem letterNumeral_shortlex_iff :
    List.Shortlex (· < ·) (letterNumeral m) (letterNumeral n) ↔ m < n := by
  refine ⟨fun less => ?_, letterNumeral_shortlex⟩
  rcases Nat.lt_trichotomy m n with before | rfl | after
  · exact before
  · exact absurd less (Std.Asymm.asymm _ _ less)
  · exact absurd less (Std.Asymm.asymm _ _ (letterNumeral_shortlex after))

/-! ### Columns -/

theorem columnLetters_inj : columnLetters a = columnLetters b ↔ a = b := by
  refine ⟨fun same => ?_, congrArg columnLetters⟩
  have numbers := congrArg letterNumber (congrArg String.toList same)
  rw [toList_columnLetters, toList_columnLetters, letterNumber_letterNumeral,
    letterNumber_letterNumeral] at numbers
  exact Nat.succ.inj numbers

theorem exists_columnLetters_iff :
    (∃ col, columnLetters col = text) ↔ text ≠ "" ∧ ∀ c ∈ text.toList, IsLetter c := by
  constructor
  · rintro ⟨col, rfl⟩
    rw [ne_eq, ← String.toList_eq_nil_iff, toList_columnLetters]
    exact ⟨by simp [letterNumeral], fun c => isLetter_of_mem_letterNumeral⟩
  · rintro ⟨nonempty, all⟩
    have back := letterNumeral_letterNumber all
    -- only the empty numeral is that of zero
    obtain ⟨col, number⟩ : ∃ col, letterNumber text.toList = col + 1 := by
      apply Nat.exists_eq_succ_of_ne_zero
      intro zero
      rw [zero, letterNumeral] at back
      exact nonempty (String.toList_eq_nil_iff.mp back.symm)
    refine ⟨col, String.toList_inj.mp ?_⟩
    rw [toList_columnLetters, ← number, back]

/-- Columns are numbered by their letters, without gap or repetition. The letters of a column are from
`A` to `Z` and write its number, counted from one. Of two columns the earlier one has fewer letters,
or as many and they come first in the dictionary; so no two columns have the same letters. Every text
of one or more letters is that of a column. -/
theorem columnLetters_numbering :
    (∀ col, ∀ c ∈ (columnLetters col).toList, 'A' ≤ c ∧ c ≤ 'Z') ∧
    (∀ col, letterNumber (columnLetters col).toList = col + 1) ∧
    (∀ a b, List.Shortlex (· < ·) (columnLetters a).toList (columnLetters b).toList ↔ a < b) ∧
    (∀ a b, columnLetters a = columnLetters b ↔ a = b) ∧
    (∀ text, (∃ col, columnLetters col = text) ↔
      text ≠ "" ∧ ∀ c ∈ text.toList, 'A' ≤ c ∧ c ≤ 'Z') := by
  refine ⟨?letters, ?number, ?order, ?distinct, ?every⟩
  case letters =>
    intro col
    exact (exists_columnLetters_iff.mp ⟨col, rfl⟩).2
  case number =>
    intro col
    rw [toList_columnLetters, letterNumber_letterNumeral]
  case order =>
    intro a b
    rw [toList_columnLetters, toList_columnLetters, letterNumeral_shortlex_iff]
    exact Nat.add_lt_add_iff_right
  case distinct =>
    intro a b
    exact columnLetters_inj
  case every =>
    intro text
    exact exists_columnLetters_iff

/-- Column 702 is the first of three letters, right after `ZZ`. The last column that is numbered in 32
bits has seven, and there are letters for columns beyond it. -/
theorem columnLetters_numbering_after_two_letters :
    (columnLetters 701 = "ZZ" ∧ columnLetters 702 = "AAA" ∧ columnLetters 4294967295 = "MWLQKWV") ∧
      (∀ c ∈ (columnLetters 702).toList, 'A' ≤ c ∧ c ≤ 'Z') ∧
      letterNumber "AAA".toList = 703 ∧ List.Shortlex (· < ·) "ZZ".toList "AAA".toList ∧
      List.Shortlex (· < ·) "AAA".toList "MWLQKWV".toList ∧ "ZZ" ≠ "AAA" ∧
      ∃ col, columnLetters col = "MWLQKWW" := by
  obtain ⟨letters, number, order, distinct, every⟩ := columnLetters_numbering
  have zz : columnLetters 701 = "ZZ" := by decide +kernel
  have aaa : columnLetters 702 = "AAA" := by decide +kernel
  have last : columnLetters 4294967295 = "MWLQKWV" := by decide +kernel
  refine ⟨⟨zz, aaa, last⟩, letters 702, ?_, ?_, ?_, ?_, ?_⟩
  · rw [← aaa]
    exact number 702
  · rw [← zz, ← aaa]
    exact (order 701 702).mpr (by omega)
  · rw [← aaa, ← last]
    exact (order 702 4294967295).mpr (by omega)
  · rw [← zz, ← aaa]
    exact mt (distinct 701 702).mp (by omega)
  · exact (every "MWLQKWW").mpr ⟨by decide, by simp⟩

end Recalc
