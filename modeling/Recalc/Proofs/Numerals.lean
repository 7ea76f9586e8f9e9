import Mathlib.Algebra.Group.Nat.Defs
import Recalc.Number.Decimal

/-!
# Decimal numerals

A numeral is read back as its number, however many zeros lead it (`natOfDigits_numeral`), and what
stands before the first character that is no digit is taken off whole (`splitDigits_append`).
-/
namespace Recalc.Number.Decimal

variable {n width : Nat} {c : Char} {digits rest : List Char}

/-- The numeral of a number, led by zeros up to a width. -/
def numeral (width n : Nat) : List Char :=
  (Nat.toDigits 10 n).leftpad width '0'

theorem natOfDigits_toDigits (n : Nat) : natOfDigits (Nat.toDigits 10 n) = n :=
  Nat.ofDigitChars_ten_toDigits

theorem natOfDigits_numeral (width n : Nat) : natOfDigits (numeral width n) = n := by
  show Nat.ofDigitChars 10 (List.replicate _ '0' ++ Nat.toDigits 10 n) 0 = n
  rw [Nat.ofDigitChars_append, Nat.ofDigitChars_replicate_zero, Nat.mul_zero,
    Nat.ofDigitChars_ten_toDigits]

theorem isDigit_of_mem_numeral (member : c ∈ numeral width n) : c.isDigit = true := by
  rcases List.mem_append.mp member with padding | digit
  · rw [(List.mem_replicate.mp padding).2]
    rfl
  · exact Nat.isDigit_of_mem_toDigits (by decide) (by decide) digit

theorem numeral_ne_nil (width n : Nat) : numeral width n ≠ [] := by
  simp [numeral, List.leftpad]

theorem length_numeral (pos : 0 < width) (fits : n < 10 ^ width) :
    (numeral width n).length = width := by
  have bound := (Nat.length_toDigits_le_iff (by decide) pos).mpr fits
  rw [numeral, List.length_leftpad]
  exact Nat.max_eq_left bound

theorem length_numeral_le {most : Nat} (narrow : width ≤ most) (pos : 0 < most)
    (fits : n < 10 ^ most) : (numeral width n).length ≤ most := by
  have bound := (Nat.length_toDigits_le_iff (by decide) pos).mpr fits
  rw [numeral, List.length_leftpad]
  exact Nat.max_le.mpr ⟨narrow, bound⟩

/-- Without padding only the numeral of zero has a leading zero. -/
theorem head?_toDigits (pos : 0 < n) : (Nat.toDigits 10 n).head? ≠ some '0' := by
  induction n using Nat.strongRecOn with
  | ind n ih =>
    rw [Nat.toDigits_eq_if (by decide)]
    split
    next small =>
      have : n ≠ 0 := by omega
      simp [this]
    next large =>
      -- the first digit is that of the tenth
      have tenth := ih (n / 10) (by omega) (by omega)
      obtain ⟨first, rest, digits⟩ := List.exists_cons_of_ne_nil
        (Nat.toDigits_ne_nil (n := n / 10) (b := 10))
      rw [digits] at tenth ⊢
      exact tenth

theorem splitDigits_append (all : ∀ c ∈ digits, c.isDigit = true)
    (stop : ∀ c ∈ rest.head?, c.isDigit = false) : splitDigits (digits ++ rest) = (digits, rest) := by
  have none : rest.takeWhile Char.isDigit = [] ∧ rest.dropWhile Char.isDigit = rest := by
    cases rest with
    | nil => exact ⟨rfl, rfl⟩
    | cons c rest => simp [stop c rfl]
  rw [splitDigits, List.takeWhile_append_of_pos all, List.dropWhile_append_of_pos all, none.1,
    none.2, List.append_nil]

end Recalc.Number.Decimal
