import Recalc.Proofs.Rounding

/-!
# Arithmetic on floats

The sum, difference, product and quotient of two finite floats are nearest to the exact results
(`nearest_add`, `nearest_sub`, `nearest_mul`, `nearest_div`), unless these are too large. The part
of a number behind its point is computed exactly (`exact_fraction`).
-/
namespace Recalc.Number

open Float.Model Float.Model.UnpackedFloat Distance

variable {q : ℚ} {x y z : Float} {u w : UnpackedFloat} {m n : ℕ} {e f : ℤ}

/-! ### Operations on unpacked floats -/

theorem value_decreaseExponent (s : Sign) (m : ℕ) (less : e ≤ f) :
    (s.apply (decreaseExponent m f e).1 : ℚ) * 2 ^ e = s.apply m * 2 ^ f := by
  have power : (2 : ℚ) ^ f = 2 ^ (f - e).toNat * 2 ^ e := by
    rw [← zpow_natCast, ← zpow_add₀ two_ne_zero]
    congr 1
    omega
  rw [power, ← mul_assoc]
  congr 1
  cases s <;> simp [Sign.apply, decreaseExponent, Nat.shiftLeft_eq]

theorem value_neg (s : Sign) (pos : 0 < m) :
    value (.finite (-s) m e pos) = -value (.finite s m e pos) := by
  cases s
  · show ((m : ℤ) : ℚ) * 2 ^ e = -(((-(m : ℤ) : ℤ) : ℚ) * 2 ^ e)
    push_cast
    ring
  · show (((-(m : ℤ) : ℤ) : ℚ)) * 2 ^ e = -(((m : ℤ) : ℚ) * 2 ^ e)
    push_cast
    ring

theorem rounds_add (canonical : Canonical u) (canonical' : Canonical w)
    (finite : u.isFinite = true) (finite' : w.isFinite = true) :
    Rounds (UnpackedFloat.add Format.binary64 u w) (value u + value w) := by
  cases canonical with
  | notANumber | infinity => cases finite
  | zero s => cases canonical' with
    | notANumber | infinity => cases finite'
    | zero t =>
      simp only [value, add_zero, UnpackedFloat.add]
      split <;> exact rounds_zero _
    | finite t fits normal =>
      rw [value_zero, zero_add]
      exact rounds_self (.finite t fits normal) rfl
  | @finite s m e fits normal => cases canonical' with
    | notANumber | infinity => cases finite'
    | zero t =>
      rw [value_zero, add_zero]
      exact rounds_self (.finite s fits normal) rfl
    | @finite t n f fits' normal' =>
      have rounds := rounds_normalize (s.apply (decreaseExponent m e (min e f)).1 +
        t.apply (decreaseExponent n f (min e f)).1) (min e f) .positive
      rw [Int.cast_add, add_mul, value_decreaseExponent s m (min_le_left e f),
        value_decreaseExponent t n (min_le_right e f)] at rounds
      exact rounds

theorem rounds_sub (canonical : Canonical u) (canonical' : Canonical w)
    (finite : u.isFinite = true) (finite' : w.isFinite = true) :
    Rounds (UnpackedFloat.sub Format.binary64 u w) (value u - value w) := by
  cases canonical with
  | notANumber | infinity => cases finite
  | zero s => cases canonical' with
    | notANumber | infinity => cases finite'
    | zero t =>
      simp only [value, sub_zero, UnpackedFloat.sub]
      split <;> exact rounds_zero _
    | finite t fits normal =>
      rw [value_zero, zero_sub, ← value_neg]
      exact rounds_self (.finite (-t) fits normal) rfl
  | @finite s m e fits normal => cases canonical' with
    | notANumber | infinity => cases finite'
    | zero t =>
      rw [value_zero, sub_zero]
      exact rounds_self (.finite s fits normal) rfl
    | @finite t n f fits' normal' =>
      have rounds := rounds_normalize (s.apply (decreaseExponent m e (min e f)).1 -
        t.apply (decreaseExponent n f (min e f)).1) (min e f) .positive
      rw [Int.cast_sub, sub_mul, value_decreaseExponent s m (min_le_left e f),
        value_decreaseExponent t n (min_le_right e f)] at rounds
      exact rounds

theorem apply_mul (s t : Sign) : ((s * t).apply 1 : ℚ) = s.apply 1 * t.apply 1 := by
  cases s <;> cases t <;> decide +kernel

theorem apply_div (s t : Sign) : ((s / t).apply 1 : ℚ) = s.apply 1 * t.apply 1 :=
  apply_mul s t

/-- A product of mantissas has all the bits that its rounding needs. -/
theorem coarse_mul (pos : 0 < m) (pos' : 0 < n) (normal : 2 ^ 52 ≤ m ∨ e = -1074)
    (normal' : 2 ^ 52 ≤ n ∨ f = -1074) :
    e + f ≤ Format.binary64.targetExponent (totalExponent (m * n) (e + f)) := by
  have exponent := targetExponent_eq (totalExponent (m * n) (e + f))
  rw [totalExponent] at exponent
  have long : 2 ^ 52 ≤ m * n → 52 ≤ (m * n).log2 := fun full =>
    (Nat.le_log2 (Nat.mul_pos pos pos').ne').mpr full
  rcases normal with full | least
  · have := long (full.trans (Nat.le_mul_of_pos_right m pos'))
    rw [totalExponent]
    omega
  · rcases normal' with full' | least'
    · have := long (full'.trans (Nat.le_mul_of_pos_left n pos))
      rw [totalExponent]
      omega
    · rw [totalExponent]
      omega

theorem rounds_mul (canonical : Canonical u) (canonical' : Canonical w)
    (finite : u.isFinite = true) (finite' : w.isFinite = true) :
    Rounds (UnpackedFloat.mul Format.binary64 u w) (value u * value w) := by
  cases canonical with
  | notANumber | infinity => cases finite
  | zero s =>
    rw [value_zero, zero_mul]
    cases canonical' with
    | notANumber | infinity => cases finite'
    | zero t | finite t => exact rounds_zero _
  | @finite s m e fits normal => cases canonical' with
    | notANumber | infinity => cases finite'
    | zero t =>
      rw [value_zero, mul_zero]
      exact rounds_zero _
    | @finite t n f fits' normal' =>
      have rounds := rounds_exact (s * t) (coarse_mul fits.pos fits'.pos normal normal')
      have product : value (.finite s m e fits.pos) * value (.finite t n f fits'.pos) =
          (s * t).apply 1 * ((m * n : ℕ) * 2 ^ (e + f)) := by
        rw [value_finite, value_finite, apply_mul, zpow_add₀ two_ne_zero]
        push_cast
        ring
      rw [product]
      exact rounds

theorem dropped_accuracyOfFraction (less : m < n) :
    Dropped (accuracyOfFraction m n) (m / n : ℚ) := by
  have pos : (0 : ℚ) < n := by exact_mod_cast (Nat.zero_le m).trans_lt less
  unfold accuracyOfFraction
  split
  next none => simp [none, Dropped]
  next nonzero =>
    have some : (0 : ℚ) < m := by exact_mod_cast Nat.pos_of_ne_zero nonzero
    have less' : (m : ℚ) < n := by exact_mod_cast less
    cases order : compare (2 * m) n with
    | lt =>
      have below : 2 * (m : ℚ) < n := by exact_mod_cast Nat.compare_eq_lt.mp order
      refine ⟨div_pos some pos, ?_⟩
      rw [div_lt_div_iff₀ pos two_pos]
      linarith
    | eq =>
      have half : 2 * (m : ℚ) = n := by exact_mod_cast Nat.compare_eq_eq.mp order
      show (m : ℚ) / n = 1 / 2
      rw [div_eq_div_iff pos.ne' two_ne_zero]
      linarith
    | gt =>
      have above : (n : ℚ) < 2 * m := by exact_mod_cast Nat.compare_eq_gt.mp order
      refine ⟨?_, (div_lt_one pos).mpr less'⟩
      rw [div_lt_div_iff₀ two_pos pos]
      linarith

/-- A quotient is computed with `k` more digits, which are as many as its rounding needs. -/
theorem exists_divCore_eq (m n : ℕ) (e f : ℤ) : ∃ k : ℕ,
    divCore Format.binary64 m e n f =
      (m * 2 ^ k / n, e - f - k, accuracyOfFraction (m * 2 ^ k % n) n) ∧
    (e - f - k ≤ -1074 ∨ n.log2 + 53 ≤ m.log2 + k) := by
  have wanted := targetExponent_eq (totalExponent m e - totalExponent n f)
  rw [totalExponent, totalExponent] at wanted
  obtain ⟨k, amount⟩ : ∃ k : ℕ, e - f - min (e - f) (Format.binary64.targetExponent
      (totalExponent m e - totalExponent n f)) = k :=
    ⟨_, (Int.toNat_of_nonneg (sub_nonneg.mpr (min_le_left _ _))).symm⟩
  refine ⟨k, ?_, ?_⟩
  · have exponent : min (e - f) (Format.binary64.targetExponent
        (totalExponent m e - totalExponent n f)) = e - f - k := by omega
    simp only [divCore, exponent, sub_sub_cancel, Int.toNat_natCast, Nat.shiftLeft_eq]
  · rw [totalExponent, totalExponent] at amount
    omega

theorem coarse_quotient (pos : 0 < m) (pos' : 0 < n) {k : ℕ}
    (enough : e ≤ -1074 ∨ n.log2 + 53 ≤ m.log2 + k) :
    e ≤ Format.binary64.targetExponent (totalExponent (m * 2 ^ k / n) e) := by
  have exponent := targetExponent_eq (totalExponent (m * 2 ^ k / n) e)
  rw [exponent, totalExponent]
  rcases enough with least | enough
  · omega
  · have low := Nat.log2_self_le (Nat.mul_pos pos (Nat.two_pow_pos k)).ne'
    rw [log2_mul_two_pow pos] at low
    have full : 2 ^ 52 ≤ m * 2 ^ k / n := by
      rw [Nat.le_div_iff_mul_le pos']
      calc 2 ^ 52 * n ≤ 2 ^ 52 * 2 ^ (n.log2 + 1) := Nat.mul_le_mul_left _ Nat.lt_log2_self.le
        _ = 2 ^ (52 + (n.log2 + 1)) := (Nat.pow_add _ _ _).symm
        _ ≤ 2 ^ (m.log2 + k) := Nat.pow_le_pow_right Nat.two_pos (by omega)
        _ ≤ m * 2 ^ k := low
    have long := (Nat.le_log2 (by omega)).mpr full
    omega

/-- The digits computed and the rest are the quotient. -/
theorem quotient_add_rest (pos : 0 < n) (m k : ℕ) (e f : ℤ) :
    (((m * 2 ^ k / n : ℕ) + (m * 2 ^ k % n : ℕ) / n : ℚ)) * 2 ^ (e - f - k) =
      m * 2 ^ e / (n * 2 ^ f) := by
  have pos' : (n : ℚ) ≠ 0 := by exact_mod_cast pos.ne'
  have division : (m * 2 ^ k / n : ℕ) + ((m * 2 ^ k % n : ℕ) / n : ℚ) = m * 2 ^ k / n := by
    rw [eq_div_iff pos', add_mul, div_mul_cancel₀ _ pos', mul_comm]
    exact_mod_cast Nat.div_add_mod (m * 2 ^ k) n
  rw [division, zpow_sub₀ two_ne_zero, zpow_sub₀ two_ne_zero, zpow_natCast]
  field_simp

theorem rounds_div (canonical : Canonical u) (canonical' : Canonical w)
    (finite : u.isFinite = true) (finite' : w.isFinite = true) (nonzero : value w ≠ 0) :
    Rounds (UnpackedFloat.div Format.binary64 u w) (value u / value w) := by
  cases canonical' with
  | notANumber | infinity => cases finite'
  | zero t => exact absurd rfl nonzero
  | @finite t n f fits' normal' => cases canonical with
    | notANumber | infinity => cases finite
    | zero s =>
      rw [value_zero, zero_div]
      exact rounds_zero _
    | @finite s m e fits normal =>
      obtain ⟨k, computed, enough⟩ := exists_divCore_eq m n e f
      have rounds := rounds_roundWithAccuracy (s / t)
        (dropped_accuracyOfFraction (Nat.mod_lt (m * 2 ^ k) fits'.pos))
        (coarse_quotient fits.pos fits'.pos enough)
      have signs : value (.finite s m e fits.pos) / value (.finite t n f fits'.pos) =
          (s / t).apply 1 * (m * 2 ^ e / (n * 2 ^ f)) := by
        rw [value_finite, value_finite, apply_div]
        cases t <;> simp [Sign.apply] <;> ring
      rw [quotient_add_rest fits'.pos, ← signs] at rounds
      simpa only [UnpackedFloat.div, computed] using rounds

/-! ### Packing -/

/-- A number with the least exponent and a short mantissa is what it was after packing. -/
theorem unpack_pack_subnormal (s : Sign) (pos : 0 < m) (small : m < 2 ^ 52) :
    UnpackedFloat.unpack Format.binary64
      (UnpackedFloat.pack Format.binary64 (.finite s m (-1074) pos)) = .finite s m (-1074) pos := by
  have fits : Fits m (-1074) := ⟨pos, by omega, le_rfl⟩
  have mantissa : (BitVec.ofNat 52 m).toNat = m := by
    rw [BitVec.toNat_ofNat, Nat.mod_eq_of_lt small]
  have nonzero : BitVec.ofNat 52 m ≠ 0#52 := fun zero =>
    pos.ne' (mantissa.symm.trans (congrArg BitVec.toNat zero))
  rw [pack_finite s fits, if_neg (by decide), if_neg (not_le.mpr small)]
  unfold UnpackedFloat.unpack
  simp only [unpackExponent_packComponents, unpackMantissa_packComponents,
    unpackSign_packComponents, Sign.ofBitVec_toBitVec]
  rw [if_neg (show 0#11 ≠ -1#11 by decide), if_pos trivial, dif_neg nonzero]
  congr 1

theorem abs_value_finite (s : Sign) (pos : 0 < m) : |value (.finite s m e pos)| = m * 2 ^ e := by
  rw [value, abs_mul, abs_of_pos (two_zpow_pos e)]
  cases s <;> simp [Sign.apply]

/-- Numbers that are not too large are what they were after packing. -/
theorem unpack_pack (canonical : Canonical u) (finite : u.isFinite = true)
    (small : |value u| < 2 ^ (1024 : ℤ)) :
    UnpackedFloat.unpack Format.binary64 (UnpackedFloat.pack Format.binary64 u) = u := by
  cases canonical with
  | notANumber | infinity => cases finite
  | zero s => cases s <;> rfl
  | @finite s m e fits normal =>
    by_cases full : 2 ^ 52 ≤ m
    · refine unpack_pack_full s ((Nat.log2_eq_iff fits.pos.ne').mpr ⟨full, fits.mantissa⟩) fits.pos
        fits.exponent ?_
      by_contra large
      refine not_lt.mpr ?_ small
      calc (2 : ℚ) ^ (1024 : ℤ) = 2 ^ 52 * 2 ^ (972 : ℤ) := by
            rw [← zpow_natCast, ← zpow_add₀ two_ne_zero]
            norm_num
        _ ≤ m * 2 ^ e := mul_le_mul (by exact_mod_cast full)
            (zpow_le_zpow_right₀ one_le_two (by omega)) (two_zpow_pos _).le (Nat.cast_nonneg _)
        _ = |value (.finite s m e fits.pos)| := (abs_value_finite s fits.pos).symm
    · obtain rfl := normal.resolve_left full
      exact unpack_pack_subnormal s fits.pos (not_le.mp full)

/-- Rounding a number with a smaller exponent than the largest gives a float. -/
theorem Rounds.pack (rounds : Rounds u q) (small : |q| < 2 ^ (1023 : ℤ))
    (packed : z.toModel.unpack =
      UnpackedFloat.unpack Format.binary64 (UnpackedFloat.pack Format.binary64 u)) :
    z.isFinite = true ∧ Nearest q (exact z) := by
  have bound : |value u| < 2 ^ (1024 : ℤ) := calc
    |value u| ≤ 2 * |q| := rounds.nearest.abs_le
    _ < 2 * 2 ^ (1023 : ℤ) := mul_lt_mul_of_pos_left small two_pos
    _ = 2 ^ (1024 : ℤ) := (zpow_one_add₀ two_ne_zero 1023).symm
  rw [unpack_pack rounds.canonical rounds.finite bound] at packed
  refine ⟨?_, ?_⟩
  · show z.toModel.unpack.isFinite = true
    rw [packed]
    exact rounds.finite
  · rw [exact_eq_value, packed]
    exact rounds.nearest

/-! ### Operations on floats -/

theorem onGrid_exact (x : Float) : OnGrid (exact x) := by
  rw [exact_eq_value]
  have canonical := canonical x
  generalize x.toModel.unpack = u at canonical
  cases canonical with
  | notANumber | infinity | zero => exact onGrid_zero
  | finite s fits normal => exact (rounds_self (.finite s fits normal) rfl).nearest.onGrid

variable (finite : x.isFinite = true) (finite' : y.isFinite = true)
include finite finite'

theorem nearest_add (small : |exact x + exact y| < 2 ^ (1023 : ℤ)) :
    (x + y).isFinite = true ∧ Nearest (exact x + exact y) (exact (x + y)) := by
  rw [exact_eq_value x, exact_eq_value y] at small ⊢
  exact (rounds_add (canonical x) (canonical y) finite finite').pack small rfl

theorem nearest_sub (small : |exact x - exact y| < 2 ^ (1023 : ℤ)) :
    (x - y).isFinite = true ∧ Nearest (exact x - exact y) (exact (x - y)) := by
  rw [exact_eq_value x, exact_eq_value y] at small ⊢
  exact (rounds_sub (canonical x) (canonical y) finite finite').pack small rfl

theorem nearest_mul (small : |exact x * exact y| < 2 ^ (1023 : ℤ)) :
    (x * y).isFinite = true ∧ Nearest (exact x * exact y) (exact (x * y)) := by
  rw [exact_eq_value x, exact_eq_value y] at small ⊢
  exact (rounds_mul (canonical x) (canonical y) finite finite').pack small rfl

theorem nearest_div (nonzero : exact y ≠ 0) (small : |exact x / exact y| < 2 ^ (1023 : ℤ)) :
    (x / y).isFinite = true ∧ Nearest (exact x / exact y) (exact (x / y)) := by
  rw [exact_eq_value y] at nonzero
  rw [exact_eq_value x, exact_eq_value y] at small ⊢
  exact (rounds_div (canonical x) (canonical y) finite finite' nonzero).pack small rfl

omit finite' in
/-- What is behind the point has no more digits than the whole number. -/
theorem exact_fraction (nonneg : 0 ≤ exact x) :
    (fraction x).isFinite = true ∧ exact (fraction x) = Int.fract (exact x) := by
  obtain ⟨finite', whole⟩ := exact_truncate finite nonneg
  have difference : exact x - exact (truncate x) = Int.fract (exact x) := by rw [whole]; rfl
  have small : |Int.fract (exact x)| < 2 ^ (1023 : ℤ) := by
    rw [abs_of_nonneg (Int.fract_nonneg _)]
    exact (Int.fract_lt_one _).trans (one_lt_zpow₀ one_lt_two (by decide))
  rw [← difference] at small
  obtain ⟨computed, nearest⟩ := nearest_sub finite finite' small
  rw [difference] at nearest
  exact ⟨computed, nearest.eq_of_onGrid ((onGrid_exact x).fract nonneg)⟩

end Recalc.Number
