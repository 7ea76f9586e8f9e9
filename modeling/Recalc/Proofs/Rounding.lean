import Recalc.Proofs.ExactValues

/-!
# Rounding to the nearest float

The numbers that 53 binary digits can write form a grid (`OnGrid`), and rounding goes to a number of
the grid that is nearest to the exact one (`Nearest`), if enough digits of it are known
(`rounds_roundWithAccuracy`). All that is used of rounding follows from this: it keeps the order
(`Nearest.mono`), leaves numbers of the grid alone (`Nearest.eq_of_onGrid`) and is off by less than
a unit in the last place (`Nearest.abs_sub_lt`).
-/
namespace Recalc.Number

open Float.Model Float.Model.UnpackedFloat Distance

/-- The numbers that would be floats if their exponents had no upper bound. -/
def OnGrid (q : ℚ) : Prop :=
  ∃ m e : ℤ, m.natAbs < 2 ^ 53 ∧ -1074 ≤ e ∧ q = m * 2 ^ e

/-- Whether a number of the grid is as near to `q` as any other. -/
structure Nearest (q r : ℚ) : Prop where
  onGrid : OnGrid r
  least : ∀ p, OnGrid p → |q - r| ≤ |q - p|

variable {q r v : ℚ} {m n : ℕ} {e : ℤ}

/-! ### Nearest numbers -/

theorem onGrid_zero : OnGrid 0 :=
  ⟨0, 0, by decide, by decide, by simp⟩

theorem OnGrid.neg (onGrid : OnGrid q) : OnGrid (-q) := by
  obtain ⟨m, e, small, low, rfl⟩ := onGrid
  exact ⟨-m, e, by rwa [Int.natAbs_neg], low, by push_cast; ring⟩

theorem OnGrid.fract (onGrid : OnGrid q) (nonneg : 0 ≤ q) : OnGrid (Int.fract q) := by
  obtain ⟨m, e, small, low, rfl⟩ := onGrid
  lift m to ℕ using by
    exact_mod_cast (mul_nonneg_iff_of_pos_right (two_zpow_pos e)).mp nonneg
  rcases e.eq_nat_or_neg with ⟨k, rfl | rfl⟩
  · have whole : ((m : ℤ) : ℚ) * 2 ^ (k : ℤ) = (m * 2 ^ k : ℤ) := by push_cast; rw [zpow_natCast]
    rw [whole, Int.fract_intCast]
    exact onGrid_zero
  · refine ⟨(m % 2 ^ k : ℕ), -k, ?_, low, ?_⟩
    · exact (Nat.mod_le m _).trans_lt small
    · rw [zpow_neg, zpow_natCast, ← div_eq_mul_inv, ← div_eq_mul_inv, Int.cast_natCast,
        Int.cast_natCast]
      exact_mod_cast Int.fract_div_natCast_eq_div_natCast_mod (m := m) (n := 2 ^ k)

namespace Nearest

theorem self (onGrid : OnGrid q) : Nearest q q :=
  ⟨onGrid, fun p _ => by simp⟩

theorem neg (nearest : Nearest q r) : Nearest (-q) (-r) where
  onGrid := nearest.onGrid.neg
  least p onGrid := by
    have least := nearest.least (-p) onGrid.neg
    rw [sub_neg_eq_add] at least
    rwa [neg_sub_neg, abs_sub_comm, ← abs_neg (-q - p), neg_sub', neg_neg, sub_neg_eq_add]

theorem eq_of_onGrid (nearest : Nearest q r) (onGrid : OnGrid q) : r = q := by
  have least := nearest.least q onGrid
  rw [sub_self, abs_zero, abs_nonpos_iff, sub_eq_zero] at least
  exact least.symm

/-- Rounding keeps the order. -/
theorem mono {q' r' : ℚ} (nearest : Nearest q r) (nearest' : Nearest q' r') (less : q < q') :
    r ≤ r' := by
  by_contra above
  have least := sq_le_sq.mpr (nearest.least r' nearest'.onGrid)
  have least' := sq_le_sq.mpr (nearest'.least r nearest.onGrid)
  -- both numbers would have to lie beyond the middle between the two roundings
  nlinarith

theorem abs_le (nearest : Nearest q r) : |r| ≤ 2 * |q| := by
  have least := nearest.least 0 onGrid_zero
  rw [sub_zero, abs_sub_comm] at least
  have apart := abs_sub_abs_le_abs_sub r q
  linarith

theorem nonneg (nearest : Nearest q r) (nonneg : 0 ≤ q) : 0 ≤ r := by
  rcases nonneg.eq_or_lt with rfl | pos
  · rw [nearest.eq_of_onGrid onGrid_zero]
  · exact (Nearest.self onGrid_zero).mono nearest pos

/-- The distance is less than a unit in the last of 53 places. -/
theorem abs_sub_lt (nearest : Nearest q r) (nonneg : 0 ≤ q) (small : q < 2 ^ (53 + e))
    (low : -1074 ≤ e) : |q - r| < 2 ^ e := by
  have unit := two_zpow_pos e
  have digits : q / 2 ^ e < 2 ^ 53 := by
    rw [div_lt_iff₀ unit]
    rwa [zpow_add₀ two_ne_zero] at small
  have floor_nonneg : 0 ≤ ⌊q / 2 ^ e⌋ := Int.floor_nonneg.mpr (div_nonneg nonneg unit.le)
  have floor_small : ⌊q / 2 ^ e⌋ < 2 ^ 53 := Int.floor_lt.mpr (by exact_mod_cast digits)
  have onGrid : OnGrid (⌊q / 2 ^ e⌋ * 2 ^ e) := ⟨⌊q / 2 ^ e⌋, e, by omega, low, rfl⟩
  have below : ⌊q / 2 ^ e⌋ * 2 ^ e ≤ q := (le_div_iff₀ unit).mp (Int.floor_le _)
  have above : q < (⌊q / 2 ^ e⌋ + 1) * 2 ^ e := (div_lt_iff₀ unit).mp (Int.lt_floor_add_one _)
  refine (nearest.least _ onGrid).trans_lt ?_
  rw [abs_of_nonneg (sub_nonneg.mpr below)]
  linarith

end Nearest

/-! ### Digits that are dropped -/

/-- Whether an accuracy describes what is left of a number, in units of the last digit kept. -/
def Dropped : Accuracy → ℚ → Prop
  | .exact, rest => rest = 0
  | .inexact .lt, rest => 0 < rest ∧ rest < 1 / 2
  | .inexact .eq, rest => rest = 1 / 2
  | .inexact .gt, rest => 1 / 2 < rest ∧ rest < 1

/-- Whether a mantissa with its residual bits describes a number. -/
def Describes (em : ExtendedMantissa) (v : ℚ) : Prop :=
  Dropped em.accuracy (v - em.mantissa)

theorem describes_ofMantissaAndAccuracy {accuracy : Accuracy} (dropped : Dropped accuracy r) :
    Describes (.ofMantissaAndAccuracy m accuracy) (m + r) := by
  unfold Describes
  rcases accuracy with _ | _ | _ | _ <;> simpa [ExtendedMantissa.ofMantissaAndAccuracy,
    ExtendedMantissa.accuracy] using dropped

theorem Describes.shiftRightOne {em : ExtendedMantissa} (describes : Describes em v) :
    Describes em.shiftRightOne (v / 2) := by
  obtain ⟨m, round, sticky⟩ := em
  obtain ⟨half, rfl | rfl⟩ := Nat.even_or_odd' m
  · have quotient : 2 * half / 2 = half := by omega
    have remainder : 2 * half % 2 = 0 := by omega
    cases round <;> cases sticky <;>
      simp [Describes, ExtendedMantissa.shiftRightOne, ExtendedMantissa.accuracy, quotient,
        remainder, Dropped] at describes ⊢ <;>
      first | constructor <;> linarith | linarith
  · have quotient : (2 * half + 1) / 2 = half := by omega
    have remainder : (2 * half + 1) % 2 = 1 := by omega
    cases round <;> cases sticky <;>
      simp [Describes, ExtendedMantissa.shiftRightOne, ExtendedMantissa.accuracy, quotient,
        remainder, Dropped] at describes ⊢ <;>
      first | constructor <;> linarith | linarith

theorem Describes.shiftRight {em : ExtendedMantissa} (describes : Describes em v) (n : ℕ) :
    Describes (em >>> n) (v / 2 ^ n) := by
  show Describes (n.repeat ExtendedMantissa.shiftRightOne em) _
  induction n with
  | zero => simpa [Nat.repeat] using describes
  | succ n ih =>
    rw [pow_succ, ← div_div]
    exact ih.shiftRightOne

/-- The rounded mantissa is at most half a unit away. -/
theorem Describes.abs_sub_rounded {em : ExtendedMantissa} (describes : Describes em v) :
    |v - em.roundedMantissa| ≤ 1 / 2 := by
  obtain ⟨m, round, sticky⟩ := em
  rw [abs_le]
  cases round <;> cases sticky <;>
    simp only [Describes, ExtendedMantissa.accuracy, Dropped, ExtendedMantissa.roundedMantissa,
      Accuracy.roundToNearestEven] at describes ⊢
  · constructor <;> linarith
  · constructor <;> linarith
  · rcases Nat.mod_two_eq_zero_or_one m with even | odd
    · rw [even]; push_cast; constructor <;> linarith
    · rw [odd]; push_cast; constructor <;> linarith
  · push_cast; constructor <;> linarith

theorem Describes.mantissa_le {em : ExtendedMantissa} (describes : Describes em v) :
    em.mantissa ≤ v := by
  unfold Describes at describes
  generalize em.accuracy = accuracy at describes
  rcases accuracy with _ | _ | _ | _ <;> simp only [Dropped] at describes <;> linarith

theorem roundedMantissa_le (em : ExtendedMantissa) : em.roundedMantissa ≤ em.mantissa + 1 := by
  obtain ⟨m, round, sticky⟩ := em
  cases round <;> cases sticky <;>
    simp only [ExtendedMantissa.roundedMantissa, ExtendedMantissa.accuracy,
      Accuracy.roundToNearestEven] <;> omega

/-! ### Rounding -/

/-- No whole number is nearer to a number than one that is at most a half away. -/
theorem abs_sub_le_of_close (close : |v - n| ≤ 1 / 2) (j : ℤ) : |v - n| ≤ |v - j| := by
  by_cases same : j = n
  · rw [same, Int.cast_natCast]
  · have apart : (1 : ℚ) ≤ |(n : ℚ) - j| := by
      exact_mod_cast Int.one_le_abs (sub_ne_zero.mpr (Ne.symm same))
    have := abs_sub_le (n : ℚ) v j
    rw [abs_sub_comm (n : ℚ) v] at this
    linarith

/-- With 53 places kept, or as many as the least exponent allows, the nearest whole number of units
is the nearest number of the grid. -/
theorem nearest_of_close (close : |v - n| ≤ 1 / 2) (small : n ≤ 2 ^ 53) (low : -1074 ≤ e)
    (normal : 2 ^ 52 ≤ v ∨ e = -1074) : Nearest (v * 2 ^ e) (n * 2 ^ e) where
  onGrid := by
    rcases small.eq_or_lt with rfl | small
    · refine ⟨2 ^ 52, e + 1, by decide, by omega, ?_⟩
      rw [zpow_add_one₀ two_ne_zero]
      push_cast
      ring
    · exact ⟨n, e, small, low, by simp⟩
  least p onGrid := by
    have unit := two_zpow_pos e
    have scaled : ∀ j : ℤ, |v * 2 ^ e - n * 2 ^ e| ≤ |v * 2 ^ e - j * 2 ^ e| := fun j => by
      rw [← sub_mul, ← sub_mul, abs_mul, abs_mul]
      exact mul_le_mul_of_nonneg_right (abs_sub_le_of_close close j) (abs_nonneg _)
    obtain ⟨k, f, digits, least, rfl⟩ := onGrid
    by_cases multiple : e ≤ f
    · have power : (2 : ℚ) ^ f = 2 ^ (f - e).toNat * 2 ^ e := by
        rw [← zpow_natCast, ← zpow_add₀ two_ne_zero]
        congr 1
        omega
      rw [power, ← mul_assoc]
      exact_mod_cast scaled (k * 2 ^ (f - e).toNat)
    · -- a number with smaller units is less than all that need 53 places of these units
      have full : 2 ^ 52 ≤ v := normal.resolve_right (by omega)
      have below : (k : ℚ) * 2 ^ f ≤ 2 ^ 52 * 2 ^ e := by
        have digits' : (k : ℚ) ≤ 2 ^ 53 := by exact_mod_cast (by omega : k ≤ 2 ^ 53)
        calc (k : ℚ) * 2 ^ f ≤ 2 ^ 53 * 2 ^ f :=
              mul_le_mul_of_nonneg_right digits' (two_zpow_pos f).le
          _ = 2 ^ 52 * 2 ^ (f + 1) := by rw [zpow_add_one₀ two_ne_zero]; ring
          _ ≤ 2 ^ 52 * 2 ^ e :=
              mul_le_mul_of_nonneg_left (zpow_le_zpow_right₀ one_le_two (by omega)) (by positivity)
      have above : (2 : ℚ) ^ 52 * 2 ^ e ≤ v * 2 ^ e := mul_le_mul_of_nonneg_right full unit.le
      refine (scaled (2 ^ 52)).trans ?_
      push_cast
      rw [abs_of_nonneg (by linarith), abs_of_nonneg (by linarith)]
      linarith

/-- Whether an unpacked float is a number, in canonical form and nearest to `q`. -/
structure Rounds (u : UnpackedFloat) (q : ℚ) : Prop where
  canonical : Canonical u
  finite : u.isFinite = true
  nearest : Nearest q (value u)

theorem value_zero (s : Sign) : value (.zero s) = 0 :=
  rfl

theorem rounds_zero (s : Sign) : Rounds (.zero s) 0 :=
  ⟨.zero s, rfl, .self onGrid_zero⟩

/-- Rounding up may have made the mantissa one bit longer. -/
theorem shiftToTargetExponent_rounded (small : m ≤ 2 ^ 53) (low : -1074 ≤ e) :
    shiftToTargetExponent Format.binary64 m e .exact =
      if m = 2 ^ 53 then (⟨2 ^ 52, false, false⟩, e + 1) else (⟨m, false, false⟩, e) := by
  split
  next carry =>
    rw [carry]
    exact shiftToTargetExponent_exact (m := 2 ^ 52) (Nat.log2_two_pow) 1 (by omega)
  next fits =>
    have bits : m.log2 < 53 := by
      rcases Nat.eq_zero_or_pos m with rfl | pos
      · decide
      · exact (Nat.log2_lt pos.ne').mpr (by omega)
    have amount : (Format.binary64.targetExponent (totalExponent m e) - e).toNat = 0 := by
      rw [targetExponent_eq, totalExponent]
      omega
    simp only [shiftToTargetExponent, shiftToExponent, amount]
    exact congrArg _ (add_zero e)

theorem value_finite (s : Sign) (pos : 0 < m) :
    value (.finite s m e pos) = s.apply 1 * (m * 2 ^ e) := by
  cases s <;> simp [value, Sign.apply]

theorem Nearest.apply (s : Sign) (nearest : Nearest q r) :
    Nearest (s.apply 1 * q) (s.apply 1 * r) := by
  cases s
  · simpa [Sign.apply] using nearest.neg
  · simpa [Sign.apply] using nearest

/-- The last step of rounding, which only has a bit to drop that is zero. -/
theorem rounds_of_close (s : Sign) (em : ExtendedMantissa) (describes : Describes em v)
    (small : em.mantissa < 2 ^ 53) (low : -1074 ≤ e) (normal : 2 ^ 52 ≤ em.mantissa ∨ e = -1074) :
    let shifted := shiftToTargetExponent Format.binary64 em.roundedMantissa e .exact
    Rounds (if zero : shifted.1.mantissa = 0 then .zero s
      else .finite s shifted.1.mantissa shifted.2 (Nat.pos_of_ne_zero zero))
      (s.apply 1 * (v * 2 ^ e)) := by
  have grows := le_roundedMantissa em
  have carries := roundedMantissa_le em
  have normal' : 2 ^ 52 ≤ v ∨ e = -1074 := normal.imp_left fun full =>
    le_trans (by exact_mod_cast full) describes.mantissa_le
  have nearest := (nearest_of_close describes.abs_sub_rounded (by omega) low normal').apply s
  rw [shiftToTargetExponent_rounded (by omega) low]
  generalize em.roundedMantissa = m at grows carries nearest
  split
  next carry =>
    have fits : Fits (2 ^ 52) (e + 1) := ⟨by decide, by decide, by omega⟩
    refine ⟨.finite s fits (.inl le_rfl), rfl, ?_⟩
    dsimp only
    rw [dif_neg (by decide), value_finite]
    convert nearest using 2
    rw [zpow_add_one₀ two_ne_zero, carry]
    push_cast
    ring
  next =>
    dsimp only
    split
    next zero =>
      refine ⟨.zero s, rfl, ?_⟩
      simpa [zero, value] using nearest
    next nonzero =>
      have fits : Fits m e := ⟨Nat.pos_of_ne_zero nonzero, by omega, low⟩
      refine ⟨.finite s fits (by omega), rfl, ?_⟩
      rwa [value_finite]

/-- What is kept of a mantissa has at most 53 bits, and no fewer unless the exponent is the least. -/
theorem kept_bits (target : Format.binary64.targetExponent (totalExponent m e) = e + n) :
    m / 2 ^ n < 2 ^ 53 ∧ -1074 ≤ e + n ∧ (2 ^ 52 ≤ m / 2 ^ n ∨ e + n = -1074) := by
  rw [targetExponent_eq, totalExponent] at target
  refine ⟨?_, by omega, ?_⟩
  · rw [Nat.div_lt_iff_lt_mul (Nat.two_pow_pos _), ← Nat.pow_add]
    exact Nat.lt_log2_self.trans_le (Nat.pow_le_pow_right Nat.two_pos (by omega))
  · rcases lt_or_ge (-1074) (e + n) with more | least
    · have bits : 52 ≤ m.log2 := by omega
      have nonzero : m ≠ 0 := by
        rintro rfl
        exact absurd bits (by decide)
      left
      rw [Nat.le_div_iff_mul_le (Nat.two_pow_pos _), ← Nat.pow_add]
      exact (Nat.pow_le_pow_right Nat.two_pos (by omega)).trans (Nat.log2_self_le nonzero)
    · right
      omega

/-- Rounding goes to the nearest number of the grid, if it has all the bits that it needs. -/
theorem rounds_roundWithAccuracy (s : Sign) {accuracy : Accuracy} (dropped : Dropped accuracy r)
    (coarse : e ≤ Format.binary64.targetExponent (totalExponent m e)) :
    Rounds (roundWithAccuracy Format.binary64 s m e accuracy) (s.apply 1 * ((m + r) * 2 ^ e)) := by
  obtain ⟨n, target⟩ : ∃ n : ℕ, Format.binary64.targetExponent (totalExponent m e) = e + n :=
    ⟨_, by rw [Int.toNat_of_nonneg (sub_nonneg.mpr coarse), add_sub_cancel]⟩
  obtain ⟨small, low, normal⟩ := kept_bits target
  have mantissa :
      (ExtendedMantissa.ofMantissaAndAccuracy m accuracy >>> n).mantissa = m / 2 ^ n := by
    rw [mantissa_shiftRight]
    rcases accuracy with _ | _ | _ | _ <;> rfl
  have describes := (describes_ofMantissaAndAccuracy (m := m) dropped).shiftRight n
  have rounds := rounds_of_close s _ describes (e := e + n) (by rwa [mantissa]) low
    (by rwa [mantissa])
  have scale : ((m + r) / 2 ^ n : ℚ) * 2 ^ (e + n) = (m + r) * 2 ^ e := by
    rw [zpow_add₀ two_ne_zero, zpow_natCast]
    field_simp
  rw [scale] at rounds
  have shifted : shiftToTargetExponent Format.binary64 m e accuracy =
      (ExtendedMantissa.ofMantissaAndAccuracy m accuracy >>> n, e + n) := by
    simp only [shiftToTargetExponent, shiftToExponent, target, add_sub_cancel_left,
      Int.toNat_natCast]
  unfold roundWithAccuracy
  rw [shifted]
  exact rounds

theorem rounds_exact (s : Sign)
    (coarse : e ≤ Format.binary64.targetExponent (totalExponent m e)) :
    Rounds (roundWithAccuracy Format.binary64 s m e .exact) (s.apply 1 * (m * 2 ^ e)) := by
  have rounds := rounds_roundWithAccuracy s (show Dropped .exact 0 from rfl) coarse
  rwa [add_zero] at rounds

/-- A number with too large an exponent gets zeros at its end first. -/
theorem rounds_round (s : Sign) (pos : 0 < m) (e : ℤ) :
    Rounds (UnpackedFloat.round Format.binary64 s m e) (s.apply 1 * (m * 2 ^ e)) := by
  obtain ⟨k, amount⟩ : ∃ k, (e - Format.binary64.targetExponent (totalExponent m e)).toNat = k :=
    ⟨_, rfl⟩
  have total : totalExponent (m * 2 ^ k) (e - k) = totalExponent m e := by
    rw [totalExponent, log2_mul_two_pow pos, totalExponent]
    push_cast
    ring
  have rounds := rounds_exact (m := m * 2 ^ k) (e := e - k) s (by rw [total]; omega)
  have scale : ((m * 2 ^ k : ℕ) : ℚ) * 2 ^ (e - k) = m * 2 ^ e := by
    rw [zpow_sub₀ two_ne_zero, zpow_natCast]
    push_cast
    field_simp
  rw [scale] at rounds
  simpa only [UnpackedFloat.round, decreaseExponent, Nat.shiftLeft_eq, amount] using rounds

theorem rounds_normalize (z e : ℤ) (s : Sign) :
    Rounds (UnpackedFloat.normalize Format.binary64 z e s) (z * 2 ^ e) := by
  unfold UnpackedFloat.normalize
  split
  next less =>
    have less := Int.compare_eq_lt.mp less
    convert rounds_round .negative (m := (-z).toNat) (by omega) e using 1
    have : (((-z).toNat : ℕ) : ℚ) = -z := by exact_mod_cast Int.toNat_of_nonneg (by omega)
    rw [this]
    simp [Sign.apply]
  next same =>
    rw [Int.compare_eq_eq.mp same]
    simpa using rounds_zero s
  next more =>
    have more := Int.compare_eq_gt.mp more
    convert rounds_round .positive (m := z.toNat) (by omega) e using 1
    have : ((z.toNat : ℕ) : ℚ) = z := by exact_mod_cast Int.toNat_of_nonneg (by omega)
    rw [this]
    simp [Sign.apply]

theorem rounds_self {u : UnpackedFloat} (canonical : Canonical u) (finite : u.isFinite = true) :
    Rounds u (value u) where
  canonical := canonical
  finite := finite
  nearest := by
    refine .self ?_
    cases canonical with
    | notANumber | infinity => cases finite
    | zero s => exact onGrid_zero
    | @finite s m e fits =>
      refine ⟨s.apply m, e, ?_, fits.exponent, rfl⟩
      cases s <;> simpa [Sign.apply] using fits.mantissa

end Recalc.Number
