import Recalc.Proofs.WholeNumbers

/-!
# The exact value of a float

A float that is no infinity and no NaN is a rational number (`exact`). Floats compare as these
numbers do, because a larger exponent only goes with a full mantissa, and apart from the two zeros
no number is two floats (`eq_of_exact_eq`). Rounding to a whole number gives the whole number that
is the floor or the ceiling of the exact value, or the nearest to it.
-/
namespace Recalc.Number

open Float.Model Float.Model.UnpackedFloat Distance

/-- The fraction as a rational number. -/
def Dyadic.toRat (d : Dyadic) : ℚ :=
  d.signed d.mantissa * 2 ^ d.exponent

/-- The rational number that a float is; infinities and NaN count as zero. -/
def exact (x : Float) : ℚ :=
  ((dyadic? x).map Dyadic.toRat).getD 0

/-- The rational number that an unpacked float is. -/
def value : UnpackedFloat → ℚ
  | .finite s m e _ => s.apply m * 2 ^ e
  | _ => 0

variable {x y : Float} {d : Dyadic} {m n : ℕ} {e f : ℤ}

theorem exact_eq_value (x : Float) : exact x = value x.toModel.unpack := by
  rw [exact, dyadic?_eq]
  cases x.toModel.unpack with
  | finite s m e pos => cases s <;> rfl
  | zero s => simp [Dyadic.ofUnpacked?, Dyadic.toRat, Dyadic.signed, value]
  | infinity s => rfl
  | notANumber => rfl

theorem exact_of_dyadic? (read : dyadic? x = some d) : exact x = d.toRat := by
  rw [exact, read]
  rfl

theorem isFinite_iff : x.isFinite = true ↔ ∃ d, dyadic? x = some d := by
  show x.toModel.unpack.isFinite = true ↔ _
  rw [dyadic?_eq]
  cases x.toModel.unpack <;> simp [UnpackedFloat.isFinite, Dyadic.ofUnpacked?]

theorem dyadic?_eq_none (infinite : x.isFinite = false) : dyadic? x = none := by
  by_contra read
  obtain ⟨d, read⟩ := Option.ne_none_iff_exists'.mp read
  rw [isFinite_iff.mpr ⟨d, read⟩] at infinite
  cases infinite

/-! ### The order of exact values -/

theorem two_zpow_pos (e : ℤ) : (0 : ℚ) < 2 ^ e :=
  zpow_pos two_pos e

/-- A larger exponent has a full mantissa with it. -/
theorem scaled_lt_of_exponent_lt (fits : Fits m e) (normal : 2 ^ 52 ≤ n ∨ f = -1074)
    (less : e < f) : (m : ℚ) * 2 ^ e < n * 2 ^ f := by
  have full : 2 ^ 52 ≤ n := normal.resolve_right (by have := fits.exponent; omega)
  calc (m : ℚ) * 2 ^ e < 2 ^ 53 * 2 ^ e :=
        mul_lt_mul_of_pos_right (by exact_mod_cast fits.mantissa) (two_zpow_pos e)
    _ = 2 ^ 52 * 2 ^ (e + 1) := by rw [zpow_add_one₀ two_ne_zero]; ring
    _ ≤ 2 ^ 52 * 2 ^ f :=
        mul_le_mul_of_nonneg_left (zpow_le_zpow_right₀ one_le_two less) (by positivity)
    _ ≤ n * 2 ^ f :=
        mul_le_mul_of_nonneg_right (by exact_mod_cast full) (two_zpow_pos f).le

theorem scaled_lt_iff (fits : Fits m e) (normal : 2 ^ 52 ≤ m ∨ e = -1074) (fits' : Fits n f)
    (normal' : 2 ^ 52 ≤ n ∨ f = -1074) :
    (m : ℚ) * 2 ^ e < n * 2 ^ f ↔ e < f ∨ e = f ∧ m < n := by
  rcases lt_trichotomy e f with less | rfl | more
  · exact iff_of_true (scaled_lt_of_exponent_lt fits normal' less) (.inl less)
  · simp [mul_lt_mul_iff_left₀ (two_zpow_pos e)]
  · exact iff_of_false (scaled_lt_of_exponent_lt fits' normal more).not_gt (by omega)

theorem value_lt_iff {u w : UnpackedFloat} (canonical : Canonical u) (canonical' : Canonical w)
    (finite : u.isFinite = true) (finite' : w.isFinite = true) :
    value u < value w ↔ compare (Standing.ofUnpacked u) (Standing.ofUnpacked w) = .lt := by
  rw [Standing.compare_eq_lt_iff]
  have scaled_pos : ∀ {m : ℕ} {e : ℤ}, Fits m e → (0 : ℚ) < m * 2 ^ e := fun fits =>
    mul_pos (by exact_mod_cast fits.pos) (two_zpow_pos _)
  cases canonical with
  | notANumber | infinity => cases finite
  | zero s => cases canonical' with
    | notANumber | infinity => cases finite'
    | zero t => simp [value, Standing.ofUnpacked]
    | finite t fits normal =>
      have := scaled_pos fits
      cases t <;> simp [value, Standing.ofUnpacked, Sign.apply] <;> linarith
  | finite s fits normal => cases canonical' with
    | notANumber | infinity => cases finite'
    | zero t =>
      have := scaled_pos fits
      cases s <;> simp [value, Standing.ofUnpacked, Sign.apply] <;> linarith
    | finite t fits' normal' =>
      have := scaled_pos fits
      have := scaled_pos fits'
      cases s <;> cases t
      · have order := scaled_lt_iff fits' normal' fits normal
        simp only [value, Standing.ofUnpacked, Sign.apply, Int.cast_neg, Int.cast_natCast, neg_mul,
          neg_lt_neg_iff, order, true_and]
        omega
      · simp [value, Standing.ofUnpacked, Sign.apply]
        linarith
      · simp [value, Standing.ofUnpacked, Sign.apply]
        linarith
      · have order := scaled_lt_iff fits normal fits' normal'
        simp only [value, Standing.ofUnpacked, Sign.apply, Int.cast_natCast, order, true_and]
        omega

/-- Finite floats compare as their exact values do. -/
theorem lt_iff_exact (finite : x.isFinite = true) (finite' : y.isFinite = true) :
    x < y ↔ exact x < exact y := by
  rw [Standing.lt_iff (isNaN_of_isFinite finite) (isNaN_of_isFinite finite'), exact_eq_value,
    exact_eq_value, value_lt_iff (canonical x) (canonical y) finite finite']
  rfl

theorem lt_iff_compare : x < y ↔ x.toModel.unpack.compare y.toModel.unpack = some .lt := by
  rw [← beq_iff_eq]
  show decide (x.toModel < y.toModel) = true ↔ _
  rw [decide_eq_true_iff]
  rfl

theorem le_iff_compare :
    x ≤ y ↔ (x.toModel.unpack.compare y.toModel.unpack).any (·.isLE) = true := by
  show decide (x.toModel ≤ y.toModel) = true ↔ _
  rw [decide_eq_true_iff]
  rfl

theorem le_of_lt (less : x < y) : x ≤ y := by
  rw [le_iff_compare, lt_iff_compare.mp less]
  rfl

theorem le_iff_exact (finite : x.isFinite = true) (finite' : y.isFinite = true) :
    x ≤ y ↔ exact x ≤ exact y := by
  have number := isNaN_of_isFinite finite
  have number' := isNaN_of_isFinite finite'
  rw [le_iff_compare, Standing.compare_ofUnpacked number number', ← not_lt,
    ← lt_iff_exact finite' finite, Standing.lt_iff number' number,
    ← @Std.OrientedCmp.gt_iff_lt _ compare]
  exact Ordering.isLE_iff_ne_gt

/-- What lies between two numbers is a number, also if the upper one is an infinity. -/
theorem isFinite_of_between {z : Float} (finite : y.isFinite = true) (low : y ≤ x) (high : x < z) :
    x.isFinite = true := by
  have finite' : y.toModel.unpack.isFinite = true := finite
  have high' := lt_iff_compare.mp high
  rw [le_iff_compare] at low
  show x.toModel.unpack.isFinite = true
  generalize x.toModel.unpack = u at low high'
  generalize y.toModel.unpack = v at low finite'
  generalize z.toModel.unpack = w at high'
  cases u with
  | zero | finite => rfl
  | notANumber => cases high'
  | infinity s => cases s with
    | positive => cases w with
      | infinity t => cases t <;> cases high'
      | notANumber | zero | finite => cases high'
    | negative => cases v with
      | notANumber | infinity => cases finite'
      | zero => cases low
      | finite t => cases t <;> cases low

/-- A number other than zero is one float only. -/
theorem eq_of_exact_eq (finite : x.isFinite = true) (finite' : y.isFinite = true)
    (same : exact x = exact y) (nonzero : exact x ≠ 0) : x = y := by
  have below := mt (lt_iff_exact finite finite').mp same.not_lt
  have above := mt (lt_iff_exact finite' finite).mp same.not_gt
  rw [Standing.lt_iff (isNaN_of_isFinite finite) (isNaN_of_isFinite finite'),
    Standing.compare_eq_lt_iff, Standing.of, Standing.of] at below
  rw [Standing.lt_iff (isNaN_of_isFinite finite') (isNaN_of_isFinite finite),
    Standing.compare_eq_lt_iff, Standing.of, Standing.of] at above
  have nonzero' : exact y ≠ 0 := same ▸ nonzero
  rw [exact_eq_value] at nonzero nonzero'
  refine eq_of_unpack_eq ?_
  -- both are finite and not zero, and their signs, exponents and mantissas are the same
  cases unpacked : x.toModel.unpack with
  | notANumber | infinity | zero => simp [unpacked, value] at nonzero
  | finite s m e pos =>
    cases unpacked' : y.toModel.unpack with
    | notANumber | infinity | zero => simp [unpacked', value] at nonzero'
    | finite t n f pos' =>
      rw [unpacked, unpacked'] at below above
      cases s <;> cases t <;> simp only [Standing.ofUnpacked, true_and] at below above
      · obtain ⟨rfl, rfl⟩ : m = n ∧ e = f := by omega
        rfl
      · omega
      · omega
      · obtain ⟨rfl, rfl⟩ : m = n ∧ e = f := by omega
        rfl

/-! ### Whole parts -/

theorem Dyadic.denominator_pos (d : Dyadic) : 0 < d.denominator :=
  Nat.two_pow_pos _

theorem Dyadic.toRat_eq (d : Dyadic) : d.toRat = d.signed d.numerator / d.denominator := by
  have power : (2 : ℚ) ^ d.exponent = 2 ^ d.exponent.toNat / 2 ^ (-d.exponent).toNat := by
    rw [← zpow_natCast, ← zpow_natCast, ← zpow_sub₀ two_ne_zero]
    congr 1
    omega
  have sign : ∀ n : ℕ, (d.signed n : ℚ) = (if d.negative then -1 else 1) * n := fun n => by
    unfold signed
    split <;> simp
  have numerator : (d.numerator : ℚ) = d.mantissa * 2 ^ d.exponent.toNat := by
    simp [Dyadic.numerator]
  have denominator : (d.denominator : ℚ) = 2 ^ (-d.exponent).toNat := by
    simp [Dyadic.denominator]
  rw [toRat, power, sign, sign, numerator, denominator]
  ring

theorem Dyadic.signed_natAbs {z : ℤ} (sign : d.negative = true ↔ z < 0) :
    d.signed z.natAbs = z := by
  unfold signed
  split
  next negative => rw [Int.ofNat_natAbs_of_nonpos (sign.mp negative).le, Int.neg_neg]
  next nonneg => exact Int.natAbs_of_nonneg (not_lt.mp (mt sign.mpr nonneg))

theorem Dyadic.signed_mul (d : Dyadic) (m n : ℕ) : d.signed (m * n) = d.signed m * n := by
  unfold signed
  split <;> push_cast <;> ring

theorem exact_ofInt {z : ℤ} (small : z.natAbs < 2 ^ 53) : exact (Float.ofInt z) = z := by
  obtain ⟨d, read, sign, whole⟩ := dyadic?_ofInt small
  have pos : (d.denominator : ℚ) ≠ 0 := by exact_mod_cast d.denominator_pos.ne'
  rw [exact_of_dyadic? read, d.toRat_eq, whole, d.signed_mul, Dyadic.signed_natAbs sign]
  push_cast
  exact mul_div_cancel_right₀ _ pos

theorem Dyadic.toRat_of_not_negative (positive : d.negative = false) :
    d.toRat = d.numerator / d.denominator := by
  rw [toRat_eq, signed, positive]
  simp

theorem Dyadic.toRat_of_negative (negative : d.negative = true) :
    d.toRat = -(d.numerator / d.denominator) := by
  rw [toRat_eq, signed, negative]
  simp [neg_div]

theorem Dyadic.magnitudeDown_eq (d : Dyadic) :
    (d.magnitudeDown : ℤ) = ⌊(d.numerator : ℚ) / d.denominator⌋ := by
  rw [Rat.floor_natCast_div_natCast, magnitudeDown, Int.natCast_div]

theorem Dyadic.magnitudeUp_eq (d : Dyadic) :
    (d.magnitudeUp : ℤ) = ⌈(d.numerator : ℚ) / d.denominator⌉ := by
  have pos := d.denominator_pos
  have division := Nat.div_add_mod (d.numerator + (d.denominator - 1)) d.denominator
  have rest := Nat.mod_lt (d.numerator + (d.denominator - 1)) pos
  have pos' : (0 : ℚ) < d.denominator := by exact_mod_cast pos
  have below : d.magnitudeUp * d.denominator < d.numerator + d.denominator := by
    rw [magnitudeUp, Nat.mul_comm]
    omega
  have above : d.numerator ≤ d.magnitudeUp * d.denominator := by
    rw [magnitudeUp, Nat.mul_comm]
    omega
  have below' : (d.magnitudeUp : ℚ) * d.denominator < d.numerator + d.denominator := by
    exact_mod_cast below
  rw [eq_comm, Int.ceil_eq_iff, lt_div_iff₀ pos', div_le_iff₀ pos', Int.cast_natCast]
  exact ⟨by linarith, by exact_mod_cast above⟩

theorem Dyadic.magnitudeNearest_eq (d : Dyadic) :
    (d.magnitudeNearest : ℤ) = ⌊(d.numerator : ℚ) / d.denominator + 1 / 2⌋ := by
  have pos : (d.denominator : ℚ) ≠ 0 := by exact_mod_cast d.denominator_pos.ne'
  have half : (d.numerator : ℚ) / d.denominator + 1 / 2 =
      ((2 * d.numerator + d.denominator : ℕ) : ℤ) / (2 * d.denominator : ℕ) := by
    push_cast
    field_simp
  rw [half, Rat.floor_intCast_div_natCast, magnitudeNearest, Int.natCast_div]

theorem Dyadic.floor_eq (d : Dyadic) : d.floor = ⌊d.toRat⌋ := by
  cases sign : d.negative with
  | false =>
    rw [d.toRat_of_not_negative sign, ← magnitudeDown_eq]
    simp [Dyadic.floor, signed, sign]
  | true =>
    rw [d.toRat_of_negative sign, Int.floor_neg, ← magnitudeUp_eq]
    simp [Dyadic.floor, signed, sign]

/-- Numbers without a fraction are whole. -/
theorem Dyadic.floor_cast (whole : 0 ≤ d.exponent) : (d.floor : ℚ) = d.toRat := by
  have one : d.denominator = 1 := by
    rw [denominator, Int.toNat_of_nonpos (by omega), Nat.pow_eq, pow_zero]
  rw [floor_eq, toRat_eq, one, Nat.cast_one, div_one, Int.floor_intCast]

/-! ### Rounding to whole numbers -/

/-- All mantissas have at most 53 bits. -/
theorem Dyadic.mantissa_lt (read : dyadic? x = some d) : d.mantissa < 2 ^ 53 := by
  have form := canonical x
  rw [dyadic?_eq] at read
  cases unpacked : x.toModel.unpack with
  | notANumber | infinity => rw [unpacked] at read; cases read
  | zero s => rw [unpacked] at read; cases read; exact Nat.two_pow_pos 53
  | finite s m e pos =>
    rw [unpacked] at read form
    cases read
    cases form with
    | finite _ fits => exact fits.mantissa

theorem Dyadic.numerator_of_fraction (fraction : d.exponent < 0) : d.numerator = d.mantissa := by
  rw [numerator, Int.toNat_of_nonpos fraction.le]
  exact Nat.mul_one _

theorem Dyadic.magnitudeDown_le (fraction : d.exponent < 0) : d.magnitudeDown ≤ d.mantissa := by
  rw [magnitudeDown, numerator_of_fraction fraction]
  exact Nat.div_le_self _ _

theorem Dyadic.magnitudeUp_le (fraction : d.exponent < 0) : d.magnitudeUp ≤ d.mantissa := by
  have pos := d.denominator_pos
  have grows := Nat.le_mul_of_pos_right d.mantissa pos
  rw [magnitudeUp, numerator_of_fraction fraction, ← Nat.lt_succ_iff,
    Nat.div_lt_iff_lt_mul pos, Nat.succ_mul]
  omega

/-- The magnitude of the number rounded down is rounded up if the number is negative. -/
theorem Dyadic.floorMagnitude_le (fraction : d.exponent < 0) :
    (if d.negative then d.magnitudeUp else d.magnitudeDown) ≤ d.mantissa := by
  split
  · exact magnitudeUp_le fraction
  · exact magnitudeDown_le fraction

theorem Dyadic.magnitudeNearest_le (fraction : d.exponent < 0) :
    d.magnitudeNearest ≤ d.mantissa := by
  have pos := d.denominator_pos
  have grows := Nat.le_mul_of_pos_right d.mantissa pos
  have twice : (d.mantissa + 1) * (2 * d.denominator) =
      2 * (d.mantissa * d.denominator) + 2 * d.denominator := by ring
  rw [magnitudeNearest, numerator_of_fraction fraction, ← Nat.lt_succ_iff,
    Nat.div_lt_iff_lt_mul (by omega), Nat.succ_eq_add_one, twice]
  omega

/-- A whole number is the float of that number, except that it keeps the sign of zero. -/
theorem toWhole_cases (d : Dyadic) (n : ℕ) :
    d.toWhole n = Float.ofInt (d.signed n) ∨ d.toWhole n = -0.0 ∧ d.signed n = 0 := by
  unfold Dyadic.toWhole Dyadic.signed
  cases d.negative with
  | false => exact .inl rfl
  | true =>
    match n with
    | 0 => exact .inr ⟨rfl, rfl⟩
    | n + 1 => exact .inl rfl

theorem Dyadic.natAbs_signed (d : Dyadic) (n : ℕ) : (d.signed n).natAbs = n := by
  unfold signed
  split <;> simp

theorem exact_toWhole (small : n < 2 ^ 53) (d : Dyadic) :
    (d.toWhole n).isFinite = true ∧ exact (d.toWhole n) = d.signed n := by
  rcases toWhole_cases d n with same | ⟨zero, none⟩
  · have small' : (d.signed n).natAbs < 2 ^ 53 := by rwa [d.natAbs_signed]
    rw [same]
    exact ⟨isFinite_ofInt small', exact_ofInt small'⟩
  · rw [zero, none]
    exact ⟨by decide +kernel, by decide +kernel⟩

/-- Rounding to a whole number leaves whole numbers alone, and gives the sign of the number to the
magnitude that is chosen for a fraction. -/
theorem exact_wholeBy (magnitude : Dyadic → ℕ) (read : dyadic? x = some d)
    (bounded : d.exponent < 0 → magnitude d ≤ d.mantissa) :
    (wholeBy magnitude x).isFinite = true ∧ exact (wholeBy magnitude x) =
      if 0 ≤ d.exponent then d.toRat else d.signed (magnitude d) := by
  simp only [wholeBy, read]
  split
  next => exact ⟨isFinite_iff.mpr ⟨d, read⟩, exact_of_dyadic? read⟩
  next fraction =>
    exact exact_toWhole ((bounded (not_le.mp fraction)).trans_lt (Dyadic.mantissa_lt read)) d

theorem exact_floor (finite : x.isFinite = true) :
    (floor x).isFinite = true ∧ exact (floor x) = ⌊exact x⌋ := by
  obtain ⟨d, read⟩ := isFinite_iff.mp finite
  obtain ⟨finite', value⟩ := exact_wholeBy
    (fun d => if d.negative then d.magnitudeUp else d.magnitudeDown) read Dyadic.floorMagnitude_le
  refine ⟨finite', ?_⟩
  rw [floor, value, exact_of_dyadic? read]
  split
  next whole => rw [← d.floor_eq, Dyadic.floor_cast whole]
  next => rw [← d.floor_eq]; rfl

/-- Without a sign, or with that of zero, a number is its magnitude. -/
theorem Dyadic.numerator_eq_zero (nonneg : 0 ≤ d.toRat) (negative : d.negative = true) :
    d.numerator = 0 := by
  have pos : (0 : ℚ) < d.denominator := by exact_mod_cast d.denominator_pos
  rw [d.toRat_of_negative negative, neg_nonneg, div_le_iff₀ pos, zero_mul] at nonneg
  exact Nat.le_zero.mp (by exact_mod_cast nonneg)

theorem Dyadic.toRat_of_nonneg (nonneg : 0 ≤ d.toRat) : d.toRat = d.numerator / d.denominator := by
  cases negative : d.negative with
  | false => exact d.toRat_of_not_negative negative
  | true =>
    rw [d.toRat_of_negative negative, numerator_eq_zero nonneg negative]
    simp

theorem Dyadic.signed_magnitudeDown (nonneg : 0 ≤ d.toRat) :
    d.signed d.magnitudeDown = ⌊d.toRat⌋ := by
  rw [toRat_of_nonneg nonneg, ← magnitudeDown_eq, signed]
  split
  next negative => simp [magnitudeDown, numerator_eq_zero nonneg negative]
  next => rfl

theorem Dyadic.signed_magnitudeNearest (nonneg : 0 ≤ d.toRat) :
    d.signed d.magnitudeNearest = ⌊d.toRat + 1 / 2⌋ := by
  rw [toRat_of_nonneg nonneg, ← magnitudeNearest_eq, signed]
  split
  next negative =>
    have pos := d.denominator_pos
    have none : d.magnitudeNearest = 0 := by
      rw [magnitudeNearest, numerator_eq_zero nonneg negative]
      exact Nat.div_eq_of_lt (by omega)
    simp [none]
  next => rfl

theorem exact_truncate (finite : x.isFinite = true) (nonneg : 0 ≤ exact x) :
    (truncate x).isFinite = true ∧ exact (truncate x) = ⌊exact x⌋ := by
  obtain ⟨d, read⟩ := isFinite_iff.mp finite
  rw [exact_of_dyadic? read] at nonneg ⊢
  obtain ⟨finite', value⟩ := exact_wholeBy _ read Dyadic.magnitudeDown_le
  refine ⟨finite', value.trans ?_⟩
  split
  next whole => rw [← d.floor_eq, Dyadic.floor_cast whole]
  next => rw [Dyadic.signed_magnitudeDown nonneg]

/-- Rounding goes to the nearest whole number, a half up. -/
theorem exact_round (finite : x.isFinite = true) (nonneg : 0 ≤ exact x) :
    (round x).isFinite = true ∧ exact (round x) = ⌊exact x + 1 / 2⌋ := by
  obtain ⟨d, read⟩ := isFinite_iff.mp finite
  rw [exact_of_dyadic? read] at nonneg ⊢
  obtain ⟨finite', value⟩ := exact_wholeBy _ read Dyadic.magnitudeNearest_le
  refine ⟨finite', value.trans ?_⟩
  split
  next whole =>
    rw [← Dyadic.floor_cast whole, Int.floor_intCast_add]
    norm_num
  next => rw [Dyadic.signed_magnitudeNearest nonneg]

theorem toInt64_eq_floor (finite : x.isFinite = true) (nonneg : 0 ≤ exact x)
    (small : exact x < 2 ^ 63) : toInt64 x = ⌊exact x⌋ := by
  obtain ⟨d, read⟩ := isFinite_iff.mp finite
  rw [exact_of_dyadic? read] at nonneg small ⊢
  have low : 0 ≤ ⌊d.toRat⌋ := Int.floor_nonneg.mpr nonneg
  have high : ⌊d.toRat⌋ < 2 ^ 63 := Int.floor_lt.mpr (by exact_mod_cast small)
  simp only [toInt64, read, Dyadic.truncate, Dyadic.signed_magnitudeDown nonneg]
  unfold clampInt64 minInt64 maxInt64
  omega

/-! ### Integers -/

theorem floor_ofInt {z : ℤ} (small : z.natAbs < 2 ^ 53) :
    floor (Float.ofInt z) = Float.ofInt z := by
  have finite := isFinite_ofInt small
  have value := exact_ofInt small
  obtain ⟨finite', value'⟩ := exact_floor finite
  by_cases zero : z = 0
  · rw [zero]
    exact floor_ofNat (by decide)
  · refine eq_of_exact_eq finite' finite ?_ ?_
    · rw [value', value, Int.floor_intCast]
    · rw [value', value, Int.floor_intCast]
      exact_mod_cast zero

theorem toInt64_ofInt {z : ℤ} (small : z.natAbs < 2 ^ 53) : toInt64 (Float.ofInt z) = z := by
  obtain ⟨d, read, sign, whole⟩ := dyadic?_ofInt small
  simp only [toInt64, read, Dyadic.truncate, Dyadic.magnitudeDown_of_whole whole,
    Dyadic.signed_natAbs sign]
  unfold clampInt64 minInt64 maxInt64
  omega

theorem floor_floor (x : Float) : floor (floor x) = floor x := by
  cases read : dyadic? x with
  | none => simp only [floor, wholeBy, read]
  | some d =>
    by_cases whole : 0 ≤ d.exponent
    · have same : floor x = x := by simp only [floor, wholeBy, read, if_pos whole]
      rw [same, same]
    · have rounded :
          floor x = d.toWhole (if d.negative then d.magnitudeUp else d.magnitudeDown) := by
        simp only [floor, wholeBy, read, if_neg whole]
      have small := (Dyadic.floorMagnitude_le (not_le.mp whole)).trans_lt (Dyadic.mantissa_lt read)
      rw [rounded]
      rcases toWhole_cases d _ with same | ⟨zero, -⟩
      · rw [same]
        exact floor_ofInt (by rwa [d.natAbs_signed])
      · rw [zero]
        decide +kernel

end Recalc.Number
