import Mathlib
import Recalc.Calculation.Pass

/-!
# Numbers that are no distance apart

Subtraction of floats rounds, but never a difference to zero: unless one of two numbers is a NaN,
they are at distance zero only if they are equal or are both a zero
(`eq_or_zeros_of_not_lt_distance`). This rests on the bounds of binary floats, a mantissa below
`2 ^ 53` and an exponent not below `-1074`: rounding keeps a positive mantissa positive in them
(`away_round`), and what is in them is not packed as a zero (`Away.unpack_pack`).
-/
namespace Recalc.Distance

open Float.Model Float.Model.UnpackedFloat

/-! ### Floats that are away from zero -/

/-- A mantissa and an exponent in the bounds of binary floats. -/
structure Fits (m : Nat) (e : Int) : Prop where
  pos : 0 < m
  mantissa : m < 2 ^ 53
  exponent : -1074 ≤ e

/-- Whether a float is an infinity or in the bounds of binary floats, with some sign. -/
inductive Away (s : Sign) : UnpackedFloat → Prop where
  | infinity : Away s (.infinity s)
  | finite {m : Nat} {e : Int} (fits : Fits m e) : Away s (.finite s m e fits.pos)

/-! ### Rounding -/

theorem targetExponent_eq (t : Int) : Format.binary64.targetExponent t = max (t - 53) (-1074) :=
  rfl

theorem mantissa_shiftRight (em : ExtendedMantissa) (n : Nat) :
    (em >>> n).mantissa = em.mantissa / 2 ^ n := by
  -- a shift is repeated, and each time halves the mantissa
  show (n.repeat ExtendedMantissa.shiftRightOne em).mantissa = _
  induction n with
  | zero => simp [Nat.repeat]
  | succ n ih =>
    show (n.repeat ExtendedMantissa.shiftRightOne em).mantissa / 2 = _
    rw [ih, Nat.div_div_eq_div_mul, Nat.pow_succ]

theorem le_roundedMantissa (em : ExtendedMantissa) : em.mantissa ≤ em.roundedMantissa := by
  obtain ⟨m, round, sticky⟩ := em
  cases round <;> cases sticky <;>
    simp [ExtendedMantissa.roundedMantissa, ExtendedMantissa.accuracy, Accuracy.roundToNearestEven]

/-- Dropping all bits but the first 53 keeps a mantissa positive. -/
theorem fits_dropped {m : Nat} {e : Int} (pos : 0 < m) (low : -1074 ≤ e) :
    Fits (m / 2 ^ (m.log2 - 52)) (e + (m.log2 - 52 : Nat)) where
  pos := by
    refine Nat.div_pos ?_ (Nat.two_pow_pos _)
    exact (Nat.pow_le_pow_right Nat.two_pos (Nat.sub_le _ 52)).trans
      (Nat.log2_self_le (Nat.ne_of_gt pos))
  mantissa := by
    rw [Nat.div_lt_iff_lt_mul (Nat.two_pow_pos _), ← Nat.pow_add]
    refine Nat.lt_log2_self.trans_le (Nat.pow_le_pow_right Nat.two_pos ?_)
    omega
  exponent := by omega

theorem fits_shiftToTargetExponent {m : Nat} {e : Int} (pos : 0 < m) (low : -1074 ≤ e) :
    let shifted := shiftToTargetExponent Format.binary64 m e .exact
    Fits shifted.1.mantissa shifted.2 := by
  have amount : (Format.binary64.targetExponent (totalExponent m e) - e).toNat = m.log2 - 52 := by
    rw [targetExponent_eq, totalExponent]
    omega
  simp only [shiftToTargetExponent, shiftToExponent, amount, mantissa_shiftRight]
  exact fits_dropped pos low

theorem away_roundWithAccuracy (s : Sign) {m : Nat} {e : Int} (pos : 0 < m) (low : -1074 ≤ e) :
    Away s (roundWithAccuracy Format.binary64 s m e .exact) := by
  have first := fits_shiftToTargetExponent pos low
  -- rounding up may have made the mantissa one bit longer, so it is shifted once more
  have second :=
    fits_shiftToTargetExponent (first.pos.trans_le (le_roundedMantissa _)) first.exponent
  unfold roundWithAccuracy
  dsimp only at second ⊢
  rw [dif_neg (Nat.ne_of_gt second.pos)]
  exact .finite second

theorem away_round (s : Sign) {m : Nat} {e : Int} (pos : 0 < m) (low : -1074 ≤ e) :
    Away s (round Format.binary64 s m e) := by
  refine away_roundWithAccuracy s ?_ ?_
  · rw [Nat.shiftLeft_eq]
    exact Nat.mul_pos pos (Nat.two_pow_pos _)
  · rw [targetExponent_eq]
    omega

/-! ### Packing -/

theorem toNat_append_one (m : BitVec 52) : (1#1 ++ m).toNat = 2 ^ 52 + m.toNat := by
  rw [BitVec.toNat_append, ← Nat.shiftLeft_add_eq_or_of_lt m.isLt]
  rfl

theorem exponentBias_eq : (Format.binary64.exponentBias : Int) = 1023 :=
  rfl

/-- Whether a float is in the form that unpacking gives: only the least exponent goes with a
mantissa that is not full. -/
inductive Canonical : UnpackedFloat → Prop where
  | notANumber : Canonical .notANumber
  | infinity (s : Sign) : Canonical (.infinity s)
  | zero (s : Sign) : Canonical (.zero s)
  | finite (s : Sign) {m : Nat} {e : Int} (fits : Fits m e) (normal : 2 ^ 52 ≤ m ∨ e = -1074) :
      Canonical (.finite s m e fits.pos)

theorem canonical_unpack (b : BitVec 64) : Canonical (UnpackedFloat.unpack Format.binary64 b) := by
  fun_cases UnpackedFloat.unpack Format.binary64 b with
  | case1 => exact .infinity _
  | case2 => exact .notANumber
  | case3 => exact .zero _
  | case4 m e exponent signVec sign top bottom nonzero =>
    -- a subnormal number: without the implicit bit, at the least exponent
    have pos : m.toNat ≠ 0 := fun zero => nonzero (BitVec.eq_of_toNat_eq zero)
    have small : m.toNat < 2 ^ 52 := m.isLt
    have lowest : exponent = -1075 := by
      simp only [exponent, exponentBias_eq, show e.toNat = 0 by rw [bottom]; rfl]
      rfl
    exact .finite sign ⟨by omega, by omega, by omega⟩ (.inr (by omega))
  | case5 m e exponent signVec sign top bottom =>
    -- a normal number: the implicit bit fills the mantissa
    have pos : e.toNat ≠ 0 := fun zero => bottom (BitVec.eq_of_toNat_eq zero)
    have small : m.toNat < 2 ^ 52 := m.isLt
    have value : exponent = e.toNat - 1075 := by
      simp only [exponent, exponentBias_eq]
      rfl
    have mantissa : (1#1 ++ m).toNat = 2 ^ 52 + m.toNat := toNat_append_one m
    exact .finite sign ⟨by omega, by omega, by omega⟩ (.inl (by omega))

/-- Components that encode neither a NaN nor a zero unpack to a float away from zero. -/
theorem away_unpack_packComponents (s : Sign) {e : BitVec 11} {m : BitVec 52}
    (number : e = -1#11 → m = 0#52) (nonzero : e = 0#11 → m ≠ 0#52) :
    Away s (UnpackedFloat.unpack Format.binary64 (packComponents Format.binary64 s e m)) := by
  -- the bounds are those of everything that is unpacked, so only the kind is left to see
  have canonical := canonical_unpack (packComponents Format.binary64 s e m)
  unfold UnpackedFloat.unpack at canonical ⊢
  simp only [unpackExponent_packComponents, unpackMantissa_packComponents,
    unpackSign_packComponents, Sign.ofBitVec_toBitVec] at canonical ⊢
  split
  next top => rw [if_pos (number top)]; exact .infinity
  next top =>
    rw [if_neg top] at canonical
    split
    next bottom =>
      rw [if_pos bottom, dif_neg (nonzero bottom)] at canonical
      rw [dif_neg (nonzero bottom)]
      cases canonical with
      | finite _ fits => exact .finite fits
    next bottom =>
      rw [if_neg bottom] at canonical
      cases canonical with
      | finite _ fits => exact .finite fits

theorem pack_finite (s : Sign) {m : Nat} {e : Int} (fits : Fits m e) :
    UnpackedFloat.pack Format.binary64 (.finite s m e fits.pos) =
      if 972 ≤ e then packedInfinity Format.binary64 s
      else if 2 ^ 52 ≤ m then
        packComponents Format.binary64 s (BitVec.ofNat 11 (e + 1075).toNat) (BitVec.ofNat 52 m)
      else packComponents Format.binary64 s 0#11 (BitVec.ofNat 52 m) := by
  obtain ⟨pos, mantissa, low⟩ := fits
  have biased : (e + Format.binary64.exponentBias +
      Format.binary64.mantissaBitsWithoutImplicit).toNat = (e + 1075).toNat := by
    rw [exponentBias_eq]
    exact congrArg Int.toNat (Int.add_assoc e 1023 52)
  have log : m.log2 < 53 := (Nat.log2_lt (Nat.ne_of_gt pos)).mpr mantissa
  have normal : m.log2 < 52 ↔ m < 2 ^ 52 := Nat.log2_lt (Nat.ne_of_gt pos)
  unfold UnpackedFloat.pack
  simp only [biased]
  refine ite_congr (propext ?_) (fun _ => rfl) fun _ =>
    ite_congr (propext ?_) (fun _ => rfl) fun _ => rfl
  · show 2048 ≤ (e + 1075).toNat + 1 ↔ _
    omega
  · show m.log2 + 1 = 53 ↔ _
    omega

/-- Packing turns no float into a zero that was away from it. -/
theorem Away.unpack_pack {s : Sign} {u : UnpackedFloat} (away : Away s u) :
    Away s (UnpackedFloat.unpack Format.binary64 (UnpackedFloat.pack Format.binary64 u)) := by
  have infinite : Away s (UnpackedFloat.unpack Format.binary64
      (packedInfinity Format.binary64 s)) :=
    away_unpack_packComponents s (fun _ => rfl) (fun top => absurd top (by decide))
  cases away with
  | infinity => exact infinite
  | @finite m e fits =>
    have low := fits.exponent
    rw [pack_finite s fits]
    split
    next => exact infinite
    next bound =>
      split
      next =>
        -- a normal number: its exponent field is neither full nor zero
        have reads : (BitVec.ofNat 11 (e + 1075).toNat).toNat = (e + 1075).toNat := by
          rw [BitVec.toNat_ofNat, Nat.mod_eq_of_lt (by omega)]
        refine away_unpack_packComponents s (fun top => ?_) (fun bottom => ?_)
        · have : (e + 1075).toNat = 2047 := reads.symm.trans (congrArg BitVec.toNat top)
          omega
        · have : (e + 1075).toNat = 0 := reads.symm.trans (congrArg BitVec.toNat bottom)
          omega
      next small =>
        -- a subnormal number: its mantissa field is the whole mantissa
        refine away_unpack_packComponents s (fun top => absurd top (by decide)) (fun _ zero => ?_)
        have read := congrArg BitVec.toNat zero
        rw [BitVec.toNat_ofNat, Nat.mod_eq_of_lt (Nat.lt_of_not_le small)] at read
        exact absurd read (Nat.ne_of_gt fits.pos)

/-! ### Differences -/

theorem eq_of_apply_sub_apply {s t : Sign} {m n : Nat} (pos : 0 < m)
    (same : s.apply m - t.apply n = 0) : s = t ∧ m = n := by
  cases s <;> cases t <;> simp only [Sign.apply] at same
  · exact ⟨rfl, by omega⟩
  · omega
  · omega
  · exact ⟨rfl, by omega⟩

/-- Of two floats in canonical form only one can have this value. -/
theorem eq_of_aligned {m n : Nat} {e f : Int} (fits : Fits m e) (normal : 2 ^ 52 ≤ n ∨ f = -1074)
    (ordered : e ≤ f) (same : m = n <<< (f - e).toNat) : m = n ∧ e = f := by
  obtain rfl | less := ordered.eq_or_lt
  · simpa using same
  · exfalso
    have low := fits.exponent
    have long : 2 ^ 52 * 2 ^ 1 ≤ n * 2 ^ (f - e).toNat := Nat.mul_le_mul
      (normal.resolve_right (by omega)) (Nat.pow_le_pow_right Nat.two_pos (by omega))
    rw [Nat.shiftLeft_eq] at same
    rw [← same] at long
    exact absurd fits.mantissa (Nat.not_lt.mpr long)

theorem away_normalize {m : Int} {e : Int} (nonzero : m ≠ 0) (low : -1074 ≤ e) (z : Sign) :
    ∃ s, Away s (UnpackedFloat.normalize Format.binary64 m e z) := by
  unfold UnpackedFloat.normalize
  split
  next less =>
    have := Int.compare_eq_lt.mp less
    exact ⟨_, away_round _ (by omega) low⟩
  next same => exact absurd (Int.compare_eq_eq.mp same) nonzero
  next more =>
    have := Int.compare_eq_gt.mp more
    exact ⟨_, away_round _ (by omega) low⟩

theorem away_sub_finite {s t : Sign} {m n : Nat} {e f : Int} (fits : Fits m e) (fits' : Fits n f)
    (normal : 2 ^ 52 ≤ m ∨ e = -1074) (normal' : 2 ^ 52 ≤ n ∨ f = -1074)
    (ne : UnpackedFloat.finite s m e fits.pos ≠ .finite t n f fits'.pos) :
    ∃ r, Away r (UnpackedFloat.sub Format.binary64 (.finite s m e fits.pos)
      (.finite t n f fits'.pos)) := by
  have low := fits.exponent
  have low' := fits'.exponent
  refine away_normalize (fun same => ne ?_) (by omega) _
  have shifted : 0 < m <<< (e - min e f).toNat := by
    rw [Nat.shiftLeft_eq]
    exact Nat.mul_pos fits.pos (Nat.two_pow_pos _)
  obtain ⟨rfl, aligned⟩ := eq_of_apply_sub_apply shifted same
  -- one mantissa is the other one shifted, which canonical forms allow only by nothing
  obtain ordered | ordered := Int.le_total e f
  · rw [Int.min_eq_left ordered, Int.sub_self] at aligned
    obtain ⟨rfl, rfl⟩ := eq_of_aligned fits normal' ordered aligned
    rfl
  · rw [Int.min_eq_right ordered, Int.sub_self] at aligned
    obtain ⟨rfl, rfl⟩ := eq_of_aligned fits' normal ordered aligned.symm
    rfl

/-- The difference of two floats that are neither equal nor both a zero is away from zero. -/
theorem away_sub {u w : UnpackedFloat} (canonical : Canonical u) (canonical' : Canonical w)
    (number : u.isNaN = false) (number' : w.isNaN = false) (ne : u ≠ w)
    (nonzero : ¬((∃ s, u = .zero s) ∧ ∃ s, w = .zero s)) :
    ∃ s, Away s (UnpackedFloat.sub Format.binary64 u w) := by
  cases canonical with
  | notANumber => cases number
  | infinity s =>
    cases canonical' with
    | notANumber => cases number'
    | infinity t =>
      cases s <;> cases t <;> first | exact absurd rfl ne | exact ⟨_, .infinity⟩
    | zero t => exact ⟨_, .infinity⟩
    | finite t fits normal => exact ⟨_, .infinity⟩
  | zero s =>
    cases canonical' with
    | notANumber => cases number'
    | infinity t => exact ⟨_, .infinity⟩
    | zero t => exact absurd ⟨⟨s, rfl⟩, t, rfl⟩ nonzero
    | finite t fits normal => exact ⟨_, .finite fits⟩
  | finite s fits normal =>
    cases canonical' with
    | notANumber => cases number'
    | infinity t => exact ⟨_, .infinity⟩
    | zero t => exact ⟨_, .finite fits⟩
    | finite t fits' normal' => exact away_sub_finite fits fits' normal normal' ne

/-! ### Comparisons with zero -/

theorem Away.abs {s : Sign} {u : UnpackedFloat} (away : Away s u) : Away .positive u.abs := by
  cases away with
  | infinity => exact .infinity
  | finite fits => exact .finite fits

theorem Away.zero_lt {s : Sign} {u : UnpackedFloat} (away : Away .positive u) :
    UnpackedFloat.lt (.zero s) u = true := by
  cases away <;> rfl

theorem eq_of_unpack_eq {x y : Float} (same : x.toModel.unpack = y.toModel.unpack) : x = y :=
  Float.toBits_inj.mp (UInt64.toBitVec_inj.mp
    ((unpack_inj_of_valid x.toModel.valid y.toModel.valid).mp same))

theorem canonical (x : Float) : Canonical x.toModel.unpack :=
  canonical_unpack _

theorem isNaN_of_isFinite {x : Float} (finite : x.isFinite = true) : x.isNaN = false := by
  have number : x.toModel.unpack.isFinite = true := finite
  show x.toModel.unpack.isNaN = false
  cases same : x.toModel.unpack with
  | notANumber => rw [same] at number; cases number
  | _ => rfl

theorem beq_zero_iff {x : Float} : (x == 0) = true ↔ ∃ s, x.toModel.unpack = .zero s := by
  have same : (x == 0) = UnpackedFloat.beq x.toModel.unpack (.zero .positive) := rfl
  rw [same]
  generalize x.toModel.unpack = u
  cases u with
  | zero s => exact ⟨fun _ => ⟨s, rfl⟩, fun _ => rfl⟩
  | notANumber => exact ⟨nofun, nofun⟩
  | infinity s => cases s <;> exact ⟨nofun, nofun⟩
  | finite s m e pos => cases s <;> exact ⟨nofun, nofun⟩

theorem eq_or_zeros_of_beq {x y : Float} (equal : (x == y) = true) :
    x = y ∨ (x == 0) = true ∧ (y == 0) = true := by
  rcases (Float.beq_iff_ne_nan_and_eq.mp equal).2.2 with same | ⟨rfl, rfl⟩ | ⟨rfl, rfl⟩
  · exact .inl same
  · exact .inr ⟨rfl, rfl⟩
  · exact .inr ⟨rfl, rfl⟩

theorem lt_of_away {x t : Float} (zero : (t == 0) = true) (away : Away .positive x.toModel.unpack) :
    t < x := by
  obtain ⟨s, bits⟩ := beq_zero_iff.mp zero
  have less := away.zero_lt (s := s)
  rw [← bits] at less
  exact decide_eq_true less

/-- A float that is away from zero is so by more than zero. -/
theorem lt_abs_of_away {x t : Float} {s : Sign} (zero : (t == 0) = true)
    (away : Away s x.toModel.unpack) : t < x.abs :=
  lt_of_away zero away.abs.unpack_pack

theorem lt_infinity {t : Float} (zero : (t == 0) = true) : t < 1.0 / 0.0 := by
  refine lt_of_away zero ?_
  have top : ((1.0 : Float) / 0.0).toModel.unpack = .infinity .positive := by rfl
  rw [top]
  exact .infinity

/-- What is less than some float is less than the infinite one. -/
theorem lt_infinity_of_lt {t x : Float} (less : t < x) : t < 1.0 / 0.0 := by
  have bits : UnpackedFloat.lt t.toModel.unpack x.toModel.unpack = true := of_decide_eq_true less
  have top : ((1.0 : Float) / 0.0).toModel.unpack = .infinity .positive := by rfl
  suffices below : UnpackedFloat.lt t.toModel.unpack (.infinity .positive) = true by
    rw [← top] at below
    exact decide_eq_true below
  generalize t.toModel.unpack = u at bits ⊢
  generalize x.toModel.unpack = w at bits
  cases u with
  | notANumber => cases bits
  | infinity s =>
    cases s with
    | positive => cases w with
      | infinity t => cases t <;> cases bits
      | _ => cases bits
    | negative => rfl
  | _ => rfl

theorem beq_zero_of_not_lt_abs {x t : Float} (zero : (t == 0) = true) (still : ¬t < x.abs)
    (number : x.isNaN = false) : (x == 0) = true := by
  have number' : x.toModel.unpack.isNaN = false := number
  have near : ∀ s, ¬Away s x.toModel.unpack := fun s away => still (lt_abs_of_away zero away)
  have form := canonical x
  rw [beq_zero_iff]
  generalize x.toModel.unpack = u at *
  cases form with
  | notANumber => cases number'
  | infinity s => exact absurd .infinity (near s)
  | zero s => exact ⟨s, rfl⟩
  | finite s fits => exact absurd (.finite fits) (near s)

/-- Numbers at distance zero are equal or both a zero. -/
theorem eq_or_zeros_of_not_lt_distance {x y t : Float} (zero : (t == 0) = true)
    (still : ¬t < (x - y).abs) (numberX : x.isNaN = false) (numberY : y.isNaN = false) :
    x = y ∨ (x == 0) = true ∧ (y == 0) = true := by
  by_contra apart
  obtain ⟨ne, nonzero⟩ := not_or.mp apart
  rw [beq_zero_iff, beq_zero_iff] at nonzero
  obtain ⟨s, away⟩ := away_sub (canonical x) (canonical y) numberX numberY
    (fun same => ne (eq_of_unpack_eq same)) nonzero
  exact still (lt_abs_of_away zero away.unpack_pack)

end Recalc.Distance
