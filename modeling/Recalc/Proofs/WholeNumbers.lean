import Recalc.Calendar.Serial
import Recalc.Proofs.FloatOrder

/-!
# Integers as floats

An integer of at most 53 bits is a float exactly: its mantissa is its magnitude, shifted until the
leading bit stands in the first of 53 places (`unpack_ofInt`). So such integers come back from the
float that they became (`dyadic?_ofInt`), rounding them down changes nothing (`floor_ofNat`), and
floats have them in their order (`ofInt_lt_iff`).
-/
namespace Recalc.Number

open Float.Model Float.Model.UnpackedFloat Distance

/-! ### Rounding that changes nothing -/

theorem repeat_shiftRightOne (m k : Nat) :
    k.repeat ExtendedMantissa.shiftRightOne ⟨m * 2 ^ k, false, false⟩ = ⟨m, false, false⟩ := by
  -- the last shift drops a zero of twice the mantissa
  induction k generalizing m with
  | zero => simp [Nat.repeat]
  | succ k ih =>
    have doubled : m * 2 ^ (k + 1) = (2 * m) * 2 ^ k := by
      rw [Nat.pow_succ, Nat.mul_comm (2 ^ k), ← Nat.mul_assoc, Nat.mul_comm m]
    rw [Nat.repeat, doubled, ih]
    simp [ExtendedMantissa.shiftRightOne]

theorem log2_mul_two_pow {m : Nat} (pos : 0 < m) (k : Nat) : (m * 2 ^ k).log2 = m.log2 + k := by
  induction k with
  | zero => simp
  | succ k ih =>
    have power : 0 < m * 2 ^ k := Nat.mul_pos pos (Nat.two_pow_pos k)
    rw [Nat.pow_succ, ← Nat.mul_assoc, Nat.mul_comm _ 2, Nat.log2_two_mul (by omega), ih]
    omega

/-- The bits below a full mantissa are dropped, and if they are zeros nothing is lost. -/
theorem shiftToTargetExponent_exact {m : Nat} (full : m.log2 = 52) (k : Nat) {e : Int}
    (low : -1074 ≤ e + k) :
    shiftToTargetExponent Format.binary64 (m * 2 ^ k) e .exact = (⟨m, false, false⟩, e + k) := by
  have pos : 0 < m := Nat.pos_of_ne_zero fun zero => by simp [zero] at full
  have amount : (Format.binary64.targetExponent (totalExponent (m * 2 ^ k) e) - e).toNat = k := by
    rw [targetExponent_eq, totalExponent, log2_mul_two_pow pos, full]
    omega
  simp only [shiftToTargetExponent, shiftToExponent, amount]
  exact congrArg (·, e + k) (repeat_shiftRightOne m k)

theorem roundWithAccuracy_exact (s : Sign) {m : Nat} (full : m.log2 = 52) (pos : 0 < m) (k : Nat)
    {e : Int} (low : -1074 ≤ e + k) :
    roundWithAccuracy Format.binary64 s (m * 2 ^ k) e .exact = .finite s m (e + k) pos := by
  -- the mantissa that is left is full, so the second shift does not move it
  have second := shiftToTargetExponent_exact full 0 (e := e + k) (by omega)
  simp only [Nat.pow_zero, Nat.mul_one, Int.natCast_zero, Int.add_zero] at second
  unfold roundWithAccuracy
  rw [shiftToTargetExponent_exact full k low]
  simp only [ExtendedMantissa.roundedMantissa, ExtendedMantissa.accuracy,
    Accuracy.roundToNearestEven, second]
  rw [dif_neg (Nat.ne_of_gt pos)]

/-- A number with a full mantissa is what it was after packing. -/
theorem unpack_pack_full (s : Sign) {m : Nat} (full : m.log2 = 52) (pos : 0 < m) {e : Int}
    (low : -1074 ≤ e) (high : e ≤ 971) :
    UnpackedFloat.unpack Format.binary64 (UnpackedFloat.pack Format.binary64 (.finite s m e pos)) =
      .finite s m e pos := by
  have range := (Nat.log2_eq_iff (Nat.ne_of_gt pos)).mp full
  have fits : Fits m e := ⟨pos, range.2, low⟩
  have field : (BitVec.ofNat 11 (e + 1075).toNat).toNat = (e + 1075).toNat := by
    rw [BitVec.toNat_ofNat, Nat.mod_eq_of_lt (by omega)]
  -- the stored exponent is neither that of infinities nor that of subnormal numbers
  have top : BitVec.ofNat 11 (e + 1075).toNat ≠ -1#11 := fun same => by
    have : (e + 1075).toNat = 2047 := field.symm.trans (congrArg BitVec.toNat same)
    omega
  have bottom : BitVec.ofNat 11 (e + 1075).toNat ≠ 0#11 := fun same => by
    have : (e + 1075).toNat = 0 := field.symm.trans (congrArg BitVec.toNat same)
    omega
  have mantissa : (1#1 ++ BitVec.ofNat 52 m).toNat = m := by
    rw [toNat_append_one, BitVec.toNat_ofNat]
    omega
  have exponent : ((BitVec.ofNat 11 (e + 1075).toNat).toNat : Int) - (1023 + 52) = e := by
    rw [field]
    omega
  rw [pack_finite s fits, if_neg (by omega), if_pos range.1]
  unfold UnpackedFloat.unpack
  simp only [unpackExponent_packComponents, unpackMantissa_packComponents,
    unpackSign_packComponents, Sign.ofBitVec_toBitVec]
  rw [if_neg top, if_neg bottom]
  congr 1

/-! ### The float of a whole number -/

/-- The mantissa of a positive number: its leading bit stands in the first of 53 places. -/
def fullMantissa (n : Nat) : Nat :=
  n * 2 ^ (52 - n.log2)

variable {m n : Nat}

theorem log2_fullMantissa (pos : 0 < n) (small : n < 2 ^ 53) : (fullMantissa n).log2 = 52 := by
  have bits : n.log2 < 53 := (Nat.log2_lt (Nat.ne_of_gt pos)).mpr small
  rw [fullMantissa, log2_mul_two_pow pos]
  omega

theorem fullMantissa_pos (pos : 0 < n) : 0 < fullMantissa n :=
  Nat.mul_pos pos (Nat.two_pow_pos _)

theorem normalize_ofNat (pos : 0 < n) (small : n < 2 ^ 53) :
    UnpackedFloat.normalize Format.binary64 n 0 .positive =
      .finite .positive (fullMantissa n) (n.log2 - 52) (fullMantissa_pos pos) := by
  have bits : n.log2 < 53 := (Nat.log2_lt (Nat.ne_of_gt pos)).mpr small
  have target : Format.binary64.targetExponent (totalExponent n 0) = n.log2 - 52 := by
    rw [targetExponent_eq, totalExponent]
    omega
  have amount : (0 - ((n.log2 : Int) - 52)).toNat = 52 - n.log2 := by omega
  have exponent : (0 : Int) - (52 - n.log2 : Nat) = n.log2 - 52 := by omega
  have rounded := roundWithAccuracy_exact .positive (log2_fullMantissa pos small)
    (fullMantissa_pos pos) 0 (e := (n.log2 : Int) - 52) (by omega)
  simp only [Nat.pow_zero, Nat.mul_one, Int.natCast_zero, Int.add_zero] at rounded
  rw [UnpackedFloat.normalize, Int.compare_eq_gt.mpr (by omega)]
  simp only [Int.toNat_natCast, UnpackedFloat.round, target, decreaseExponent, amount, exponent,
    Nat.shiftLeft_eq]
  exact rounded

theorem unpack_ofNat (pos : 0 < n) (small : n < 2 ^ 53) :
    (Float.ofNat n).toModel.unpack =
      .finite .positive (fullMantissa n) (n.log2 - 52) (fullMantissa_pos pos) := by
  have bits : n.log2 < 53 := (Nat.log2_lt (Nat.ne_of_gt pos)).mpr small
  have full := log2_fullMantissa pos small
  -- a decimal without an exponent is the float of its digits times one
  have product : (Float.ofNat n).toModel =
      Float.Model.ofUInt64 n.toUInt64 * (Float.ofBits 0x3FF0000000000000).toModel := by
    show (Float.ofScientific n false 0).toModel = _
    rw [Float.ofScientific, dif_pos ⟨small, by omega⟩]
    rfl
  have one : (Float.ofBits 0x3FF0000000000000).toModel.unpack =
      .finite .positive (2 ^ 52) (-52) (Nat.two_pow_pos 52) := by
    rfl
  have digits : (Float.Model.ofUInt64 n.toUInt64).unpack =
      .finite .positive (fullMantissa n) (n.log2 - 52) (fullMantissa_pos pos) := by
    show UnpackedFloat.unpack Format.binary64 (UnpackedFloat.pack Format.binary64
      (UnpackedFloat.normalize Format.binary64 n.toUInt64.toNat 0 .positive)) = _
    have read : n.toUInt64.toNat = n := by
      rw [UInt64.toNat_ofNat']
      exact Nat.mod_eq_of_lt (by omega)
    rw [read, normalize_ofNat pos small, unpack_pack_full _ full _ (by omega) (by omega)]
  rw [product]
  show UnpackedFloat.unpack Format.binary64 (UnpackedFloat.pack Format.binary64
    (UnpackedFloat.mul Format.binary64 (Float.Model.ofUInt64 n.toUInt64).unpack
      (Float.ofBits 0x3FF0000000000000).toModel.unpack)) = _
  rw [digits, one]
  show UnpackedFloat.unpack Format.binary64 (UnpackedFloat.pack Format.binary64
    (roundWithAccuracy Format.binary64 .positive (fullMantissa n * 2 ^ 52) (n.log2 - 52 + -52)
      .exact)) = _
  have exponent : (n.log2 : Int) - 52 + -52 + (52 : Nat) = n.log2 - 52 := by omega
  rw [roundWithAccuracy_exact _ full (fullMantissa_pos pos) 52 (by omega)]
  simp only [exponent]
  exact unpack_pack_full _ full _ (by omega) (by omega)

/-! ### Reading floats -/

/-- What is read from an unpacked float; a zero is stored with the least exponent. -/
def Dyadic.ofUnpacked? : UnpackedFloat → Option Dyadic
  | .finite s m e _ => some ⟨s == .negative, m, e⟩
  | .zero s => some ⟨s == .negative, 0, -1074⟩
  | _ => none

theorem toNat_unpackMantissa (b : BitVec 64) :
    (@unpackMantissa Format.binary64 b).toNat = b.toNat % 2 ^ 52 := by
  simp [unpackMantissa]

theorem toNat_unpackExponent (b : BitVec 64) :
    (@unpackExponent Format.binary64 b).toNat = b.toNat / 2 ^ 52 % 2 ^ 11 := by
  simp [unpackExponent, Nat.shiftRight_eq_div_pow]

theorem negative_unpackSign (b : BitVec 64) :
    (Sign.ofBitVec (@unpackSign Format.binary64 b) == .negative) =
      decide (2 ^ 63 ≤ b.toNat) := by
  have bit : (@unpackSign Format.binary64 b).toNat = b.toNat / 2 ^ 63 := by
    have bound : b.toNat < 2 ^ 64 := b.isLt
    simp [unpackSign, Nat.shiftRight_eq_div_pow]
    omega
  have zero : @unpackSign Format.binary64 b = 0#1 ↔ b.toNat < 2 ^ 63 := by
    rw [← BitVec.toNat_inj, bit]
    simp
  unfold Sign.ofBitVec
  by_cases small : b.toNat < 2 ^ 63
  · rw [if_pos (zero.mpr small), decide_eq_false (by omega)]
    rfl
  · rw [if_neg (mt zero.mp small), decide_eq_true (by omega)]
    rfl

/-- The exact value of a float is that of its unpacked form. -/
theorem dyadic?_eq (x : Float) : dyadic? x = Dyadic.ofUnpacked? x.toModel.unpack := by
  have bits : x.toBits.toNat = x.toModel.toBits.toBitVec.toNat := rfl
  unfold Float.Model.unpack
  simp only [dyadic?, bits]
  generalize x.toModel.toBits.toBitVec = b
  have mantissa := toNat_unpackMantissa b
  have exponent := toNat_unpackExponent b
  have zero : @unpackMantissa Format.binary64 b = 0#52 ↔ b.toNat % leadingBit = 0 := by
    rw [← BitVec.toNat_inj, mantissa]
    rfl
  have top : @unpackExponent Format.binary64 b = -1#11 ↔ b.toNat / leadingBit % 0x800 = 2047 := by
    rw [← BitVec.toNat_inj, exponent]
    rfl
  have bottom : @unpackExponent Format.binary64 b = 0#11 ↔ b.toNat / leadingBit % 0x800 = 0 := by
    rw [← BitVec.toNat_inj, exponent]
    rfl
  unfold UnpackedFloat.unpack
  dsimp only
  -- both readings ask for the same two stored exponents first
  by_cases full : @unpackExponent Format.binary64 b = -1#11
  · rw [if_pos full, if_pos (top.mp full)]
    split <;> rfl
  · rw [if_neg full, if_neg (mt top.mpr full)]
    by_cases least : @unpackExponent Format.binary64 b = 0#11
    · rw [if_pos least, if_pos (bottom.mp least)]
      split
      · next none =>
        simp only [Dyadic.ofUnpacked?, negative_unpackSign, zero.mp none]
        rfl
      · simp only [Dyadic.ofUnpacked?, negative_unpackSign, mantissa, exponentBias_eq, least]
        rfl
    · rw [if_neg least, if_neg (mt bottom.mpr least)]
      simp only [Dyadic.ofUnpacked?, negative_unpackSign, toNat_append_one, mantissa, exponent,
        exponentBias_eq]
      rfl

/-! ### The float of an integer -/

theorem unpack_neg_ofNat (pos : 0 < n) (small : n < 2 ^ 53) :
    (-Float.ofNat n).toModel.unpack =
      .finite .negative (fullMantissa n) (n.log2 - 52) (fullMantissa_pos pos) := by
  have bits : n.log2 < 53 := (Nat.log2_lt (Nat.ne_of_gt pos)).mpr small
  show UnpackedFloat.unpack Format.binary64 (UnpackedFloat.pack Format.binary64
    (Float.ofNat n).toModel.unpack.neg) = _
  rw [unpack_ofNat pos small]
  exact unpack_pack_full _ (log2_fullMantissa pos small) _ (by omega) (by omega)

/-- What the float of an integer unpacks to. -/
def unpackedInt : Int → UnpackedFloat
  | .ofNat 0 => .zero .positive
  | .ofNat (n + 1) =>
    .finite .positive (fullMantissa (n + 1)) ((n + 1).log2 - 52) (fullMantissa_pos n.succ_pos)
  | .negSucc n =>
    .finite .negative (fullMantissa (n + 1)) ((n + 1).log2 - 52) (fullMantissa_pos n.succ_pos)

variable {y z : Int}

theorem unpack_ofInt (small : z.natAbs < 2 ^ 53) :
    (Float.ofInt z).toModel.unpack = unpackedInt z := by
  match z with
  | .ofNat 0 => rfl
  | .ofNat (n + 1) => exact unpack_ofNat n.succ_pos small
  | .negSucc n => exact unpack_neg_ofNat n.succ_pos small

theorem isFinite_ofInt (small : z.natAbs < 2 ^ 53) : (Float.ofInt z).isFinite = true := by
  show (Float.ofInt z).toModel.unpack.isFinite = true
  rw [unpack_ofInt small]
  match z with
  | .ofNat 0 | .ofNat (n + 1) | .negSucc n => rfl

theorem numerator_fullMantissa (negative : Bool) (small : n < 2 ^ 53) :
    (Dyadic.mk negative (fullMantissa n) (n.log2 - 52)).numerator =
      n * (Dyadic.mk negative (fullMantissa n) (n.log2 - 52)).denominator := by
  have bits : n.log2 < 53 := by
    rcases Nat.eq_zero_or_pos n with rfl | pos
    · decide
    · exact (Nat.log2_lt (Nat.ne_of_gt pos)).mpr small
  have up : ((n.log2 : Int) - 52).toNat = 0 := by omega
  have down : (-((n.log2 : Int) - 52)).toNat = 52 - n.log2 := by omega
  rw [Dyadic.numerator, Dyadic.denominator, up, down]
  exact Nat.mul_one _

/-- An integer is read off its float without a fraction. -/
theorem dyadic?_ofInt (small : z.natAbs < 2 ^ 53) : ∃ d, dyadic? (Float.ofInt z) = some d ∧
    (d.negative = true ↔ z < 0) ∧ d.numerator = z.natAbs * d.denominator := by
  rw [dyadic?_eq, unpack_ofInt small]
  match z with
  | .ofNat 0 => exact ⟨_, rfl, by simp, by simp [Dyadic.numerator]⟩
  | .ofNat (n + 1) => exact ⟨_, rfl, by simp; omega, numerator_fullMantissa false small⟩
  | .negSucc n => exact ⟨_, rfl, by simp, numerator_fullMantissa true small⟩

theorem Dyadic.magnitudeDown_of_whole {d : Dyadic} (whole : d.numerator = n * d.denominator) :
    d.magnitudeDown = n := by
  rw [magnitudeDown, whole]
  exact Nat.mul_div_cancel _ (Nat.two_pow_pos _)

/-- Rounding down a number that is no fraction leaves it as it is. -/
theorem floor_ofNat (small : n < 2 ^ 53) : floor (Float.ofNat n) = Float.ofNat n := by
  obtain ⟨d, read, sign, whole⟩ := dyadic?_ofInt (z := n) small
  have positive : d.negative = false := by
    rw [← Bool.not_eq_true, sign]
    omega
  rw [floor, wholeBy, show dyadic? (Float.ofNat n) = some d from read]
  simp [positive, Dyadic.toWhole, Dyadic.magnitudeDown_of_whole whole]

/-! ### The order of integers as floats -/

theorem log2_fullMantissa_lt_iff (pos : 0 < m) (pos' : 0 < n) :
    m.log2 < n.log2 ∨ m.log2 = n.log2 ∧ fullMantissa m < fullMantissa n ↔ m < n := by
  have range := (Nat.log2_eq_iff (Nat.ne_of_gt pos)).mp rfl
  have range' := (Nat.log2_eq_iff (Nat.ne_of_gt pos')).mp rfl
  rcases Nat.lt_trichotomy m.log2 n.log2 with fewer | same | more
  · have : 2 ^ (m.log2 + 1) ≤ 2 ^ n.log2 := Nat.pow_le_pow_right (by omega) fewer
    exact iff_of_true (.inl fewer) (by omega)
  · simp only [fullMantissa, same, Nat.lt_irrefl, false_or, true_and]
    exact Nat.mul_lt_mul_right (Nat.two_pow_pos _)
  · have : 2 ^ (n.log2 + 1) ≤ 2 ^ m.log2 := Nat.pow_le_pow_right (by omega) more
    exact iff_of_false (by omega) (by omega)

theorem Standing.compare_eq_lt_iff {a b : Standing} : compare a b = .lt ↔
    a.tier < b.tier ∨ a.tier = b.tier ∧
      (a.exponent < b.exponent ∨ a.exponent = b.exponent ∧ a.mantissa < b.mantissa) := by
  simp [compare_eq, Ordering.then_eq_lt, Int.compare_eq_lt]

theorem ofInt_lt_iff (small : y.natAbs < 2 ^ 53) (small' : z.natAbs < 2 ^ 53) :
    Float.ofInt y < Float.ofInt z ↔ y < z := by
  rw [Standing.lt_iff (isNaN_of_isFinite (isFinite_ofInt small))
    (isNaN_of_isFinite (isFinite_ofInt small')), Standing.compare_eq_lt_iff, Standing.of,
    Standing.of, unpack_ofInt small, unpack_ofInt small']
  -- numbers of one sign are told apart by their bits, others by their tiers
  obtain (_ | m) | m := y <;> obtain (_ | n) | n := z
  case ofNat.succ.ofNat.succ =>
    have order := log2_fullMantissa_lt_iff (m := m + 1) (n := n + 1) m.succ_pos n.succ_pos
    simp only [unpackedInt, Standing.ofUnpacked, true_and, Int.ofNat_eq_natCast, Int.ofNat_lt]
    omega
  case negSucc.negSucc =>
    have order := log2_fullMantissa_lt_iff (m := n + 1) (n := m + 1) n.succ_pos m.succ_pos
    simp only [unpackedInt, Standing.ofUnpacked, true_and]
    omega
  all_goals
    simp only [unpackedInt, Standing.ofUnpacked, Int.ofNat_eq_natCast]
    omega

end Recalc.Number
