import Mathlib
import Cnc.Proofs.Nearest

/-!
# Rounded sums

The sum of two floating-point numbers is their exact sum, rounded. As long as
the exact sum is smaller than some power of two, `2 ^ k`, the rounded one is
finite and no further from it than `2 ^ (k - 53)` (`FloatScalar.rounded_add`,
`FloatScalar.rounded_sub`). A sum that is too large is still a number, namely
infinity (`FloatScalar.isNumber_add`). Zero has two signs, and a sum shows which
one only if it is zero itself (`FloatScalar.zero_add_of_ne_zero`).

Adding works on unpacked numbers. The two mantissas are brought to one exponent
and added exactly; the sum is rounded; the result is packed, and it is read back
unchanged if its exponent is not too large (`readBack_eq`). The bound is twice
as wide as rounding to the nearest would have it.
-/

namespace Cnc

namespace FloatScalar

open Float.Model UnpackedFloat

/-- An integer mantissa is rounded by its magnitude, with its own sign. -/
theorem normalize_eq_round {m : ℤ} (pos : m ≠ 0) (e : ℤ) (z : Sign) :
    ∃ s : Sign, s.apply m.natAbs = m ∧
      UnpackedFloat.normalize Format.binary64 m e z = round Format.binary64 s m.natAbs e := by
  unfold UnpackedFloat.normalize
  rcases lt_or_gt_of_ne pos with negative | positive
  · refine ⟨.negative, by simp only [Sign.apply]; omega, ?_⟩
    rw [compare_lt_iff_lt.mpr negative, show (-m).toNat = m.natAbs by omega]
  · refine ⟨.positive, by simp only [Sign.apply]; omega, ?_⟩
    rw [compare_gt_iff_gt.mpr positive, show m.toNat = m.natAbs by omega]

theorem stored_normalize (m e : ℤ) (z : Sign) :
    Stored (UnpackedFloat.normalize Format.binary64 m e z) := by
  by_cases none : m = 0
  · subst none
    trivial
  · obtain ⟨s, -, rounded⟩ := normalize_eq_round none e z
    rw [rounded]
    exact (isRounding_round s (Int.natAbs_ne_zero.mpr none) e).stored

theorem worth_normalize {m e : ℤ} (z : Sign) {k : ℕ} (below : |(m : ℚ) * 2 ^ e| < 2 ^ k) :
    |worth (UnpackedFloat.normalize Format.binary64 m e z) - m * 2 ^ e| ≤ 2 ^ (k - 53 : ℤ) := by
  by_cases none : m = 0
  · subst none
    have zero : worth (UnpackedFloat.normalize Format.binary64 0 e z) = 0 := rfl
    rw [zero, Int.cast_zero, zero_mul, sub_zero, abs_zero]
    positivity
  · obtain ⟨s, signed, rounded⟩ := normalize_eq_round none e z
    have size : ((m.natAbs : ℕ) : ℚ) * 2 ^ e < 2 ^ ((k - 53 : ℤ) + 53) := by
      rw [abs_mul, abs_of_pos (zpow_pos two_pos e : (0 : ℚ) < 2 ^ e), ← Int.cast_abs,
        ← Nat.cast_natAbs] at below
      rwa [sub_add_cancel, zpow_natCast]
    have near := (isRounding_round s (Int.natAbs_ne_zero.mpr none) e).near size (by omega)
    have signed : ((m : ℤ) : ℚ) * 2 ^ e = s.apply 1 * (m.natAbs * 2 ^ e) := by
      rw [← mul_assoc, ← Int.cast_natCast, ← Sign.apply_cast, signed]
    rw [rounded, signed]
    exact near.trans (half_le_self (by positivity))

/-! ## Sums -/

theorem Sign.apply_neg (s : Sign) (n : ℤ) : (-s).apply n = -s.apply n := by
  cases s with
  | positive => rfl
  | negative => exact (Int.neg_neg n).symm

theorem worth_neg (u : UnpackedFloat) : worth u.neg = -worth u := by
  cases u with
  | finite s m e pos => simp only [worth, UnpackedFloat.neg, Sign.apply_neg, Int.cast_neg, neg_mul]
  | _ => simp only [worth, UnpackedFloat.neg, neg_zero]

/-- A difference is the sum with the negated number. -/
theorem unpacked_sub (u v : UnpackedFloat) :
    UnpackedFloat.sub Format.binary64 u v = UnpackedFloat.add Format.binary64 u v.neg := by
  rcases u with s | _ | s | ⟨s, m, e, _⟩ <;> rcases v with t | _ | t | ⟨t, n, f, _⟩
  case finite.finite =>
    simp only [UnpackedFloat.sub, UnpackedFloat.neg, UnpackedFloat.add, Sign.apply_neg,
      Int.sub_eq_add_neg]
  all_goals rfl

namespace Stored

variable {u v : UnpackedFloat}

theorem neg (hu : Stored u) : Stored u.neg := by
  cases u <;> exact hu

theorem add (hu : Stored u) (hv : Stored v) : Stored (u.add Format.binary64 v) := by
  rcases hu.cases with ⟨s, rfl⟩ | ⟨s, m, e, _, rfl, -⟩ <;>
    rcases hv.cases with ⟨t, rfl⟩ | ⟨t, n, f, _, rfl, -⟩
  · cases s <;> cases t <;> trivial
  · exact hv
  · exact hu
  · exact stored_normalize _ _ _

end Stored

theorem worth_decreaseExponent (s : Sign) (m : ℕ) {e f : ℤ} (below : f ≤ e) :
    ((s.apply (decreaseExponent m e f).1 : ℤ) : ℚ) * 2 ^ f = s.apply m * 2 ^ e := by
  obtain ⟨a, rfl⟩ : ∃ a : ℕ, e = f + a := ⟨(e - f).toNat, by omega⟩
  have amount : (f + a - f).toNat = a := by omega
  simp only [decreaseExponent, amount, Nat.shiftLeft_eq]
  rw [Sign.apply_cast, Sign.apply_cast s m, zpow_add₀ two_ne_zero, zpow_natCast]
  push_cast
  ring

/-- Two numbers, brought to one exponent and added. -/
theorem worth_add_aligned (s t : Sign) {m n : ℕ} (e f : ℤ) (pos : 0 < m) (pos' : 0 < n) :
    worth (.finite s m e pos) + worth (.finite t n f pos') =
      ((s.apply (decreaseExponent m e (min e f)).1 +
        t.apply (decreaseExponent n f (min e f)).1 : ℤ) : ℚ) * 2 ^ min e f := by
  rw [Int.cast_add, add_mul, worth_decreaseExponent s m (min_le_left e f),
    worth_decreaseExponent t n (min_le_right e f)]
  rfl

/-- **The error of a sum** is bounded by how large the sum is. -/
theorem worth_add {u v : UnpackedFloat} (hu : Stored u) (hv : Stored v) {k : ℕ}
    (below : |worth u + worth v| < 2 ^ k) :
    |worth (u.add Format.binary64 v) - (worth u + worth v)| ≤ 2 ^ (k - 53 : ℤ) := by
  have exact {w : UnpackedFloat} {r : ℚ} (same : worth w = r) :
      |worth w - r| ≤ 2 ^ (k - 53 : ℤ) := by
    rw [same, sub_self, abs_zero]
    positivity
  rcases hu.cases with ⟨s, rfl⟩ | ⟨s, m, e, _, rfl, -⟩ <;>
    rcases hv.cases with ⟨t, rfl⟩ | ⟨t, n, f, _, rfl, -⟩
  · exact exact (by cases s <;> cases t <;> simp [UnpackedFloat.add, worth])
  · exact exact (by simp [UnpackedFloat.add, worth])
  · exact exact (by simp [UnpackedFloat.add, worth])
  · rw [worth_add_aligned] at below ⊢
    exact worth_normalize _ below

/-! ## Storing a number -/

theorem exponentBias_binary64 : Format.binary64.exponentBias = 1023 := rfl

/-- The mantissa of a normal number, with the leading bit that is not stored. -/
theorem toNat_leading_append (m : BitVec 52) : (1#1 ++ m).toNat = 2 ^ 52 + m.toNat := by
  rw [BitVec.toNat_append]
  exact (Nat.two_pow_add_eq_or_of_lt m.isLt 1).symm

/-- What is read from storage is in stored form. -/
theorem stored_unpack {b : BitVec Format.binary64.numBits}
    (finite : (UnpackedFloat.unpack Format.binary64 b).isFinite = true) :
    Stored (UnpackedFloat.unpack Format.binary64 b) := by
  revert finite
  fun_cases UnpackedFloat.unpack with
  | case1 => exact fun finite => Bool.noConfusion finite
  | case2 => exact fun finite => Bool.noConfusion finite
  | case3 => exact fun _ => trivial
  | case4 m x e _ _ _ least _ =>
    have zero : x.toNat = 0 := by rw [least]; rfl
    have exponent : e + 1 = -1074 := by
      simp only [e, zero, exponentBias_binary64]
      norm_num
    have size : m.toNat < 2 ^ 52 := m.isLt
    exact fun _ => ⟨by omega, by omega, .inr exponent⟩
  | case5 m x e _ _ _ least =>
    have positive : x.toNat ≠ 0 := fun zero => least (BitVec.eq_of_toNat_eq zero)
    have exponent : e = x.toNat - 1075 := by
      simp only [e, exponentBias_binary64]
      norm_num
    have size : m.toNat < 2 ^ 52 := m.isLt
    have mantissa := toNat_leading_append m
    exact fun _ => ⟨by omega, by omega, .inl (by omega)⟩

theorem unpack_normal (s : Sign) {x : BitVec 11} (m : BitVec 52) (finite : x ≠ -1#11)
    (normal : x ≠ 0#11) :
    UnpackedFloat.unpack Format.binary64 (packComponents Format.binary64 s x m) =
      .finite s (2 ^ 52 + m.toNat) (x.toNat - 1075) (by positivity) := by
  unfold UnpackedFloat.unpack
  simp only [unpackExponent_packComponents, unpackMantissa_packComponents,
    unpackSign_packComponents, Sign.ofBitVec_toBitVec, exponentBias_binary64,
    toNat_leading_append, if_neg finite, if_neg normal]
  norm_num

theorem unpack_subnormal (s : Sign) {m : BitVec 52} (pos : 0 < m.toNat) :
    UnpackedFloat.unpack Format.binary64 (packComponents Format.binary64 s 0#11 m) =
      .finite s m.toNat (-1074) pos := by
  have nonzero : m ≠ 0#52 := fun h => absurd pos (by simp [h])
  unfold UnpackedFloat.unpack
  simp only [unpackExponent_packComponents, unpackMantissa_packComponents,
    unpackSign_packComponents, Sign.ofBitVec_toBitVec, exponentBias_binary64,
    dif_neg nonzero]
  norm_num

/-- What a packed float is read back as. -/
def readBack (u : UnpackedFloat) : UnpackedFloat :=
  UnpackedFloat.unpack Format.binary64 (UnpackedFloat.pack Format.binary64 u)

theorem Fits.exponent_le {m : ℕ} {e : ℤ} (fits : Fits m e) {s : Sign} (pos : 0 < m)
    (below : |worth (.finite s m e pos)| < 2 ^ 1024) : e ≤ 971 := by
  by_contra large
  have full : 2 ^ 52 ≤ m := fits.full.resolve_right (by omega)
  have mantissa : (2 : ℚ) ^ 52 ≤ m := mod_cast full
  have exponent : (2 : ℚ) ^ 972 ≤ 2 ^ e := by
    rw [← zpow_natCast]
    exact zpow_le_zpow_right₀ one_le_two (by push_cast; omega)
  rw [abs_worth] at below
  have := mul_le_mul mantissa exponent (by positivity) (by positivity)
  rw [← pow_add] at this
  exact absurd below (not_lt.mpr this)

/-- **What is stored is read back unchanged**, if it is not too large. -/
theorem readBack_eq {u : UnpackedFloat} (h : Stored u) (below : |worth u| < 2 ^ 1024) :
    readBack u = u := by
  rcases h.cases with ⟨s, rfl⟩ | ⟨s, m, e, pos, rfl, fits⟩
  · exact unpack_packedZero
  · have largest := fits.exponent_le pos below
    obtain ⟨size, least, full⟩ := fits
    obtain ⟨x, biased⟩ : ∃ x : ℕ, (e + (1023 : ℕ) + (52 : ℕ)).toNat = x := ⟨_, rfl⟩
    unfold readBack UnpackedFloat.pack
    simp only [exponentBias_binary64, biased]
    rw [if_neg (by norm_num; omega)]
    rcases Nat.lt_or_ge m (2 ^ 52) with subnormal | normal
    · obtain rfl : e = -1074 := full.resolve_left (by omega)
      have log := log2_le_of_lt subnormal
      have mantissa : (BitVec.ofNat 52 m).toNat = m := Nat.mod_eq_of_lt subnormal
      rw [if_neg (by simp only [Format.mantissaBits]; omega),
        unpack_subnormal s (by rwa [mantissa])]
      simp only [mantissa]
    · have log : m.log2 = 52 := (Nat.log2_eq_iff pos.ne').mpr ⟨normal, size⟩
      have exponent : (BitVec.ofNat 11 x).toNat = x := Nat.mod_eq_of_lt (by norm_num; omega)
      have mantissa : (BitVec.ofNat 52 m).toNat = m - 2 ^ 52 := by
        rw [BitVec.toNat_ofNat]
        omega
      rw [if_pos (by rw [log]; rfl), unpack_normal s]
      · simp only [exponent, mantissa, finite.injEq, true_and]
        omega
      · exact fun h => absurd (exponent.symm.trans (congrArg BitVec.toNat h)) (by norm_num; omega)
      · exact fun h => absurd (exponent.symm.trans (congrArg BitVec.toNat h)) (by norm_num; omega)

/-- What a packed number reads back as depends on its exponent. -/
theorem unpack_ne_notANumber {b : BitVec Format.binary64.numBits}
    (number : unpackExponent b = -1#11 → unpackMantissa b = 0#52) :
    UnpackedFloat.unpack Format.binary64 b ≠ .notANumber := by
  fun_cases UnpackedFloat.unpack with
  | case2 m x top nonzero => exact absurd (number top) nonzero
  | case1 | case3 | case4 | case5 => exact UnpackedFloat.noConfusion

/-- **A number is stored as a number**, be it as infinity. -/
theorem readBack_ne_notANumber {u : UnpackedFloat} (number : u ≠ .notANumber) :
    readBack u ≠ .notANumber := by
  apply unpack_ne_notANumber
  fun_cases UnpackedFloat.pack with
  | case1 => exact absurd rfl number
  | case2 | case4 => exact fun _ => unpackMantissa_packComponents
  | case3 => exact fun _ => unpackMantissa_packComponents
  | case6 => exact fun top => absurd (unpackExponent_packComponents.symm.trans top) (by decide)
  | case5 s m e _ _ x finite =>
    intro top
    have finite : ¬2 ^ 11 ≤ x + 1 := finite
    have exponent : x % 2 ^ 11 = 2047 :=
      congrArg BitVec.toNat (unpackExponent_packComponents.symm.trans top)
    omega

/-! ## Floating-point sums -/

/-- **The real number that a floating-point number stands for**; zero if it stands for none. -/
noncomputable def value (x : Float) : ℝ := worth x.toModel.unpack

theorem value_eq_neg {x y : Float} (negated : y.toModel.unpack = x.toModel.unpack.neg) :
    value y = -value x := by
  rw [value, negated, worth_neg, Rat.cast_neg, value]

/-- **A floating-point number is rounded** from a real number whose magnitude is below `2 ^ k`. -/
structure Rounded (k : ℕ) (z : Float) (r : ℝ) : Prop where
  finite : Scalar.isFinite z = true
  near : |value z - r| ≤ 2 ^ (k - 53 : ℤ)

variable {x y : Float}

theorem stored_of_finite (finite : Scalar.isFinite x = true) : Stored x.toModel.unpack :=
  stored_unpack finite

theorem unpack_add : (x + y).toModel.unpack =
    readBack (x.toModel.unpack.add Format.binary64 y.toModel.unpack) :=
  rfl

theorem unpack_sub : (x - y).toModel.unpack =
    readBack (x.toModel.unpack.add Format.binary64 y.toModel.unpack.neg) := by
  rw [← unpacked_sub]
  rfl

theorem Stored.isFinite {u : UnpackedFloat} (h : Stored u) : u.isFinite = true := by
  rcases h.cases with ⟨s, rfl⟩ | ⟨s, m, e, _, rfl, -⟩ <;> rfl

/-- **Unpacked numbers whose sum is not too large** are added with the error of one step. -/
theorem rounded_readBack {z : Float} {u v : UnpackedFloat} (hu : Stored u) (hv : Stored v)
    (sum : z.toModel.unpack = readBack (u.add Format.binary64 v)) {k : ℕ} (small : k < 1024)
    (below : |worth u + worth v| < 2 ^ k) :
    Rounded k z ((worth u + worth v : ℚ) : ℝ) := by
  have near := worth_add hu hv below
  have half : (2 : ℚ) ^ (k - 53 : ℤ) ≤ 2 ^ k := by
    rw [← zpow_natCast]
    exact zpow_le_zpow_right₀ one_le_two (by omega)
  have double : (2 : ℚ) ^ (k + 1) ≤ 2 ^ 1024 := pow_le_pow_right₀ one_le_two small
  have size : |worth (u.add Format.binary64 v)| < 2 ^ 1024 := by
    calc |worth (u.add Format.binary64 v)|
      _ = |worth (u.add Format.binary64 v) - (worth u + worth v) + (worth u + worth v)| := by
        rw [sub_add_cancel]
      _ ≤ |worth (u.add Format.binary64 v) - (worth u + worth v)| + |worth u + worth v| :=
        abs_add_le _ _
      _ < 2 ^ k + 2 ^ k := add_lt_add_of_le_of_lt (near.trans half) below
      _ = 2 ^ (k + 1) := by ring
      _ ≤ 2 ^ 1024 := double
  rw [readBack_eq (hu.add hv) size] at sum
  constructor
  case finite =>
    show z.toModel.unpack.isFinite = true
    rw [sum]
    exact (hu.add hv).isFinite
  case near =>
    have cast : ((2 ^ (k - 53 : ℤ) : ℚ) : ℝ) = 2 ^ (k - 53 : ℤ) := by
      rw [Rat.cast_zpow, Rat.cast_ofNat]
    rw [value, sum, ← Rat.cast_sub, ← Rat.cast_abs, ← cast]
    exact Rat.cast_le.mpr near

/-- **The sum of two floating-point numbers** is rounded. -/
theorem rounded_add (hx : Scalar.isFinite x = true) (hy : Scalar.isFinite y = true) {k : ℕ}
    (small : k < 1024) (below : |value x + value y| < 2 ^ k) :
    Rounded k (x + y) (value x + value y) := by
  rw [value, value, ← Rat.cast_add] at below ⊢
  exact rounded_readBack (stored_of_finite hx) (stored_of_finite hy) unpack_add small
    (by exact_mod_cast below)

theorem rounded_sub (hx : Scalar.isFinite x = true) (hy : Scalar.isFinite y = true) {k : ℕ}
    (small : k < 1024) (below : |value x - value y| < 2 ^ k) :
    Rounded k (x - y) (value x - value y) := by
  rw [value, value, sub_eq_add_neg, ← Rat.cast_neg, ← Rat.cast_add, ← worth_neg] at below ⊢
  exact rounded_readBack (stored_of_finite hx) (stored_of_finite hy).neg unpack_sub small
    (by exact_mod_cast below)

/-- The sum of a finite number and a number is a number. -/
theorem add_ne_notANumber {u v : UnpackedFloat} (hu : Stored u) (hv : v ≠ .notANumber) :
    u.add Format.binary64 v ≠ .notANumber := by
  have number {w : UnpackedFloat} (h : Stored w) : w ≠ .notANumber := by
    rintro rfl
    exact h
  cases v with
  | notANumber => exact absurd rfl hv
  | infinity t =>
    rcases hu.cases with ⟨s, rfl⟩ | ⟨s, m, e, _, rfl, -⟩ <;> exact UnpackedFloat.noConfusion
  | zero t => exact number (hu.add trivial)
  | finite t n f pos =>
    rcases hu.cases with ⟨s, rfl⟩ | ⟨s, m, e, _, rfl, -⟩
    · exact hv
    · exact number (stored_normalize _ _ _)

theorem isNumber_add (hx : Scalar.isFinite x = true) (hy : IsNumber y) : IsNumber (x + y) :=
  readBack_ne_notANumber (add_ne_notANumber (stored_of_finite hx) hy)

theorem isNumber_sub (hx : Scalar.isFinite x = true) (hy : IsNumber y) : IsNumber (x - y) := by
  have negated : y.toModel.unpack.neg ≠ .notANumber := by
    cases same : y.toModel.unpack with
    | notANumber => exact absurd same hy
    | _ => exact UnpackedFloat.noConfusion
  rw [IsNumber, unpack_sub]
  exact readBack_ne_notANumber (add_ne_notANumber (stored_of_finite hx) negated)

/-! ## Zeros -/

/-- A zero of either sign. -/
def IsZero (x : Float) : Prop := x = 0 ∨ x = -0

/-- Two zeros of opposite sign. -/
def Opposite (x y : Float) : Prop := x = 0 ∧ y = -0 ∨ x = -0 ∧ y = 0

instance IsZero.decidable (x : Float) : Decidable (IsZero x) := inferInstanceAs (Decidable (_ ∨ _))

instance Opposite.decidable (x y : Float) : Decidable (Opposite x y) :=
  inferInstanceAs (Decidable (_ ∨ _))

theorem Opposite.ne (h : Opposite x y) : x ≠ y := by
  rcases h with ⟨rfl, rfl⟩ | ⟨rfl, rfl⟩ <;> decide +kernel

theorem Opposite.isZero (h : Opposite x y) : IsZero x ∧ IsZero y := by
  rcases h with ⟨rfl, rfl⟩ | ⟨rfl, rfl⟩ <;> decide +kernel

/-- The zeros are what compares equal to zero. -/
theorem isZero_iff_eq : IsZero x ↔ Scalar.eq x 0 = true := by
  constructor
  · rintro (rfl | rfl) <;> decide +kernel
  · intro same
    obtain ⟨-, -, rfl | ⟨rfl, -⟩ | ⟨rfl, -⟩⟩ := Float.beq_iff_ne_nan_and_eq.mp same
    · exact .inl rfl
    · exact .inl rfl
    · exact .inr rfl

/-- Floating-point numbers that are unpacked alike are the same. -/
theorem ext_unpack (same : x.toModel.unpack = y.toModel.unpack) : x = y :=
  Float.toBits_inj.mp (UInt64.toBitVec_inj.mp
    ((unpack_inj_of_valid x.toModel.valid y.toModel.valid).mp same))

theorem isZero_iff_unpack : IsZero x ↔ ∃ s, x.toModel.unpack = .zero s := by
  constructor
  · rintro (rfl | rfl)
    · exact ⟨.positive, rfl⟩
    · exact ⟨.negative, rfl⟩
  · rintro ⟨_ | _, zero⟩
    · exact .inr (ext_unpack zero)
    · exact .inl (ext_unpack zero)

theorem value_of_isZero (zero : IsZero x) : value x = 0 := by
  obtain ⟨s, unpacked⟩ := isZero_iff_unpack.mp zero
  simp [value, unpacked, worth]

theorem readBack_unpack (x : Float) : readBack x.toModel.unpack = x.toModel.unpack :=
  congrArg (UnpackedFloat.unpack Format.binary64) (pack_unpack_of_valid x.toModel.valid)

theorem unpacked_zero_add (s : Sign) {u : UnpackedFloat} (nonzero : ∀ t, u ≠ .zero t) :
    UnpackedFloat.add Format.binary64 (.zero s) u = u := by
  cases u with
  | zero t => exact absurd rfl (nonzero t)
  | infinity | notANumber | finite => rfl

/-- **The sum of a zero and another number** is the other number, -/
theorem zero_add_of_ne_zero (zero : IsZero x) (nonzero : ¬IsZero y) : x + y = y := by
  obtain ⟨s, zero⟩ := isZero_iff_unpack.mp zero
  apply ext_unpack
  rw [unpack_add, zero, unpacked_zero_add s fun t same => nonzero (isZero_iff_unpack.mpr ⟨t, same⟩),
    readBack_unpack]

/-- and what is subtracted from a zero does not show its sign. -/
theorem zero_sub_of_ne_zero (zero : IsZero x) (nonzero : ¬IsZero y) : x - y = 0 - y := by
  have difference {z : Float} (zero : IsZero z) :
      (z - y).toModel.unpack = readBack y.toModel.unpack.neg := by
    obtain ⟨s, zero⟩ := isZero_iff_unpack.mp zero
    rw [unpack_sub, zero, unpacked_zero_add s]
    intro t same
    refine nonzero (isZero_iff_unpack.mpr ?_)
    cases unpacked : y.toModel.unpack with
    | zero r => exact ⟨r, rfl⟩
    | infinity | notANumber | finite =>
      rw [unpacked] at same
      exact UnpackedFloat.noConfusion same
  exact ext_unpack ((difference zero).trans (difference (.inl rfl)).symm)

end FloatScalar

end Cnc
