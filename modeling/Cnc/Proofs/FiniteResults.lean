import Mathlib
import Cnc.Proofs.Rounding

/-!
# Finite results

Floating-point arithmetic does not lead back from infinity: a sum, a product or
a root that is finite has finite operands (`FloatScalar.isFinite_of_add`), so
one finite number at the end of a computation vouches for all that went into it.

Finite numbers are compared like the real numbers that they stand for
(`FloatScalar.le_iff_value`), and rounding respects the order: a sum of numbers
that are not negative is not below either of them, even where rounding takes all
of the smaller one away (`FloatScalar.le_add`). Multiplying by one changes
nothing, and zeros of either sign stay zeros.
-/

namespace Cnc

namespace FloatScalar

open Float.Model UnpackedFloat

/-! ## Operands of finite results -/

/-- What is stored as a finite number is one. -/
theorem isFinite_of_readBack {u : UnpackedFloat} (finite : (readBack u).isFinite = true) :
    u.isFinite = true := by
  cases u with
  | infinity s =>
    cases s <;> exact absurd finite (by decide)
  | notANumber => exact absurd finite (by decide)
  | zero | finite => rfl

section Operands

variable {u v : UnpackedFloat}

theorem operands_of_add (finite : (u.add Format.binary64 v).isFinite = true) :
    u.isFinite = true ∧ v.isFinite = true := by
  rcases u with s | _ | s | _ <;> rcases v with t | _ | t | _
  case infinity.infinity => cases s <;> cases t <;> exact Bool.noConfusion finite
  case zero.zero | zero.finite | finite.zero | finite.finite => exact ⟨rfl, rfl⟩
  all_goals exact Bool.noConfusion finite

theorem operands_of_mul (finite : (u.mul Format.binary64 v).isFinite = true) :
    u.isFinite = true ∧ v.isFinite = true := by
  rcases u with s | _ | s | _ <;> rcases v with t | _ | t | _
  case zero.zero | zero.finite | finite.zero | finite.finite => exact ⟨rfl, rfl⟩
  all_goals exact Bool.noConfusion finite

theorem operand_of_sqrt (finite : (u.sqrt Format.binary64).isFinite = true) :
    u.isFinite = true := by
  rcases u with s | _ | s | _
  case infinity => cases s <;> exact Bool.noConfusion finite
  case notANumber => exact Bool.noConfusion finite
  all_goals rfl

theorem isFinite_neg : u.neg.isFinite = u.isFinite := by
  cases u <;> rfl

end Operands

variable {x y z : Float}

/-- **The operands of a finite sum** are finite, -/
theorem isFinite_of_add (finite : Scalar.isFinite (x + y) = true) :
    Scalar.isFinite x = true ∧ Scalar.isFinite y = true :=
  operands_of_add (isFinite_of_readBack finite)

theorem isFinite_of_sub (finite : Scalar.isFinite (x - y) = true) :
    Scalar.isFinite x = true ∧ Scalar.isFinite y = true := by
  have unpacked : (x - y).toModel.unpack.isFinite = true := finite
  rw [unpack_sub] at unpacked
  have operands := operands_of_add (isFinite_of_readBack unpacked)
  rwa [isFinite_neg] at operands

/-- those of a finite product, -/
theorem isFinite_of_mul (finite : Scalar.isFinite (x * y) = true) :
    Scalar.isFinite x = true ∧ Scalar.isFinite y = true :=
  operands_of_mul (isFinite_of_readBack finite)

/-- and the operand of a finite root. -/
theorem isFinite_of_sqrt (finite : Scalar.isFinite (Scalar.sqrt x) = true) :
    Scalar.isFinite x = true :=
  operand_of_sqrt (isFinite_of_readBack finite)

/-! ## The order of finite numbers -/

/-- **Mantissas and exponents in stored form** are compared one after the other. -/
theorem Fits.le_iff {m n : ℕ} {e f : ℤ} (fits : Fits m e) (fits' : Fits n f) :
    (m : ℚ) * 2 ^ e ≤ n * 2 ^ f ↔ e < f ∨ e = f ∧ m ≤ n := by
  have finer {m n : ℕ} {e f : ℤ} (fits : Fits m e) (fits' : Fits n f)
      (le : (m : ℚ) * 2 ^ e ≤ n * 2 ^ f) : e ≤ f :=
    fits.onGrid.le_of_lt (le.trans_lt fits'.onGrid.below) fits'.least
  constructor
  · intro le
    rcases (finer fits fits' le).lt_or_eq with less | rfl
    · exact .inl less
    · have le : (m : ℚ) ≤ n := le_of_mul_le_mul_right le (by positivity)
      exact .inr ⟨rfl, mod_cast le⟩
  · rintro (less | ⟨rfl, le⟩)
    · exact le_of_not_ge fun ge => absurd (finer fits' fits ge) (not_le.mpr less)
    · exact mul_le_mul_of_nonneg_right (mod_cast le) (by positivity)

theorem worth_positive (m : ℕ) (e : ℤ) (pos : 0 < m) :
    worth (.finite .positive m e pos) = m * 2 ^ e := by
  rw [worth, Sign.apply, Int.cast_natCast]

theorem worth_negative (m : ℕ) (e : ℤ) (pos : 0 < m) :
    worth (.finite .negative m e pos) = -(m * 2 ^ e) := by
  rw [worth, Sign.apply, Int.cast_neg, Int.cast_natCast, neg_mul]

theorem worth_zero (s : Sign) : worth (.zero s) = 0 := rfl

/-- **The rank of finite numbers** is the rank of what they stand for. -/
theorem rank_le_iff {u v : UnpackedFloat} (hu : Stored u) (hv : Stored v) :
    rank u ≤ rank v ↔ worth u ≤ worth v := by
  have positive {m : ℕ} (e : ℤ) (pos : 0 < m) : (0 : ℚ) < m * 2 ^ e := by positivity
  rcases hu.cases with ⟨s, rfl⟩ | ⟨_ | _, m, e, pos, rfl, fits⟩ <;>
    rcases hv.cases with ⟨t, rfl⟩ | ⟨_ | _, n, f, pos', rfl, fits'⟩ <;>
    simp only [rank, Prod.Lex.toLex_le_toLex, worth_zero, worth_positive, worth_negative,
      neg_le_neg_iff]
  case inr.positive.inr.positive =>
    simp [fits.le_iff fits']
  case inr.negative.inr.negative =>
    simp [fits'.le_iff fits, eq_comm]
  -- numbers of different signs are told apart by the first component
  case inl.inl => simp
  case inl.inr.negative | inl.inr.positive =>
    have := positive f pos'
    norm_num
    linarith
  case inr.negative.inl | inr.positive.inl =>
    have := positive e pos
    norm_num
    linarith
  case inr.negative.inr.positive | inr.positive.inr.negative =>
    have := positive e pos
    have := positive f pos'
    norm_num
    linarith

/-- **Finite numbers are compared** like the real numbers that they stand for. -/
theorem le_iff_value (hx : Scalar.isFinite x = true) (hy : Scalar.isFinite y = true) :
    Scalar.le x y = true ↔ value x ≤ value y := by
  have number {z : Float} (finite : Scalar.isFinite z = true) : IsNumber z :=
    (eq_iff_level.mp (Scalar.Ordered.number_of_finite finite)).1
  rw [le_iff_level, value, value, Rat.cast_le,
    ← rank_le_iff (stored_of_finite hx) (stored_of_finite hy)]
  exact ⟨fun le => le.2.2, fun le => ⟨number hx, number hy, le⟩⟩

theorem eq_iff_value (hx : Scalar.isFinite x = true) (hy : Scalar.isFinite y = true) :
    Scalar.eq x y = true ↔ value x = value y := by
  rw [Scalar.Ordered.eq_iff, le_iff_value hx hy, le_iff_value hy hx, le_antisymm_iff]

theorem lt_eq_false (le : Scalar.le x y = true) : Scalar.lt y x = false := by
  obtain ⟨-, -, ordered⟩ := le_iff_level.mp le
  exact Bool.eq_false_iff.mpr fun less => absurd (lt_iff_level.mp less).2.2 (not_lt.mpr ordered)

theorem lt_iff_value (hx : Scalar.isFinite x = true) (hy : Scalar.isFinite y = true) :
    Scalar.lt x y = true ↔ value x < value y := by
  rw [← not_le, ← le_iff_value hy hx]
  constructor
  · intro less le
    exact Bool.noConfusion (less.symm.trans (lt_eq_false le))
  · intro above
    by_contra less
    exact above (Scalar.Ordered.le_of_not_lt (Scalar.Ordered.number_of_finite hx)
      (Scalar.Ordered.number_of_finite hy) (Bool.eq_false_iff.mpr less))

/-! ## Sums of numbers that are not negative -/

/-- **A number that is too large** is stored as infinity, -/
theorem readBack_of_large {s : Sign} {m : ℕ} {e : ℤ} {pos : 0 < m} (fits : Fits m e)
    (large : 2 ^ 1024 ≤ |worth (.finite s m e pos)|) :
    readBack (.finite s m e pos) = .infinity s := by
  have above : (1024 : ℤ) < e + 53 := by
    rw [abs_worth, ← zpow_natCast] at large
    exact (zpow_lt_zpow_iff_right₀ one_lt_two).mp (large.trans_lt fits.onGrid.below)
  have packed : UnpackedFloat.pack Format.binary64 (.finite s m e pos) =
      packedInfinity Format.binary64 s := by
    unfold UnpackedFloat.pack
    rw [if_pos (by rw [exponentBias_binary64]; norm_num; omega)]
  rw [readBack, packed]
  cases s <;> rfl

/-- and what is stored as a finite number is read back unchanged. -/
theorem readBack_of_finite {u : UnpackedFloat} (h : Stored u)
    (finite : (readBack u).isFinite = true) : readBack u = u := by
  refine readBack_eq h (lt_of_not_ge fun large => ?_)
  rcases h.cases with ⟨s, rfl⟩ | ⟨s, m, e, pos, rfl, fits⟩
  · rw [worth_zero, abs_zero] at large
    exact absurd large (by norm_num)
  · rw [readBack_of_large fits large] at finite
    exact Bool.noConfusion finite

/-- A positive mantissa is rounded to the nearest number. -/
theorem isRounding_normalize {m e : ℤ} (z : Sign) (positive : 0 < (m : ℚ) * 2 ^ e) :
    IsRounding .positive (m * 2 ^ e) (UnpackedFloat.normalize Format.binary64 m e z) := by
  have unit : (0 : ℚ) < 2 ^ e := by positivity
  have positive : 0 < m := mod_cast (mul_pos_iff_of_pos_right unit).mp positive
  obtain ⟨n, rfl⟩ := Int.eq_ofNat_of_zero_le positive.le
  unfold UnpackedFloat.normalize
  rw [compare_gt_iff_gt.mpr positive]
  exact isRounding_round .positive (by omega) e

/-- **A positive sum is rounded** to the nearest number. -/
theorem isRounding_add {u v : UnpackedFloat} (hu : Stored u) (hv : Stored v)
    (positive : 0 < worth u + worth v) :
    IsRounding .positive (worth u + worth v) (u.add Format.binary64 v) := by
  have self {w : UnpackedFloat} (h : Stored w) (positive : 0 < worth w) :
      IsRounding .positive (worth w) w := by
    rcases h.cases with ⟨s, rfl⟩ | ⟨_ | _, m, e, pos, rfl, fits⟩
    · exact absurd positive (lt_irrefl 0)
    · rw [worth_negative] at positive
      exact absurd positive (not_lt.mpr (neg_nonpos.mpr (by positivity)))
    · rw [worth_positive]
      exact isRounding_finite .positive fits pos
  rcases hu.cases with ⟨s, rfl⟩ | ⟨s, m, e, _, rfl, -⟩ <;>
    rcases hv.cases with ⟨t, rfl⟩ | ⟨t, n, f, _, rfl, -⟩
  · exact absurd positive (by simp [worth_zero])
  · rw [worth_zero, zero_add] at positive ⊢
    exact self hv positive
  · rw [worth_zero, add_zero] at positive ⊢
    exact self hu positive
  · rw [worth_add_aligned] at positive ⊢
    exact isRounding_normalize _ positive

theorem Stored.eq_zero {u : UnpackedFloat} (h : Stored u) (zero : worth u = 0) :
    ∃ s, u = .zero s := by
  rcases h.cases with ⟨s, rfl⟩ | ⟨s, m, e, pos, rfl, -⟩
  · exact ⟨s, rfl⟩
  · have positive : (0 : ℚ) < m * 2 ^ e := by positivity
    rw [← abs_worth s m e pos, zero, abs_zero] at positive
    exact absurd positive (lt_irrefl 0)

/-- **Rounding respects the order**: it does not lead below a number that can be stored. -/
theorem IsRounding.worth_ge {u w : UnpackedFloat} {y : ℚ} (rounding : IsRounding .positive y u)
    (h : Stored w) (le : worth w ≤ y) : worth w ≤ worth u := by
  have nonneg : 0 ≤ worth u := by
    obtain ⟨g, r, grid, nearest, rfl⟩ := rounding
    rw [worth_settle (IsRounding.le_carry grid nearest), Sign.apply, Int.cast_one, one_mul]
    positivity
  rcases h.cases with ⟨s, rfl⟩ | ⟨_ | _, m, e, pos, rfl, fits⟩
  · exact nonneg
  · rw [worth_negative]
    exact le_trans (neg_nonpos.mpr (by positivity)) nonneg
  · rw [worth_positive] at le ⊢
    rw [← abs_of_nonneg nonneg]
    exact rounding.ge fits le

/-- **A sum of numbers that are not negative** is not below the first of them. -/
theorem le_add (finite : Scalar.isFinite (x + y) = true) (hx : 0 ≤ value x) (hy : 0 ≤ value y) :
    value x ≤ value (x + y) := by
  obtain ⟨finiteX, finiteY⟩ := isFinite_of_add finite
  have hu := stored_of_finite finiteX
  have hv := stored_of_finite finiteY
  have unpacked := readBack_of_finite (hu.add hv) finite
  rw [← unpack_add] at unpacked
  rw [value, Rat.cast_nonneg] at hx hy
  rw [value, value, unpacked, Rat.cast_le]
  rcases (add_nonneg hx hy).lt_or_eq with positive | none
  · exact (isRounding_add hu hv positive).worth_ge hu (le_add_of_nonneg_right hy)
  · obtain ⟨noneX, noneY⟩ := (add_eq_zero_iff_of_nonneg hx hy).mp none.symm
    obtain ⟨s, zeroX⟩ := hu.eq_zero noneX
    obtain ⟨t, zeroY⟩ := hv.eq_zero noneY
    rw [zeroX, zeroY]
    cases s <;> cases t <;> exact le_rfl

/-! ## Signs of roots -/

theorem worth_nonneg {s : Sign} (positive : s = .positive) (m : ℕ) (e : ℤ) (pos : 0 < m) :
    0 ≤ worth (.finite s m e pos) := by
  rw [positive, worth_positive]
  positivity

theorem worth_unpack_nonneg {b : BitVec Format.binary64.numBits}
    (positive : Sign.ofBitVec (unpackSign b) = .positive) :
    0 ≤ worth (UnpackedFloat.unpack Format.binary64 b) := by
  fun_cases UnpackedFloat.unpack
  case case1 | case2 | case3 => exact le_rfl
  case case4 | case5 => exact worth_nonneg positive _ _ _

/-- **A positive number is read back** as a number that is not negative. -/
theorem worth_readBack_nonneg (m : ℕ) (e : ℤ) (pos : 0 < m) :
    0 ≤ worth (readBack (.finite .positive m e pos)) := by
  have sign {x : BitVec 11} {n : BitVec 52} : Sign.ofBitVec
      (unpackSign (packComponents Format.binary64 .positive x n)) = .positive := by
    rw [unpackSign_packComponents, Sign.ofBitVec_toBitVec]
  unfold readBack UnpackedFloat.pack
  dsimp only
  split_ifs <;> exact worth_unpack_nonneg sign

/-- **A root is not negative.** -/
theorem sqrt_nonneg (x : Float) : 0 ≤ value (Scalar.sqrt x) := by
  have unpacked : (Scalar.sqrt x).toModel.unpack = readBack (x.toModel.unpack.sqrt _) := rfl
  rw [value, unpacked, Rat.cast_nonneg]
  rcases x.toModel.unpack with (_ | _) | _ | (_ | _) | ⟨_ | _, m, e, pos⟩
  case finite.positive =>
    unfold UnpackedFloat.sqrt roundWithAccuracy
    dsimp only
    split_ifs
    · exact le_rfl
    · exact worth_readBack_nonneg _ _ _
  case finite.negative =>
    show 0 ≤ worth (readBack .notANumber)
    exact le_refl (0 : ℚ)
  all_goals exact le_refl (0 : ℚ)

/-! ## Products -/

/-- **A product is rounded** to the nearest number. -/
theorem isRounding_mul (s t : Sign) {m n : ℕ} {e f : ℤ} (fits : Fits m e) (fits' : Fits n f)
    (pos : 0 < m) (pos' : 0 < n) : IsRounding (s * t) (m * 2 ^ e * (n * 2 ^ f))
      (UnpackedFloat.mul Format.binary64 (.finite s m e pos) (.finite t n f pos')) := by
  have nonzero : m * n ≠ 0 := Nat.mul_ne_zero pos.ne' pos'.ne'
  have rounding := isRounding_roundWithAccuracy (s * t) (m := m * n) (e := e + f) (a := .exact)
    rfl ?fine (.inl nonzero)
  case fine =>
    -- unless both are at the least exponent, the mantissa of one fills the product's bits
    have log (full : 2 ^ 52 ≤ m ∨ 2 ^ 52 ≤ n) : 52 ≤ (m * n).log2 := by
      refine (Nat.le_log2 nonzero).mpr ?_
      rcases full with full | full
      · exact full.trans (Nat.le_mul_of_pos_right m pos')
      · exact full.trans (Nat.le_mul_of_pos_left n pos)
    rw [grid_eq]
    rcases fits.full with full | rfl
    · have := log (.inl full)
      omega
    · rcases fits'.full with full | rfl
      · have := log (.inr full)
        omega
      · omega
  have split : ((m * n : ℕ) : ℚ) * 2 ^ (e + f) = m * 2 ^ e * (n * 2 ^ f) := by
    rw [zpow_add₀ two_ne_zero]
    push_cast
    ring
  rwa [split] at rounding

/-! ## One and the zeros -/

/-- **Multiplying by one** changes nothing. -/
theorem one_mul_of_finite (finite : Scalar.isFinite x = true) : 1 * x = x := by
  apply ext_unpack
  have product : (1 * x).toModel.unpack =
      readBack (UnpackedFloat.mul Format.binary64 (1 : Float).toModel.unpack x.toModel.unpack) :=
    rfl
  have one : (1 : Float).toModel.unpack = .finite .positive (2 ^ 52) (-52) (by decide) := by
    rw [show (1 : Float) = .ofBits 0x3FF0000000000000 by decide +kernel]
    rfl
  rw [product, one]
  refine (congrArg readBack ?_).trans (readBack_unpack x)
  rcases (stored_of_finite finite).cases with ⟨s, unpacked⟩ | ⟨s, m, e, pos, unpacked, fits⟩ <;>
    rw [unpacked]
  · cases s <;> rfl
  · have rounding := isRounding_mul .positive s (m := 2 ^ 52) (e := -52)
      ⟨by decide, by decide, .inl le_rfl⟩ fits (by decide) pos
    have same : ((2 ^ 52 : ℕ) : ℚ) * 2 ^ (-52 : ℤ) * (m * 2 ^ e) = m * 2 ^ e := by
      rw [two_pow_mul_zpow]
      norm_num
    rw [same] at rounding
    have sign : Sign.positive * s = s := by cases s <;> rfl
    rw [sign] at rounding
    exact rounding.unique (isRounding_finite s fits pos)

theorem isFinite_of_isZero (hx : IsZero x) : Scalar.isFinite x = true := by
  rcases hx with rfl | rfl <;> decide +kernel

theorem isZero_iff_value (finite : Scalar.isFinite x = true) : IsZero x ↔ value x = 0 := by
  rw [isZero_iff_eq, eq_iff_value finite (isFinite_of_isZero (.inl rfl)),
    value_of_isZero (.inl rfl)]

theorem isZero_add (hx : IsZero x) (hy : IsZero y) : IsZero (x + y) := by
  rcases hx with rfl | rfl <;> rcases hy with rfl | rfl <;> decide +kernel

theorem isZero_sub (hx : IsZero x) (hy : IsZero y) : IsZero (x - y) := by
  rcases hx with rfl | rfl <;> rcases hy with rfl | rfl <;> decide +kernel

/-- What is stored as a zero is one. -/
theorem isZero_of_readBack {u : UnpackedFloat} (unpacked : x.toModel.unpack = readBack u)
    (zero : ∃ s, u = .zero s) : IsZero x := by
  obtain ⟨s, rfl⟩ := zero
  exact isZero_iff_unpack.mpr ⟨s, unpacked.trans unpack_packedZero⟩

/-- A finite number without itself is nothing. -/
theorem isZero_sub_self (finite : Scalar.isFinite x = true) : IsZero (x - x) := by
  refine isZero_of_readBack unpack_sub ?_
  rcases (stored_of_finite finite).cases with ⟨s, unpacked⟩ | ⟨s, m, e, pos, unpacked, -⟩ <;>
    rw [unpacked]
  · cases s <;> exact ⟨.positive, rfl⟩
  · refine ⟨.positive, ?_⟩
    simp only [UnpackedFloat.neg, UnpackedFloat.add, Sign.apply_neg, Int.add_right_neg]
    rfl

theorem isZero_mul (hx : Scalar.isFinite x = true) (hy : IsZero y) : IsZero (x * y) := by
  refine isZero_of_readBack (u := x.toModel.unpack.mul _ y.toModel.unpack) rfl ?_
  obtain ⟨t, zero⟩ := isZero_iff_unpack.mp hy
  rw [zero]
  rcases (stored_of_finite hx).cases with ⟨s, unpacked⟩ | ⟨s, m, e, pos, unpacked, -⟩ <;>
    rw [unpacked] <;> exact ⟨_, rfl⟩

theorem isZero_zero_mul (hx : IsZero x) (hy : Scalar.isFinite y = true) : IsZero (x * y) := by
  refine isZero_of_readBack (u := x.toModel.unpack.mul _ y.toModel.unpack) rfl ?_
  obtain ⟨s, zero⟩ := isZero_iff_unpack.mp hx
  rw [zero]
  rcases (stored_of_finite hy).cases with ⟨t, unpacked⟩ | ⟨t, m, e, pos, unpacked, -⟩ <;>
    rw [unpacked] <;> exact ⟨_, rfl⟩

theorem isZero_div (hx : IsZero x) (finite : Scalar.isFinite y = true) (hy : ¬IsZero y) :
    IsZero (x / y) := by
  refine isZero_of_readBack (u := x.toModel.unpack.div _ y.toModel.unpack) rfl ?_
  obtain ⟨s, zero⟩ := isZero_iff_unpack.mp hx
  rw [zero]
  rcases (stored_of_finite finite).cases with ⟨t, unpacked⟩ | ⟨t, m, e, pos, unpacked, -⟩
  · exact absurd (isZero_iff_unpack.mpr ⟨t, unpacked⟩) hy
  · rw [unpacked]
    exact ⟨_, rfl⟩

/-- **Adding a zero** to a finite number does not move it. -/
theorem eq_add_zero (finite : Scalar.isFinite x = true) (hy : IsZero y) :
    Scalar.eq (x + y) x = true := by
  by_cases hx : IsZero x
  · rcases hx with rfl | rfl <;> rcases hy with rfl | rfl <;> decide +kernel
  · have same : x + y = x := by
      obtain ⟨t, zero⟩ := isZero_iff_unpack.mp hy
      have sum : x.toModel.unpack.add Format.binary64 y.toModel.unpack = x.toModel.unpack := by
        rw [zero]
        rcases (stored_of_finite finite).cases with ⟨s, unpacked⟩ | ⟨s, m, e, pos, unpacked, -⟩
        · exact absurd (isZero_iff_unpack.mpr ⟨s, unpacked⟩) hx
        · rw [unpacked]
          rfl
      apply ext_unpack
      rw [unpack_add, sum, readBack_unpack]
    rw [same]
    exact Scalar.Ordered.number_of_finite finite

end FloatScalar

end Cnc
