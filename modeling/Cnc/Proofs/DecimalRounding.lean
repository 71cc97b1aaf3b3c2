import Mathlib
import Cnc.Decimal.Numeral
import Cnc.Proofs.FiniteResults

/-!
# Decimal numerals are read as the nearest number

A decimal numeral becomes the floating-point number that its exact value is
rounded to (`Decimal.toFloat_spec`). There are two ways to it. Short numerals are
converted, and multiplied or divided by a power of ten; both are exact, so it is
one rounding. All others are computed with whole mantissas, by a product that is
rounded or by a quotient of which it is known on which side of the middle between
two mantissas it lies (`FloatScalar.isRounding_div`).
-/

namespace Cnc

namespace FloatScalar

open Float.Model UnpackedFloat

/-! ## Quotients -/

/-- **Division with remainder** locates the exact quotient. -/
theorem locates_div (m : ℕ) {n : ℕ} (pos : 0 < n) :
    Locates (m / n) (m / n) (accuracyOfFraction (m % n) n) := by
  have whole : (m : ℚ) = n * (m / n : ℕ) + (m % n : ℕ) := mod_cast (Nat.div_add_mod m n).symm
  have unit : (0 : ℚ) < n := mod_cast pos
  have split : (m : ℚ) / n = (m / n : ℕ) + (m % n : ℕ) / n := by
    rw [div_eq_iff unit.ne', add_mul, div_mul_cancel₀ _ unit.ne']
    linarith
  have below : ((m % n : ℕ) : ℚ) < n := mod_cast Nat.mod_lt m pos
  rw [split]
  generalize m % n = r at below
  unfold accuracyOfFraction
  rcases Nat.eq_zero_or_pos r with rfl | some_
  · simp [Locates]
  · have some' : (0 : ℚ) < r := mod_cast some_
    have positive : 0 < (r : ℚ) / n := div_pos some' unit
    have part : (r : ℚ) / n < 1 := (div_lt_one unit).mpr below
    rw [if_neg some_.ne']
    rcases lt_trichotomy (2 * r) n with less | same | more
    · have half : (r : ℚ) / n < 1 / 2 := by
        rw [div_lt_iff₀ unit]
        have : (2 * r : ℚ) < n := mod_cast less
        linarith
      rw [compare_lt_iff_lt.mpr less]
      exact ⟨by linarith, by linarith⟩
    · have half : (r : ℚ) / n = 1 / 2 := by
        rw [div_eq_iff unit.ne']
        have : (2 * r : ℚ) = n := mod_cast same
        linarith
      rw [compare_eq_iff_eq.mpr same]
      show _ = _
      rw [half]
    · have half : 1 / 2 < (r : ℚ) / n := by
        rw [lt_div_iff₀ unit]
        have : (n : ℚ) < 2 * r := mod_cast more
        linarith
      rw [compare_gt_iff_gt.mpr more]
      exact ⟨by linarith, by linarith⟩

theorem targetExponent_eq (e : ℤ) : Format.binary64.targetExponent e = max (e - 53) (-1074) := by
  simp only [Format.targetExponent, Format.mantissaBits, Format.minExponent]
  norm_num

/-- **A quotient is rounded** to the nearest number. -/
theorem isRounding_div (s t : Sign) {m n : ℕ} (e f : ℤ) (pos : 0 < m) (pos' : 0 < n) :
    IsRounding (s / t) (m * 2 ^ e / (n * 2 ^ f))
      (UnpackedFloat.div Format.binary64 (.finite s m e pos) (.finite t n f pos')) := by
  set g : ℤ := min (e - f) (Format.binary64.targetExponent (totalExponent m e - totalExponent n f))
    with chosen
  obtain ⟨k, shift⟩ : ∃ k : ℕ, e - f - g = k := ⟨(e - f - g).toNat, by omega⟩
  have quotient : UnpackedFloat.div Format.binary64 (.finite s m e pos) (.finite t n f pos') =
      roundWithAccuracy Format.binary64 (s / t) ((m <<< k) / n) g
        (accuracyOfFraction ((m <<< k) % n) n) := by
    show roundWithAccuracy _ _ ((m <<< (e - f - g).toNat) / n) g
      (accuracyOfFraction ((m <<< (e - f - g).toNat) % n) n) = _
    rw [shift, Int.toNat_natCast]
  rw [targetExponent_eq, totalExponent, totalExponent] at chosen
  -- the quotient fills its 53 bits, unless the grid is the least anyway
  have full : 2 ^ 52 ≤ (m <<< k) / n ∨ g ≤ -1074 := by
    refine or_iff_not_imp_right.mpr fun coarse => (Nat.le_div_iff_mul_le pos').mpr ?_
    have log := log2_shiftLeft pos.ne' k
    calc 2 ^ 52 * n ≤ 2 ^ 52 * 2 ^ (n.log2 + 1) := Nat.mul_le_mul_left _ Nat.lt_log2_self.le
      _ = 2 ^ (n.log2 + 53) := by rw [← pow_add]; congr 1; omega
      _ ≤ 2 ^ (m <<< k).log2 := Nat.pow_le_pow_right two_pos (by omega)
      _ ≤ m <<< k := Nat.log2_self_le (by simpa [Nat.shiftLeft_eq] using pos.ne')
  have log : 52 ≤ ((m <<< k) / n).log2 ∨ g ≤ -1074 :=
    full.imp_left fun full => (Nat.le_log2 (by omega)).mpr full
  have some_ : (m <<< k) / n ≠ 0 ∨ grid ((m <<< k) / n) g = -1074 := by
    rw [grid_eq]
    by_cases none : (m <<< k) / n = 0
    · rw [none, Nat.log2_zero]
      omega
    · exact .inl none
  have rounding := isRounding_roundWithAccuracy (s / t) (locates_div (m <<< k) pos') (e := g)
    (by rw [grid_eq]; omega) some_
  have exact_ : ((m <<< k : ℕ) : ℚ) / n * 2 ^ g = m * 2 ^ e / (n * 2 ^ f) := by
    have exponent : e = f + (k + g) := by omega
    rw [Nat.shiftLeft_eq, exponent, zpow_add₀ two_ne_zero f, zpow_add₀ two_ne_zero, zpow_natCast]
    push_cast
    field_simp
  rwa [exact_, ← quotient] at rounding

/-! ## Decimals -/

variable {y : ℚ} {u : UnpackedFloat}

/-- What is too large is rounded to what is stored as infinity, -/
theorem readBack_of_isRounding {s : Sign} (rounding : IsRounding s y u) (large : 2 ^ 1024 ≤ y) :
    readBack u = .infinity s := by
  have power : ((2 ^ 52 : ℕ) : ℚ) * 2 ^ (972 : ℤ) = 2 ^ 1024 := two_pow_mul_zpow 52 972
  have above := rounding.ge (m := 2 ^ 52) (e := 972) ⟨by decide, by decide, .inl le_rfl⟩
    (power.trans_le large)
  rw [power] at above
  rcases rounding.cases with rfl | ⟨m, e, pos, rfl, fits⟩
  · rw [worth_zero, abs_zero] at above
    exact absurd above (by norm_num)
  · exact readBack_of_large fits above

/-- and what is too small is rounded to zero. -/
theorem isRounding_zero (s : Sign) (nonneg : 0 ≤ y) (small : y ≤ 2 ^ (-1075 : ℤ)) :
    IsRounding s y (.zero s) := by
  have unit : (0 : ℚ) < 2 ^ (-1074 : ℤ) := by positivity
  have half : (2 : ℚ) ^ (-1075 : ℤ) = 1 / 2 * 2 ^ (-1074 : ℤ) := by
    rw [show (-1074 : ℤ) = -1075 + 1 by norm_num, zpow_add_one₀ two_ne_zero]
    ring
  have part : y / 2 ^ (-1074 : ℤ) ≤ 1 / 2 := by rwa [div_le_iff₀ unit, ← half]
  have positive : 0 ≤ y / 2 ^ (-1074 : ℤ) := div_nonneg nonneg unit.le
  refine ⟨-1074, 0, ⟨le_rfl, small.trans_lt ?_, .inr rfl⟩, ⟨?_, fun _ => by decide⟩, rfl⟩
  · exact zpow_lt_zpow_right₀ one_lt_two (by norm_num)
  · rw [Nat.cast_zero, zero_sub, abs_neg, abs_of_nonneg positive]
    exact part

section Scientific

variable {m : ℕ} (some_ : m ≠ 0) (n : ℕ)

include some_

/-- A power of ten whose exponent is not negative is multiplied by, which is rounded once. -/
theorem isRounding_up : IsRounding .positive (m * 10 ^ n)
    (roundWithAccuracy Format.binary64 .positive ((m <<< 53) * 10 ^ n) (-53 + 0) .exact) := by
  have bits : 2 ^ 53 ≤ (m <<< 53) * 10 ^ n := by
    rw [Nat.shiftLeft_eq]
    exact Nat.le_mul_of_pos_left _ (Nat.pos_of_ne_zero some_) |>.trans
      (Nat.le_mul_of_pos_right _ (by positivity))
  have log := (Nat.le_log2 (by omega)).mpr bits
  have rounding := isRounding_roundWithAccuracy .positive (m := (m <<< 53) * 10 ^ n)
    (e := -53 + 0) (a := .exact) rfl (by rw [grid_eq]; omega) (.inl (by omega))
  have exact_ : (((m <<< 53) * 10 ^ n : ℕ) : ℚ) * 2 ^ (-53 + 0 : ℤ) = m * 10 ^ n := by
    rw [Nat.shiftLeft_eq]
    push_cast
    ring
  rwa [exact_] at rounding

/-- A power of ten whose exponent is not positive is divided by, which is rounded once. -/
theorem isRounding_down : IsRounding .positive (m * 10 ^ (-(n : ℤ)))
    (UnpackedFloat.div Format.binary64 (.finite .positive m 0 (Nat.pos_of_ne_zero some_))
      (.finite .positive (10 ^ n) 0 (Nat.pow_pos (by decide)))) := by
  have rounding := isRounding_div .positive .positive 0 0 (Nat.pos_of_ne_zero some_)
    (show 0 < 10 ^ n by positivity)
  have exact_ : (m : ℚ) * 2 ^ (0 : ℤ) / ((10 ^ n : ℕ) * 2 ^ (0 : ℤ)) = m * 10 ^ (-(n : ℤ)) := by
    rw [zpow_neg, zpow_natCast, zpow_zero, mul_one, mul_one, div_eq_mul_inv]
    push_cast
    rfl
  rwa [exact_] at rounding

/-- A power of ten that is out of range above takes the decimal with it, -/
theorem two_pow_le_decimal (huge : 1024 ≤ n) : (2 : ℚ) ^ 1024 ≤ m * 10 ^ n := by
  have positive : (1 : ℚ) ≤ m := mod_cast Nat.pos_of_ne_zero some_
  calc (2 : ℚ) ^ 1024 ≤ 10 ^ 1024 := pow_le_pow_left₀ (by norm_num) (by norm_num) _
    _ ≤ 10 ^ n := pow_le_pow_right₀ (by norm_num) huge
    _ ≤ m * 10 ^ n := le_mul_of_one_le_left (by positivity) positive

omit some_ in
/-- and so does one that is out of range below. -/
theorem decimal_le_two_zpow (tiny : m.log2 + 1076 ≤ n) :
    (m : ℚ) * 10 ^ (-(n : ℤ)) ≤ 2 ^ (-1075 : ℤ) := by
  have above : (m : ℚ) ≤ 2 ^ ((m.log2 : ℤ) + 1) := mod_cast Nat.lt_log2_self.le
  calc (m : ℚ) * 10 ^ (-(n : ℤ)) ≤ 2 ^ ((m.log2 : ℤ) + 1) * 2 ^ (-(n : ℤ)) := by
        rw [zpow_neg, zpow_neg, zpow_natCast, zpow_natCast]
        gcongr
        norm_num
    _ = 2 ^ ((m.log2 : ℤ) + 1 + -(n : ℤ)) := (zpow_add₀ two_ne_zero _ _).symm
    _ ≤ 2 ^ (-1075 : ℤ) := zpow_le_zpow_right₀ one_le_two (by omega)

/-- **A decimal number is rounded** to the nearest number, and shortcuts for numbers out of range
make no difference. -/
theorem isRounding_ofScientific (e : ℤ) :
    ∃ u, IsRounding .positive (m * 10 ^ e) u ∧
      readBack (UnpackedFloat.ofScientific Format.binary64 m e) = readBack u := by
  have limit : ((2 : ℤ) ^ Format.binary64.exponentBits) = 2048 := rfl
  unfold UnpackedFloat.ofScientific
  rw [dif_neg some_, limit]
  rcases le_total 0 e with nonneg | nonpos
  · obtain ⟨n, rfl⟩ := Int.eq_ofNat_of_zero_le nonneg
    have rounding := isRounding_up some_ n
    rw [zpow_natCast, if_neg (show ¬(n : ℤ) < -(2048 + (m.log2 : ℤ)) by omega), if_pos nonneg]
    refine ⟨_, rounding, ?_⟩
    split
    · exact (readBack_of_isRounding rounding (two_pow_le_decimal some_ n (by omega))).symm
    · rfl
  · obtain ⟨n, rfl⟩ := Int.exists_eq_neg_ofNat nonpos
    rw [if_neg (show ¬-(n : ℤ) > 2048 by omega)]
    split_ifs with tiny nonneg
    · exact ⟨.zero .positive, isRounding_zero .positive (by positivity)
        (decimal_le_two_zpow n (by omega)), rfl⟩
    · obtain rfl : n = 0 := by omega
      exact ⟨_, isRounding_up some_ 0, rfl⟩
    · refine ⟨_, isRounding_down some_ n, ?_⟩
      simp only [neg_neg, Int.toNat_natCast]

end Scientific

/-! ## Short decimals -/

/-- A whole number below `2 ^ 53` times a power of two can be stored. -/
theorem exists_fits {c : ℕ} (pos : 0 < c) (below : c < 2 ^ 53) {f : ℤ} (least : -1022 ≤ f) :
    ∃ n g, 0 < n ∧ Fits n g ∧ (n : ℚ) * 2 ^ g = c * 2 ^ f := by
  have digits : c.log2 ≤ 52 := log2_le_of_lt below
  have some_ : c <<< (52 - c.log2) ≠ 0 := by simpa [Nat.shiftLeft_eq] using pos.ne'
  have log : (c <<< (52 - c.log2)).log2 = 52 := by
    rw [log2_shiftLeft pos.ne']
    omega
  obtain ⟨full, small⟩ := (Nat.log2_eq_iff some_).mp log
  refine ⟨c <<< (52 - c.log2), f - (52 - c.log2 : ℕ), Nat.pos_of_ne_zero some_,
    ⟨small, by omega, .inl full⟩, ?_⟩
  rw [Nat.shiftLeft_eq, zpow_sub₀ two_ne_zero, zpow_natCast]
  push_cast
  field_simp

/-- **Numbers that can be stored are converted exactly.** -/
theorem readBack_ofNat {c f : ℕ} (pos : 0 < c) (below : c < 2 ^ 53) (small : f ≤ 900) :
    ∃ n g, ∃ some_ : 0 < n, Fits n g ∧ (n : ℚ) * 2 ^ g = c * 2 ^ f ∧
      readBack (UnpackedFloat.ofNat Format.binary64 (c * 2 ^ f)) =
        .finite .positive n g some_ := by
  obtain ⟨n, g, some_, fits, same⟩ := exists_fits pos below (f := f) (by omega)
  have positive : 0 < (((c * 2 ^ f : ℕ) : ℤ) : ℚ) * 2 ^ (0 : ℤ) := by positivity
  have rounding := isRounding_normalize .positive positive
  have whole : (((c * 2 ^ f : ℕ) : ℤ) : ℚ) * 2 ^ (0 : ℤ) = n * 2 ^ g := by
    rw [same, zpow_natCast, zpow_zero, mul_one]
    push_cast
    rfl
  rw [whole] at rounding
  have exact_ := rounding.unique (isRounding_finite .positive fits some_)
  refine ⟨n, g, some_, fits, by rw [same, zpow_natCast], ?_⟩
  show readBack (UnpackedFloat.normalize _ _ _ _) = _
  rw [exact_]
  refine readBack_eq fits ?_
  rw [abs_worth, same, zpow_natCast]
  calc (c : ℚ) * 2 ^ f < 2 ^ 53 * 2 ^ f :=
        mul_lt_mul_of_pos_right (mod_cast below) (by positivity)
    _ = 2 ^ (53 + f) := (pow_add _ _ _).symm
    _ ≤ 2 ^ 1024 := pow_le_pow_right₀ one_le_two (by omega)

/-- The powers of ten that are stored exactly. -/
theorem exactlyRepresentablePowersOfTen_eq : ∀ e : Fin 23,
    Float.exactlyRepresentablePowersOfTen[e] = .ofModel (.ofNat (10 ^ e.val)) := by
  decide +kernel

/-- A mantissa of a short decimal is converted exactly, -/
theorem unpack_short {m : ℕ} (some_ : m ≠ 0) (below : m < 2 ^ 53) :
    ∃ n g, ∃ pos : 0 < n, Fits n g ∧ (n : ℚ) * 2 ^ g = m ∧
      m.toUInt64.toFloat.toModel.unpack = .finite .positive n g pos := by
  obtain ⟨n, g, pos, fits, whole, converted⟩ :=
    readBack_ofNat (f := 0) (Nat.pos_of_ne_zero some_) below (by decide)
  rw [pow_zero, mul_one] at whole converted
  refine ⟨n, g, pos, fits, whole, ?_⟩
  rw [← converted]
  show readBack (UnpackedFloat.ofNat _ m.toUInt64.toNat) = _
  rw [show m.toUInt64.toNat = m from Nat.mod_eq_of_lt (by omega)]

/-- and so is its power of ten. -/
theorem unpack_power {e : ℕ} (small : e ≤ 22)
    (inside : e < Float.exactlyRepresentablePowersOfTen.size) :
    ∃ k h, ∃ pos : 0 < k, Fits k h ∧ (k : ℚ) * 2 ^ h = 10 ^ e ∧
      Float.exactlyRepresentablePowersOfTen[e].toModel.unpack = .finite .positive k h pos := by
  obtain ⟨k, h, pos, fits, power, converted⟩ :=
    readBack_ofNat (c := 5 ^ e) (f := e) (by positivity)
      ((Nat.pow_le_pow_right (by decide) small).trans_lt (by decide)) (by omega)
  rw [← Nat.mul_pow] at converted
  have ten : (k : ℚ) * 2 ^ h = 10 ^ e := by
    rw [power]
    push_cast
    rw [← mul_pow]
    norm_num
  have tabled : Float.exactlyRepresentablePowersOfTen[e] = .ofModel (.ofNat (10 ^ e)) :=
    exactlyRepresentablePowersOfTen_eq ⟨e, Nat.lt_succ_of_le small⟩
  refine ⟨k, h, pos, fits, ten, ?_⟩
  rw [tabled]
  exact converted

/-- **Decimal numbers are converted to the nearest number**, short ones by way of exact powers of
ten. -/
theorem unpack_ofScientific {m : ℕ} (some_ : m ≠ 0) (down : Bool) (e : ℕ) :
    ∃ u, IsRounding .positive (m * 10 ^ (if down then -(e : ℤ) else e)) u ∧
      (Float.ofScientific m down e).toModel.unpack = readBack u := by
  unfold Float.ofScientific
  by_cases short : m < 2 ^ 53 ∧ e ≤ 22
  · have inside : e < Float.exactlyRepresentablePowersOfTen.size := Nat.lt_succ_of_le short.2
    obtain ⟨n, g, posN, fits, whole, number⟩ := unpack_short some_ short.1
    obtain ⟨k, h, posK, fits', ten, power⟩ := unpack_power short.2 inside
    rw [dif_pos short]
    cases down with
    | true =>
      have rounding := isRounding_div .positive .positive g h posN posK
      rw [whole, ten, div_eq_mul_inv, ← zpow_natCast, ← zpow_neg] at rounding
      refine ⟨_, rounding, ?_⟩
      show readBack (UnpackedFloat.div _ m.toUInt64.toFloat.toModel.unpack
        Float.exactlyRepresentablePowersOfTen[e].toModel.unpack) = _
      rw [number, power]
    | false =>
      have rounding := isRounding_mul .positive .positive fits fits' posN posK
      rw [whole, ten, ← zpow_natCast] at rounding
      refine ⟨_, rounding, ?_⟩
      show readBack (UnpackedFloat.mul _ m.toUInt64.toFloat.toModel.unpack
        Float.exactlyRepresentablePowersOfTen[e].toModel.unpack) = _
      rw [number, power]
  · rw [dif_neg short]
    obtain ⟨u, rounding, stored⟩ := isRounding_ofScientific some_ (if down then -(e : ℤ) else e)
    refine ⟨u, rounding, ?_⟩
    rw [← stored]
    cases down with
    | true =>
      show readBack (UnpackedFloat.ofScientific _ m (.negOfNat e)) = _
      rw [Int.negOfNat_eq]
      rfl
    | false => rfl

/-! ## Signs -/

theorem IsRounding.neg {s : Sign} (rounding : IsRounding s y u) : IsRounding (-s) y u.neg := by
  obtain ⟨g, r, grid, nearest, rfl⟩ := rounding
  refine ⟨g, r, grid, nearest, ?_⟩
  unfold settle
  split
  · rfl
  · split <;> rfl

/-- A sign may be changed before a number is stored or after. -/
theorem readBack_neg (h : Stored u) : readBack (readBack u).neg = readBack u.neg := by
  by_cases large : 2 ^ 1024 ≤ |worth u|
  · rcases h.cases with ⟨s, rfl⟩ | ⟨s, m, e, pos, rfl, fits⟩
    · rw [worth_zero, abs_zero] at large
      exact absurd large (by norm_num)
    · rw [readBack_of_large fits large]
      rw [abs_worth, ← abs_worth (-s) m e pos] at large
      rw [UnpackedFloat.neg, UnpackedFloat.neg, readBack_of_large fits large]
      cases s <;> rfl
  · rw [readBack_eq h (not_le.mp large)]

end FloatScalar

open Float.Model UnpackedFloat FloatScalar

/-- The sign of a numeral. -/
def Decimal.sign (d : Decimal) : Sign := if d.negative then .negative else .positive

/-- **A numeral is read as the number that its exact value is rounded to.** -/
theorem Decimal.toFloat_spec (d : Decimal) (some_ : d.digits ≠ 0) :
    ∃ u, IsRounding d.sign (d.digits * 10 ^ d.exponent) u ∧
      d.toFloat.toModel.unpack = readBack u := by
  obtain ⟨u, rounding, stored⟩ :=
    unpack_ofScientific some_ (decide (d.exponent < 0)) d.exponent.natAbs
  have exponent : (if decide (d.exponent < 0) = true then -(d.exponent.natAbs : ℤ)
      else d.exponent.natAbs) = d.exponent := by
    simp only [decide_eq_true_eq]
    omega
  rw [exponent] at rounding
  unfold Decimal.toFloat Decimal.sign
  cases d.negative with
  | false => exact ⟨u, rounding, stored⟩
  | true =>
    refine ⟨u.neg, rounding.neg, ?_⟩
    show readBack (Float.ofScientific _ _ _).toModel.unpack.neg = _
    rw [stored, readBack_neg rounding.stored]

end Cnc
