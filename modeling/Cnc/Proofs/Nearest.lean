import Mathlib
import Cnc.Proofs.Ordering

/-!
# Rounding to the nearest number

A floating-point number is a mantissa and an exponent. The exponent that a number
is rounded to is its grid: 53 bits stand above it, or fewer at the least exponent
(`FloatScalar.OnGrid`). On its grid a number is rounded to the nearest mantissa,
and to the even one of two that are equally near (`FloatScalar.Nearest`). Taken
together this determines the result (`FloatScalar.IsRounding`), and every
operation that rounds is shown to have such a result.

Rounding works on mantissas. What is known of the exact result is a mantissa that
it is not below and where it lies before the next one
(`FloatScalar.Locates`); shifting the mantissa keeps this up to date
(`FloatScalar.Locates.shiftRight`), and the last step chooses one of the two.
-/

namespace Cnc

namespace FloatScalar

open Float.Model UnpackedFloat

/-! ## The numbers that can be stored -/

/-- The number that an unpacked float stands for; zero if it stands for none. -/
def worth : UnpackedFloat → ℚ
  | .finite s m e _ => s.apply m * 2 ^ e
  | _ => 0

/-- **A mantissa and an exponent as they are stored**: the mantissa fills its 53 bits unless the
exponent is the least there is. -/
structure Fits (m : ℕ) (e : ℤ) : Prop where
  below : m < 2 ^ 53
  least : -1074 ≤ e
  full : 2 ^ 52 ≤ m ∨ e = -1074

/-- **A finite number in the form that is stored**, if its exponent is not too large. -/
def Stored : UnpackedFloat → Prop
  | .finite _ m e _ => Fits m e
  | .zero _ => True
  | _ => False

theorem Stored.cases {u : UnpackedFloat} (h : Stored u) :
    (∃ s, u = .zero s) ∨ ∃ s m e pos, u = .finite s m e pos ∧ Fits m e := by
  cases u with
  | zero s => exact .inl ⟨s, rfl⟩
  | finite s m e pos => exact .inr ⟨s, m, e, pos, rfl, h⟩
  | infinity | notANumber => exact h.elim

/-! ## The nearest integer -/

/-- **A number lies between a mantissa and the next one** as an accuracy says. -/
def Locates (m : ℕ) (x : ℚ) : Accuracy → Prop
  | .exact => x = m
  | .inexact .lt => m < x ∧ x < m + 1 / 2
  | .inexact .eq => x = m + 1 / 2
  | .inexact .gt => m + 1 / 2 < x ∧ x < m + 1

/-- **A nearest integer**, the even one of two. -/
structure Nearest (r : ℕ) (x : ℚ) : Prop where
  near : |(r : ℚ) - x| ≤ 1 / 2
  even : |(r : ℚ) - x| = 1 / 2 → Even r

namespace Locates

variable {m : ℕ} {x : ℚ} {a : Accuracy}

theorem bounds (located : Locates m x a) : m ≤ x ∧ x < m + 1 := by
  rcases a with _ | _ | _ | _ <;> simp only [Locates] at located
  · exact ⟨located.ge, by linarith⟩
  · exact ⟨located.1.le, by linarith⟩
  · exact ⟨by linarith, by linarith⟩
  · exact ⟨by linarith, located.2⟩

/-- **The rounded mantissa is nearest.** -/
theorem nearest (located : Locates m x a) : Nearest (a.roundToNearestEven m) x := by
  rcases a with _ | _ | _ | _ <;> simp only [Locates] at located <;>
    simp only [Accuracy.roundToNearestEven]
  · subst located
    exact ⟨by norm_num, by norm_num⟩
  · have less : |(m : ℚ) - x| < 1 / 2 := by
      rw [abs_lt]
      constructor <;> linarith
    exact ⟨less.le, fun half => absurd half less.ne⟩
  · -- of two mantissas that are equally near the even one is taken
    rcases Nat.even_or_odd m with even | odd
    · rw [Nat.even_iff.mp even, add_zero, located]
      exact ⟨by norm_num, fun _ => even⟩
    · rw [Nat.odd_iff.mp odd, located]
      refine ⟨by push_cast; rw [abs_le]; constructor <;> linarith, fun _ => odd.add_one⟩
  · have less : |((m + 1 : ℕ) : ℚ) - x| < 1 / 2 := by
      push_cast
      rw [abs_lt]
      constructor <;> linarith
    exact ⟨less.le, fun half => absurd half less.ne⟩

theorem ofMantissaAndAccuracy (located : Locates m x a) :
    Locates (ExtendedMantissa.ofMantissaAndAccuracy m a).mantissa x
      (ExtendedMantissa.ofMantissaAndAccuracy m a).accuracy := by
  rcases a with _ | _ | _ | _ <;> exact located

variable {em : ExtendedMantissa}

theorem shiftRightOne (located : Locates em.mantissa x em.accuracy) :
    Locates em.shiftRightOne.mantissa (x / 2) em.shiftRightOne.accuracy := by
  obtain ⟨m, round, sticky⟩ := em
  have parts : (m : ℚ) = 2 * (m / 2 : ℕ) + (m % 2 : ℕ) := mod_cast (Nat.div_add_mod m 2).symm
  have below := located.bounds.2
  -- the bit that is shifted out is the new round bit, and the old ones stick
  cases rest : round || sticky with
  | false =>
    obtain ⟨rfl, rfl⟩ := Bool.or_eq_false_iff.mp rest
    have exact_ : x = m := located
    rcases Nat.mod_two_eq_zero_or_one m with bit | bit <;>
      simp only [Locates, ExtendedMantissa.accuracy, ExtendedMantissa.shiftRightOne, bit,
        Nat.cast_zero, Nat.cast_one, Bool.or_false, bne_self_eq_false] at parts ⊢
    · linarith
    · show x / 2 = _
      linarith
  | true =>
    have above : m < x := by
      cases round <;> cases sticky <;>
        simp only [Locates, ExtendedMantissa.accuracy, Bool.or_false, Bool.false_eq_true]
          at located rest
      · exact located.1
      · linarith
      · linarith [located.1]
    rcases Nat.mod_two_eq_zero_or_one m with bit | bit <;>
      simp only [Locates, ExtendedMantissa.accuracy, ExtendedMantissa.shiftRightOne, bit, rest,
        Nat.cast_zero, Nat.cast_one, bne_self_eq_false] at parts below ⊢
    · constructor <;> linarith
    · show _ < x / 2 ∧ x / 2 < _
      constructor <;> linarith

/-- **Shifting a mantissa** divides the number that it is known of. -/
theorem shiftRight (located : Locates em.mantissa x em.accuracy) (k : ℕ) :
    Locates (em >>> k).mantissa (x / 2 ^ k) (em >>> k).accuracy := by
  show Locates (k.repeat ExtendedMantissa.shiftRightOne em).mantissa _
    (k.repeat ExtendedMantissa.shiftRightOne em).accuracy
  induction k with
  | zero => simpa [Nat.repeat] using located
  | succ k ih =>
    rw [pow_succ, ← div_div]
    exact ih.shiftRightOne

end Locates

namespace Nearest

variable {r n : ℕ} {x : ℚ}

theorem le (nearest : Nearest r x) (below : x ≤ n) : r ≤ n := by
  have near := abs_le.mp nearest.near
  have close : (r : ℚ) < n + 1 := by linarith
  exact Nat.lt_succ_iff.mp (mod_cast close)

theorem ge (nearest : Nearest r x) (above : n ≤ x) : n ≤ r := by
  have near := abs_le.mp nearest.near
  have close : (n : ℚ) < r + 1 := by linarith
  exact Nat.lt_succ_iff.mp (mod_cast close)

/-- **There is one nearest integer**, because of two neighbours one is odd. -/
theorem unique (nearest : Nearest r x) (nearest' : Nearest n x) : r = n := by
  by_contra differ
  wlog less : r < n generalizing r n
  · exact this nearest' nearest (Ne.symm differ) (by omega)
  have near := abs_le.mp nearest.near
  have near' := abs_le.mp nearest'.near
  have step : (r : ℚ) + 1 ≤ n := mod_cast less
  have even : Even r := nearest.even (by rw [abs_of_nonpos] <;> linarith)
  have even' : Even n := nearest'.even (by rw [abs_of_nonneg] <;> linarith)
  have next : (n : ℚ) = (r + 1 : ℕ) := by push_cast; linarith
  rw [Nat.cast_injective next, Nat.even_add_one] at even'
  exact even' even

theorem self (n : ℕ) : Nearest n n where
  near := by norm_num
  even half := absurd half (by norm_num)

end Nearest

/-! ## Grids -/

/-- **A number has a grid**, the exponent of the numbers that it is rounded to. -/
structure OnGrid (y : ℚ) (g : ℤ) : Prop where
  least : -1074 ≤ g
  below : y < 2 ^ (g + 53)
  full : 2 ^ (g + 52) ≤ y ∨ g = -1074

/-- A grid is no coarser than the size of the number needs. -/
theorem OnGrid.le_of_lt {y : ℚ} {g k : ℤ} (grid : OnGrid y g) (below : y < 2 ^ (k + 53))
    (least : -1074 ≤ k) : g ≤ k := by
  rcases grid.full with full | rfl
  · have less := (zpow_lt_zpow_iff_right₀ one_lt_two).mp (full.trans_lt below)
    omega
  · exact least

theorem OnGrid.unique {y : ℚ} {g k : ℤ} (grid : OnGrid y g) (grid' : OnGrid y k) : g = k :=
  le_antisymm (grid.le_of_lt grid'.below grid'.least) (grid'.le_of_lt grid.below grid.least)

/-- The exponent of the numbers that `m * 2 ^ e` is rounded to. -/
def grid (m : ℕ) (e : ℤ) : ℤ := Format.binary64.targetExponent (totalExponent m e)

theorem grid_eq (m : ℕ) (e : ℤ) : grid m e = max (m.log2 + e - 52) (-1074) := by
  simp only [grid, Format.targetExponent, totalExponent, Format.mantissaBits, Format.minExponent]
  norm_num
  omega

/-- **The grid of a mantissa** is that of every number between it and the next one. -/
theorem onGrid_grid {m : ℕ} {x : ℚ} {a : Accuracy} (located : Locates m x a) {e : ℤ}
    (some_ : m ≠ 0 ∨ grid m e = -1074) : OnGrid (x * 2 ^ e) (grid m e) := by
  obtain ⟨lower, upper⟩ := located.bounds
  have grid_eq := grid_eq m e
  constructor
  case least => omega
  case below =>
    have power : (m + 1 : ℚ) ≤ 2 ^ (m.log2 + 1) := mod_cast Nat.lt_log2_self
    calc x * 2 ^ e < 2 ^ (m.log2 + 1) * 2 ^ e :=
          mul_lt_mul_of_pos_right (upper.trans_le power) (by positivity)
      _ = 2 ^ (m.log2 + 1 + e) := by rw [zpow_add₀ two_ne_zero, ← zpow_natCast]; rfl
      _ ≤ 2 ^ (grid m e + 53) := zpow_le_zpow_right₀ one_le_two (by omega)
  case full =>
    refine or_iff_not_imp_right.mpr fun coarse => ?_
    have power : (2 ^ m.log2 : ℚ) ≤ m := mod_cast Nat.log2_self_le (some_.resolve_right coarse)
    calc (2 : ℚ) ^ (grid m e + 52) = 2 ^ (m.log2 + e) := by congr 1; omega
      _ = 2 ^ m.log2 * 2 ^ e := by rw [zpow_add₀ two_ne_zero, zpow_natCast]
      _ ≤ x * 2 ^ e := mul_le_mul_of_nonneg_right (power.trans lower) (by positivity)

/-! ## Rounding -/

/-- A rounded mantissa `r` at an exponent, brought into stored form: rounding may have carried it
to `2 ^ 53`. -/
def settle (s : Sign) (r : ℕ) (t : ℤ) : UnpackedFloat :=
  if h : r = 0 then .zero s
  else if r < 2 ^ 53 then .finite s r t (Nat.pos_of_ne_zero h)
  else .finite s (2 ^ 52) (t + 1) (by decide)

theorem Sign.apply_cast (s : Sign) (n : ℤ) : ((s.apply n : ℤ) : ℚ) = s.apply 1 * n := by
  cases s <;> simp [Sign.apply]

theorem Sign.abs_apply (s : Sign) (r : ℚ) : |((s.apply 1 : ℤ) : ℚ) * r| = |r| := by
  cases s <;> simp [Sign.apply]

/-- The magnitude of a number is that of its mantissa. -/
theorem abs_worth (s : Sign) (m : ℕ) (e : ℤ) (pos : 0 < m) :
    |worth (.finite s m e pos)| = m * 2 ^ e := by
  rw [worth, Sign.apply_cast, mul_assoc, Sign.abs_apply, Int.cast_natCast]
  exact abs_of_nonneg (by positivity)

theorem worth_settle {s : Sign} {r : ℕ} {t : ℤ} (carry : r ≤ 2 ^ 53) :
    worth (settle s r t) = s.apply 1 * (r * 2 ^ t) := by
  unfold settle
  split
  · next none =>
    subst none
    simp [worth]
  · split
    · rw [worth, Sign.apply_cast, mul_assoc, Int.cast_natCast]
    · obtain rfl : r = 2 ^ 53 := by omega
      rw [worth, zpow_add_one₀ two_ne_zero, Sign.apply_cast]
      push_cast
      ring

theorem stored_settle {s : Sign} {r : ℕ} {t : ℤ} (least : -1074 ≤ t)
    (full : 2 ^ 52 ≤ r ∨ t = -1074) : Stored (settle s r t) := by
  unfold settle
  split
  · trivial
  · split
    · next below => exact ⟨below, least, full⟩
    · exact ⟨by decide, by omega, .inl le_rfl⟩

theorem two_pow_mul_zpow (n : ℕ) (g : ℤ) : ((2 ^ n : ℕ) : ℚ) * 2 ^ g = 2 ^ (g + n) := by
  rw [zpow_add₀ two_ne_zero, zpow_natCast, mul_comm]
  push_cast
  rfl

/-- **The result of rounding a positive number**, with a sign: the nearest mantissa on the grid of
the number. -/
def IsRounding (s : Sign) (y : ℚ) (u : UnpackedFloat) : Prop :=
  ∃ g r, OnGrid y g ∧ Nearest r (y / 2 ^ g) ∧ u = settle s r g

namespace IsRounding

variable {s : Sign} {y : ℚ} {u : UnpackedFloat}

theorem le_carry {g : ℤ} {r : ℕ} (grid : OnGrid y g) (nearest : Nearest r (y / 2 ^ g)) :
    r ≤ 2 ^ 53 := by
  refine nearest.le ?_
  rw [div_le_iff₀ (by positivity), two_pow_mul_zpow]
  exact grid.below.le

theorem full {g : ℤ} {r : ℕ} (grid : OnGrid y g) (nearest : Nearest r (y / 2 ^ g)) :
    2 ^ 52 ≤ r ∨ g = -1074 := by
  refine grid.full.imp_left fun full => nearest.ge ?_
  rw [le_div_iff₀ (by positivity), two_pow_mul_zpow]
  exact full

theorem stored (rounding : IsRounding s y u) : Stored u := by
  obtain ⟨g, r, grid, nearest, rfl⟩ := rounding
  exact stored_settle grid.least (full grid nearest)

/-- The result of rounding has the sign that it is given. -/
theorem cases (rounding : IsRounding s y u) :
    u = .zero s ∨ ∃ m e pos, u = .finite s m e pos ∧ Fits m e := by
  have stored := rounding.stored
  obtain ⟨g, r, -, -, rfl⟩ := rounding
  revert stored
  unfold settle
  split
  · exact fun _ => .inl rfl
  · next some_ =>
    split
    · exact fun stored => .inr ⟨r, g, Nat.pos_of_ne_zero some_, rfl, stored⟩
    · exact fun stored => .inr ⟨2 ^ 52, g + 1, by decide, rfl, stored⟩

/-- **The error of rounding** is at most half a step of the grid. -/
theorem near (rounding : IsRounding s y u) {k : ℤ} (below : y < 2 ^ (k + 53))
    (least : -1074 ≤ k) : |worth u - s.apply 1 * y| ≤ 2 ^ k / 2 := by
  obtain ⟨g, r, grid, nearest, rfl⟩ := rounding
  have unit : (0 : ℚ) < 2 ^ g := by positivity
  have step : (2 : ℚ) ^ g ≤ 2 ^ k :=
    zpow_le_zpow_right₀ one_le_two (grid.le_of_lt below least)
  rw [worth_settle (le_carry grid nearest), ← mul_sub, Sign.abs_apply]
  calc |r * 2 ^ g - y| = |r - y / 2 ^ g| * 2 ^ g := by
        rw [← abs_of_pos unit, ← abs_mul, abs_of_pos unit, sub_mul, div_mul_cancel₀ _ unit.ne']
    _ ≤ 1 / 2 * 2 ^ g := mul_le_mul_of_nonneg_right nearest.near unit.le
    _ ≤ 2 ^ k / 2 := by linarith

/-- **There is one result of rounding.** -/
theorem unique {u' : UnpackedFloat} (rounding : IsRounding s y u) (rounding' : IsRounding s y u') :
    u = u' := by
  obtain ⟨g, r, grid, nearest, rfl⟩ := rounding
  obtain ⟨g', r', grid', nearest', rfl⟩ := rounding'
  obtain rfl := grid.unique grid'
  rw [nearest.unique nearest']

end IsRounding

/-- A number that can be stored is its own grid's. -/
theorem Fits.onGrid {m : ℕ} {e : ℤ} (fits : Fits m e) : OnGrid (m * 2 ^ e) e where
  least := fits.least
  below := by
    rw [show (e + 53 : ℤ) = e + (53 : ℕ) from rfl, ← two_pow_mul_zpow]
    exact mul_lt_mul_of_pos_right (mod_cast fits.below) (by positivity)
  full := fits.full.imp_left fun full => by
    rw [show (e + 52 : ℤ) = e + (52 : ℕ) from rfl, ← two_pow_mul_zpow]
    exact mul_le_mul_of_nonneg_right (mod_cast full) (by positivity)

/-- **Numbers that can be stored are not changed by rounding.** -/
theorem isRounding_finite (s : Sign) {m : ℕ} {e : ℤ} (fits : Fits m e) (pos : 0 < m) :
    IsRounding s (m * 2 ^ e) (.finite s m e pos) := by
  refine ⟨e, m, fits.onGrid, ?_, ?_⟩
  · rw [mul_div_cancel_right₀ _ (by positivity)]
    exact .self m
  · rw [settle, dif_neg pos.ne', if_pos fits.below]

/-- **Numbers near a number that can be stored are rounded to it**: those up to half a step above,
and up to half a step below, or a quarter where the numbers below lie closer; those in the middle
between two if the mantissa is even. -/
theorem isRounding_of_near (s : Sign) {m : ℕ} {e : ℤ} (fits : Fits m e) (pos : 0 < m) {c y : ℚ}
    (half : c ≤ 1 / 2) (quarter : m = 2 ^ 52 → -1074 < e → c ≤ 1 / 4) (lower : m - c ≤ y / 2 ^ e)
    (upper : y / 2 ^ e ≤ m + 1 / 2)
    (strict : ¬Even m → m - c < y / 2 ^ e ∧ y / 2 ^ e < m + 1 / 2) :
    IsRounding s y (.finite s m e pos) := by
  have unit : (0 : ℚ) < 2 ^ e := by positivity
  have below : (m : ℚ) + 1 ≤ 2 ^ 53 := mod_cast fits.below
  have size (n : ℕ) : (2 : ℚ) ^ (e + n) / 2 ^ e = 2 ^ n := by
    rw [zpow_add₀ two_ne_zero, zpow_natCast, mul_div_cancel_left₀ _ unit.ne']
  by_cases full : 2 ^ 52 ≤ y / 2 ^ e ∨ e = -1074
  · refine ⟨e, m, ⟨fits.least, ?_, full.imp_left fun full => ?_⟩, ⟨?_, fun middle => ?_⟩, ?_⟩
    · rw [← div_lt_div_iff_of_pos_right unit, show e + 53 = e + (53 : ℕ) from rfl, size]
      linarith
    · rwa [← div_le_div_iff_of_pos_right unit, show e + 52 = e + (52 : ℕ) from rfl, size]
    · rw [abs_le]
      constructor <;> linarith
    · by_contra odd
      obtain ⟨above, under⟩ := strict odd
      have less : |(m : ℚ) - y / 2 ^ e| < 1 / 2 := by
        rw [abs_lt]
        constructor <;> linarith
      exact less.ne middle
    · rw [settle, dif_neg pos.ne', if_pos fits.below]
  · -- the number is below the power of two that is rounded to, and its grid is finer
    obtain ⟨under, coarse⟩ := not_or.mp full
    have under := not_le.mp under
    have least := fits.least
    obtain rfl : m = 2 ^ 52 := by
      have small : (m : ℚ) < (2 ^ 52 + 1 : ℕ) := by
        push_cast
        linarith
      exact le_antisymm (Nat.lt_succ_iff.mp (mod_cast small)) (fits.full.resolve_right coarse)
    have close := quarter rfl (by omega)
    push_cast at lower
    have finer : y / 2 ^ (e - 1) = 2 * (y / 2 ^ e) := by
      rw [zpow_sub₀ two_ne_zero]
      field_simp
    refine ⟨e - 1, 2 ^ 53, ⟨by omega, ?_, .inl ?_⟩, ⟨?_, fun _ => by decide⟩, ?_⟩
    · rw [← div_lt_div_iff_of_pos_right unit, show e - 1 + 53 = e + (52 : ℕ) by push_cast; ring,
        size]
      exact under
    · rw [← div_le_div_iff_of_pos_right unit, show e - 1 + 52 = e + (51 : ℕ) by push_cast; ring,
        size]
      linarith
    · rw [finer, abs_le]
      push_cast
      constructor <;> linarith
    · rw [settle, dif_neg (by decide), if_neg (by decide)]
      simp

/-- **Rounding does not lead below a number that can be stored.** -/
theorem IsRounding.ge {s : Sign} {y : ℚ} {u : UnpackedFloat} (rounding : IsRounding s y u) {m : ℕ}
    {e : ℤ} (fits : Fits m e) (le : m * 2 ^ e ≤ y) : m * 2 ^ e ≤ |worth u| := by
  obtain ⟨g, r, grid, nearest, rfl⟩ := rounding
  have finer : e ≤ g := fits.onGrid.le_of_lt (le.trans_lt grid.below) grid.least
  rw [worth_settle (IsRounding.le_carry grid nearest), Sign.abs_apply,
    abs_of_nonneg (by positivity)]
  rcases finer.lt_or_eq with less | rfl
  · -- the mantissa is full, so it outweighs every mantissa on a finer grid
    have full : 2 ^ 52 ≤ r := (IsRounding.full grid nearest).resolve_right fun least => by
      have := fits.least
      omega
    calc (m : ℚ) * 2 ^ e ≤ 2 ^ 53 * 2 ^ e :=
          mul_le_mul_of_nonneg_right (mod_cast fits.below.le) (by positivity)
      _ = 2 ^ 52 * 2 ^ (e + 1) := by rw [zpow_add_one₀ two_ne_zero]; ring
      _ ≤ r * 2 ^ g := mul_le_mul (mod_cast full) (zpow_le_zpow_right₀ one_le_two less)
          (by positivity) (by positivity)
  · refine mul_le_mul_of_nonneg_right (mod_cast nearest.ge ?_) (by positivity)
    rwa [le_div_iff₀ (by positivity)]

/-! ## Rounding a mantissa -/

theorem mantissa_shiftToTargetExponent {m k : ℕ} {e : ℤ} {a : Accuracy}
    (shift : (grid m e - e).toNat = k) :
    shiftToTargetExponent Format.binary64 m e a =
      (ExtendedMantissa.ofMantissaAndAccuracy m a >>> k, e + k) := by
  subst shift
  rfl

theorem log2_le_of_lt {m n : ℕ} (below : m < 2 ^ (n + 1)) : m.log2 ≤ n := by
  by_cases none : m = 0
  · simp [none]
  · exact Nat.le_of_lt_succ ((Nat.log2_lt none).mpr below)

/-- **A rounded mantissa is settled** by the second shift, which rounds nothing. -/
theorem settle_eq {s : Sign} {r : ℕ} {t : ℤ} (carry : r ≤ 2 ^ 53) (least : -1074 ≤ t) :
    settle s r t =
      let (em, e) := shiftToTargetExponent Format.binary64 r t .exact
      if h : em.mantissa = 0 then .zero s else .finite s em.mantissa e (Nat.pos_of_ne_zero h) := by
  rcases Nat.lt_or_eq_of_le carry with below | rfl
  · have log := log2_le_of_lt below
    have stays : (grid r t - t).toNat = 0 := by rw [grid_eq]; omega
    rw [mantissa_shiftToTargetExponent stays]
    simp only [settle, below, if_true, Nat.cast_zero, add_zero]
    rfl
  · have carried : (grid (2 ^ 53) t - t).toNat = 1 := by rw [grid_eq, Nat.log2_two_pow]; omega
    rw [mantissa_shiftToTargetExponent carried]
    rfl

/-- **Dropping the bits below the grid rounds**, if there are none to be added. -/
theorem isRounding_roundWithAccuracy (s : Sign) {m : ℕ} {x : ℚ} {a : Accuracy}
    (located : Locates m x a) {e : ℤ} (fine : e ≤ grid m e) (some_ : m ≠ 0 ∨ grid m e = -1074) :
    IsRounding s (x * 2 ^ e) (roundWithAccuracy Format.binary64 s m e a) := by
  obtain ⟨k, shift⟩ : ∃ k : ℕ, grid m e = e + k := ⟨(grid m e - e).toNat, by omega⟩
  have onGrid := onGrid_grid located some_
  have nearest := (located.ofMantissaAndAccuracy.shiftRight k).nearest
  have scaled : x * 2 ^ e / 2 ^ grid m e = x / 2 ^ k := by
    rw [shift, zpow_add₀ two_ne_zero, zpow_natCast]
    field_simp
  rw [← scaled] at nearest
  refine ⟨_, _, onGrid, nearest, ?_⟩
  rw [settle_eq (IsRounding.le_carry onGrid nearest) onGrid.least]
  unfold roundWithAccuracy
  rw [mantissa_shiftToTargetExponent (k := k) (by omega), ← shift]
  rfl

theorem log2_shiftLeft {m : ℕ} (pos : m ≠ 0) (a : ℕ) : (m <<< a).log2 = m.log2 + a := by
  rw [Nat.shiftLeft_eq, Nat.log2_eq_iff (by positivity), Nat.add_right_comm, pow_add, pow_add _ _ a]
  exact ⟨Nat.mul_le_mul_right _ (Nat.log2_self_le pos),
    Nat.mul_lt_mul_of_pos_right Nat.lt_log2_self (by positivity)⟩

/-- **Rounding a mantissa and an exponent.** -/
theorem isRounding_round (s : Sign) {m : ℕ} (pos : m ≠ 0) (e : ℤ) :
    IsRounding s (m * 2 ^ e) (round Format.binary64 s m e) := by
  set a := (e - grid m e).toNat with added
  have pos' : m <<< a ≠ 0 := by simpa [Nat.shiftLeft_eq] using pos
  have same : grid (m <<< a) (e - a) = grid m e := by
    rw [grid_eq, grid_eq, log2_shiftLeft pos]
    push_cast
    congr 1
    ring
  have rounding := isRounding_roundWithAccuracy s (a := .exact) (e := e - a)
    (show Locates (m <<< a) ((m <<< a : ℕ) : ℚ) .exact from rfl) (by omega) (.inl pos')
  have worth : ((m <<< a : ℕ) : ℚ) * 2 ^ (e - a) = m * 2 ^ e := by
    rw [Nat.shiftLeft_eq, zpow_sub₀ two_ne_zero, zpow_natCast]
    push_cast
    field_simp
  rwa [worth] at rounding

end FloatScalar

end Cnc
