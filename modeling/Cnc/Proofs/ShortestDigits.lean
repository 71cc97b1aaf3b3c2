import Mathlib
import Cnc.Decimal.Shortest
import Cnc.Proofs.Nearest

/-!
# The shortest digits round to the number

The search for the shortest digits of a number walks down the powers of ten and
stops at one that has a multiple among the numbers that round to it
(`RoundingInterval.Holds`). It does so before it runs out of steps: a power of ten
that is no longer than the lower half of the interval has a multiple in it
(`RoundingInterval.isSome_nearestMultiple?`), and one is reached because three
decimal digits are worth no more than ten binary ones, and 28 no less than 93
(`ten_zpow_le_two_zpow`).

What the interval holds rounds to the number indeed
(`Binary.isRounding_of_holds`). Below a power of two the numbers lie closer, and
the lower end is a quarter of a step away; a number down there is rounded on the
finer grid, to a mantissa that is carried.
-/

namespace Cnc

open Float.Model UnpackedFloat FloatScalar

/-- A power with an integer exponent, as one with natural exponents over another; one of the two is
one. -/
theorem zpow_eq_div {a : ℚ} (nonzero : a ≠ 0) (j : ℤ) :
    a ^ j = a ^ j.toNat / a ^ (-j).toNat := by
  rw [← zpow_natCast, ← zpow_natCast, ← zpow_sub₀ nonzero]
  congr 1
  omega

namespace RoundingInterval

variable {i : RoundingInterval} {y : ℚ} {tie : Tie} {k : ℤ} {n : ℕ}

/-- **A number lies in the interval.** -/
def Holds (i : RoundingInterval) (y : ℚ) : Prop :=
  if i.closed then i.low ≤ y * i.denominator ∧ y * i.denominator ≤ i.high
  else i.low < y * i.denominator ∧ y * i.denominator < i.high

theorem contains_iff {d : ℕ} (pos : 0 < d) : i.contains n d = true ↔ i.Holds (n / d) := by
  have pos : (0 : ℚ) < d := mod_cast pos
  unfold contains Holds
  split
  all_goals
    simp only [Bool.and_eq_true, decide_eq_true_eq, div_mul_eq_mul_div, le_div_iff₀ pos,
      div_le_iff₀ pos, lt_div_iff₀ pos, div_lt_iff₀ pos]
    norm_cast

/-- Both neighbours that are tested are multiples of a power of ten. -/
theorem contains_multiple (n : ℕ) (k : ℤ) :
    i.contains (n * Nat.pow 10 k.toNat) (Nat.pow 10 (-k).toNat) = true ↔ i.Holds (n * 10 ^ k) := by
  rw [Nat.pow_eq, Nat.pow_eq, contains_iff (by positivity), zpow_eq_div (by norm_num) k,
    ← mul_div_assoc]
  norm_cast

/-- **The multiple that is found** lies in the interval. -/
theorem holds_of_nearestMultiple? (found : i.nearestMultiple? tie k = some n) :
    i.Holds (n * 10 ^ k) := by
  rw [← contains_multiple]
  unfold nearestMultiple? at found
  dsimp only at found
  split at found
  · next below above =>
    split at found <;> obtain rfl := Option.some.inj found
    · exact below
    · exact above
  · next below _ =>
    obtain rfl := Option.some.inj found
    exact below
  · next _ above =>
    obtain rfl := Option.some.inj found
    exact above
  · exact absurd found (by simp)

/-- **A power of ten has a multiple in the interval** if it is no longer than the lower half. -/
theorem isSome_nearestMultiple? (pos : 0 < i.denominator) (above : i.value < i.high)
    (fine : (10 : ℚ) ^ k * i.denominator ≤ i.value - i.low) :
    (i.nearestMultiple? tie k).isSome = true := by
  set unit := Nat.pow 10 k.toNat with unit_eq
  set parts := Nat.pow 10 (-k).toNat with parts_eq
  have some_ : 0 < parts := Nat.pow_pos (by decide)
  have power : (10 : ℚ) ^ k = unit / parts := by
    rw [zpow_eq_div (by norm_num), unit_eq, parts_eq, Nat.pow_eq, Nat.pow_eq]
    norm_cast
  have room : i.denominator * unit + i.low * parts ≤ i.value * parts := by
    rw [power, div_mul_eq_mul_div, div_le_iff₀ (mod_cast some_)] at fine
    have : (i.denominator * unit + i.low * parts : ℚ) ≤ i.value * parts := by linarith
    exact mod_cast this
  set step := i.denominator * unit with step_eq
  set below := i.value * parts / step with below_eq
  have stepped : 0 < step := Nat.mul_pos pos (Nat.pow_pos (by decide))
  have lower : below * step ≤ i.value * parts := Nat.div_mul_le_self _ _
  have upper : i.value * parts < below * step + step := by
    have := Nat.lt_mul_div_succ (i.value * parts) stepped
    rw [Nat.mul_succ, Nat.mul_comm step] at this
    exact this
  have high : i.value * parts < i.high * parts := Nat.mul_lt_mul_of_pos_right above some_
  have same : below * unit * i.denominator = below * step := by rw [step_eq]; ring
  have inside : i.contains (below * unit) parts = true := by
    unfold contains
    split <;> simp only [same, Bool.and_eq_true, decide_eq_true_eq] <;> omega
  unfold nearestMultiple?
  dsimp only
  rw [← unit_eq, ← parts_eq, ← step_eq, ← below_eq, inside]
  split
  · split <;> rfl
  · rfl
  · rfl
  · next outside _ => exact absurd outside (by simp)

theorem search_of_some (steps : ℕ) (found : i.nearestMultiple? tie k = some n) :
    i.search tie steps k = (n, k) := by
  unfold search
  rw [found]

theorem search_of_none (steps : ℕ) (missing : i.nearestMultiple? tie k = none) :
    i.search tie (steps + 1) k = i.search tie steps (k - 1) := by
  rw [search.eq_def, missing]

/-- **The walk down the powers of ten** ends in the interval, if it passes a power with a multiple
there. -/
theorem holds_search {steps : ℕ}
    (passed : ∃ j ≤ steps, (i.nearestMultiple? tie (k - j)).isSome = true) :
    i.Holds ((i.search tie steps k).1 * 10 ^ (i.search tie steps k).2) := by
  obtain ⟨j, le, some_⟩ := passed
  induction steps generalizing k j with
  | zero =>
    obtain rfl : j = 0 := Nat.le_zero.mp le
    rw [Nat.cast_zero, sub_zero] at some_
    obtain ⟨n, found⟩ := Option.isSome_iff_exists.mp some_
    rw [search_of_some _ found]
    exact holds_of_nearestMultiple? found
  | succ steps ih =>
    cases found : i.nearestMultiple? tie k with
    | some n =>
      rw [search_of_some _ found]
      exact holds_of_nearestMultiple? found
    | none =>
      have later : j ≠ 0 := by
        rintro rfl
        rw [Nat.cast_zero, sub_zero, found] at some_
        exact Bool.noConfusion some_
      obtain ⟨j, rfl⟩ := Nat.exists_eq_succ_of_ne_zero later
      rw [search_of_none _ found]
      refine ih j (by omega) ?_
      rwa [sub_sub, add_comm (1 : ℤ), ← Nat.cast_succ]

end RoundingInterval

/-! ## Powers of ten and of two -/

/-- **A power of ten is not above a power of two**: three decimal digits are worth no more than ten
binary ones, and of powers below one, 28 decimal digits no less than 93 binary ones. -/
theorem ten_zpow_le_two_zpow {k j : ℤ} (large : 0 ≤ k → 10 * k ≤ 3 * j)
    (small : k < 0 → 93 * k ≤ 28 * j) : (10 : ℚ) ^ k ≤ 2 ^ j := by
  rcases le_or_gt 0 k with nonneg | negative
  · have digits := large nonneg
    obtain ⟨a, rfl⟩ := Int.eq_ofNat_of_zero_le nonneg
    obtain ⟨b, rfl⟩ := Int.eq_ofNat_of_zero_le (show 0 ≤ j by omega)
    rw [zpow_natCast, zpow_natCast]
    refine le_of_pow_le_pow_left₀ (n := 3) (by decide) (by positivity) ?_
    calc ((10 : ℚ) ^ a) ^ 3 = (10 ^ 3) ^ a := pow_right_comm _ _ _
      _ ≤ (2 ^ 10) ^ a := pow_le_pow_left₀ (by norm_num) (by norm_num) a
      _ = 2 ^ (10 * a) := (pow_mul _ _ _).symm
      _ ≤ 2 ^ (b * 3) := pow_le_pow_right₀ one_le_two (by omega)
      _ = (2 ^ b) ^ 3 := pow_mul _ _ _
  · have digits := small negative
    obtain ⟨a, rfl⟩ := Int.exists_eq_neg_ofNat negative.le
    rcases le_or_gt 0 j with above | below
    · calc (10 : ℚ) ^ (-(a : ℤ)) ≤ 1 := zpow_le_one_of_nonpos₀ (by norm_num) negative.le
        _ ≤ 2 ^ j := one_le_zpow₀ one_le_two above
    · obtain ⟨b, rfl⟩ := Int.exists_eq_neg_ofNat below.le
      rw [zpow_neg, zpow_neg, zpow_natCast, zpow_natCast]
      refine inv_anti₀ (by positivity) ?_
      refine le_of_pow_le_pow_left₀ (n := 93) (by decide) (by positivity) ?_
      calc ((2 : ℚ) ^ b) ^ 93 = (2 ^ 93) ^ b := pow_right_comm _ _ _
        _ ≤ (10 ^ 28) ^ b := pow_le_pow_left₀ (by norm_num) (by norm_num) b
        _ = 10 ^ (28 * b) := (pow_mul _ _ _).symm
        _ ≤ 10 ^ (a * 93) := pow_le_pow_right₀ (by norm_num) (by omega)
        _ = (10 ^ a) ^ 93 := pow_mul _ _ _

namespace Binary

variable {b : Binary} {y : ℚ}

/-! ## What rounds to a number -/

/-- The interval in steps of a quarter: multiples of the number's power of two, over four. -/
theorem quarter (c : ℕ) (e : ℤ) :
    ((c * Nat.pow 2 (e - 2).toNat : ℕ) : ℚ) = c * 2 ^ (e - 2) * Nat.pow 2 (2 - e).toNat := by
  have unit : ((2 : ℚ) ^ (2 - e).toNat) ≠ 0 := by positivity
  rw [zpow_eq_div two_ne_zero, neg_sub, mul_assoc, Nat.pow_eq, Nat.pow_eq, Nat.cast_pow,
    Nat.cast_ofNat, div_mul_cancel₀ _ unit]
  push_cast
  rfl

/-- The distance of the lower end from the number, in quarters of a step. -/
def lowerQuarters (b : Binary) : ℕ := if b.mantissa = 2 ^ 52 ∧ -1074 < b.exponent then 1 else 2

/-- **The interval of a number**: half a step upwards, and half a step or a quarter downwards; the
ends belong to it if the mantissa is even. -/
theorem holds_interval_iff : b.interval.Holds y ↔
    if b.mantissa % 2 = 0 then
      (4 * b.mantissa - b.lowerQuarters : ℕ) * 2 ^ (b.exponent - 2) ≤ y ∧
        y ≤ (4 * b.mantissa + 2 : ℕ) * 2 ^ (b.exponent - 2)
    else
      (4 * b.mantissa - b.lowerQuarters : ℕ) * 2 ^ (b.exponent - 2) < y ∧
        y < (4 * b.mantissa + 2 : ℕ) * 2 ^ (b.exponent - 2) := by
  have unit : (0 : ℚ) < (Nat.pow 2 (2 - b.exponent).toNat : ℕ) := by
    exact mod_cast Nat.pow_pos (by decide)
  have low : b.interval.low =
      (4 * b.mantissa - b.lowerQuarters) * Nat.pow 2 (b.exponent - 2).toNat := rfl
  have high : b.interval.high = (4 * b.mantissa + 2) * Nat.pow 2 (b.exponent - 2).toNat := rfl
  have whole : b.interval.denominator = Nat.pow 2 (2 - b.exponent).toNat := rfl
  have closed : b.interval.closed = (b.mantissa % 2 = 0 : Bool) := rfl
  unfold RoundingInterval.Holds
  rw [low, high, whole, closed, quarter, quarter]
  simp only [decide_eq_true_eq, mul_le_mul_iff_of_pos_right unit, mul_lt_mul_iff_of_pos_right unit]

/-- **What the interval holds**, in steps: at most half a step above the mantissa, at most half a
step or a quarter below it, and an end only if the mantissa is even. -/
theorem near_of_holds (pos : 0 < b.mantissa) (holds : b.interval.Holds y) :
    b.mantissa - (b.lowerQuarters : ℚ) / 4 ≤ y / 2 ^ b.exponent ∧
      y / 2 ^ b.exponent ≤ b.mantissa + 1 / 2 ∧
      (¬Even b.mantissa → b.mantissa - (b.lowerQuarters : ℚ) / 4 < y / 2 ^ b.exponent ∧
        y / 2 ^ b.exponent < b.mantissa + 1 / 2) := by
  have unit : (0 : ℚ) < 2 ^ b.exponent := by positivity
  have few : b.lowerQuarters ≤ 4 * b.mantissa := by
    unfold lowerQuarters
    split <;> omega
  have step (c : ℚ) : c * 2 ^ (b.exponent - 2) = c / 4 * 2 ^ b.exponent := by
    rw [zpow_sub₀ two_ne_zero]
    ring
  rw [holds_interval_iff, step, step, ← le_div_iff₀ unit, ← div_le_iff₀ unit, ← lt_div_iff₀ unit,
    ← div_lt_iff₀ unit, Nat.cast_sub few] at holds
  push_cast at holds
  split at holds
  · next even =>
    exact ⟨by linarith [holds.1], by linarith [holds.2], fun odd =>
      absurd (Nat.even_iff.mpr even) odd⟩
  · exact ⟨by linarith [holds.1], by linarith [holds.2], fun _ =>
      ⟨by linarith [holds.1], by linarith [holds.2]⟩⟩

/-- **What the interval of a number holds rounds to it.** -/
theorem isRounding_of_holds (s : Sign) (fits : Fits b.mantissa b.exponent) (pos : 0 < b.mantissa)
    (holds : b.interval.Holds y) : IsRounding s y (.finite s b.mantissa b.exponent pos) := by
  obtain ⟨lower, upper, strict⟩ := near_of_holds pos holds
  refine isRounding_of_near s fits pos ?_ (fun full coarse => ?_) lower upper strict
  · unfold lowerQuarters
    split <;> norm_num
  · rw [lowerQuarters, if_pos ⟨full, coarse⟩]
    norm_num

/-! ## The search -/

/-- **The search ends in the interval**: the last power of ten that it may try is no longer than a
quarter of a step. -/
theorem holds_shortest (fits : Fits b.mantissa b.exponent) (pos : 0 < b.mantissa)
    (small : b.exponent ≤ 971) (tie : Tie) :
    b.interval.Holds ((b.shortest tie).1 * 10 ^ (b.shortest tie).2) := by
  have digits : b.mantissa.log2 ≤ 52 := log2_le_of_lt fits.below
  have least := fits.least
  refine RoundingInterval.holds_search ⟨24, le_rfl, ?_⟩
  set k : ℤ := ((b.mantissa.log2 : ℤ) + b.exponent) * 30103 / 100000 + 3 - (24 : ℕ) with last
  have fine : (10 : ℚ) ^ k ≤ 2 ^ (b.exponent - 2) :=
    ten_zpow_le_two_zpow (fun _ => by omega) (fun _ => by omega)
  have some_ : 0 < Nat.pow 2 (b.exponent - 2).toNat := Nat.pow_pos (by decide)
  refine RoundingInterval.isSome_nearestMultiple? (Nat.pow_pos (by decide)) ?above ?fine
  case above =>
    exact Nat.mul_lt_mul_of_pos_right (by omega) some_
  case fine =>
    have few : 1 ≤ b.lowerQuarters ∧ b.lowerQuarters ≤ 4 * b.mantissa := by
      unfold lowerQuarters
      split <;> omega
    have step := quarter 1 b.exponent
    rw [Nat.one_mul, Nat.cast_one, one_mul] at step
    calc (10 : ℚ) ^ k * (Nat.pow 2 (2 - b.exponent).toNat : ℕ)
      _ ≤ 2 ^ (b.exponent - 2) * (Nat.pow 2 (2 - b.exponent).toNat : ℕ) :=
        mul_le_mul_of_nonneg_right fine (Nat.cast_nonneg _)
      _ = (Nat.pow 2 (b.exponent - 2).toNat : ℕ) := step.symm
      _ ≤ (b.lowerQuarters : ℚ) * (Nat.pow 2 (b.exponent - 2).toNat : ℕ) :=
        le_mul_of_one_le_left (Nat.cast_nonneg _) (mod_cast few.1)
      _ = b.interval.value - b.interval.low := by
        rw [show b.interval.value = 4 * b.mantissa * Nat.pow 2 (b.exponent - 2).toNat from rfl,
          show b.interval.low = (4 * b.mantissa - b.lowerQuarters) *
            Nat.pow 2 (b.exponent - 2).toNat from rfl, Nat.cast_mul (4 * b.mantissa),
          Nat.cast_mul (4 * b.mantissa - _), Nat.cast_sub few.2]
        ring

/-- **The shortest digits of a number** round to it. -/
theorem isRounding_shortest (s : Sign) (fits : Fits b.mantissa b.exponent) (pos : 0 < b.mantissa)
    (small : b.exponent ≤ 971) (tie : Tie) :
    IsRounding s ((b.shortest tie).1 * 10 ^ (b.shortest tie).2)
      (.finite s b.mantissa b.exponent pos) :=
  isRounding_of_holds s fits pos (holds_shortest fits pos small tie)

end Binary

end Cnc
