import Cnc.Proofs.Rounding

/-!
# Angles of vectors

The angle of a vector is a library function that no proof can look into.
`Angled angle` is the arithmetic that runs with a function `angle` in its place,
and `FloatScalar.AngleRules` is what is documented of it: an angle is no more
than half a turn to either side, and for vectors on the axes the signs of zeros
count. Ahead, where X is positive, zeros of opposite sign in Y have angles that
are zeros of opposite sign. Behind, where X is negative, they have angles that
lie a full turn apart.

A full turn is known up to rounding (`FloatScalar.FullTurn`).
-/

namespace Cnc

open FloatScalar

/-! ## Arithmetic with a given function for angles -/

/-- Floating-point arithmetic with a given function for the angles of vectors. -/
abbrev FloatScalar.withAngle (angle : Float → Float → Float) : Scalar Float :=
  { (inferInstance : Scalar Float) with atan2 := angle }

example : withAngle Float.atan2 = (inferInstance : Scalar Float) := rfl

/-- **Floating-point numbers** among which vectors have the angles that a given function says. -/
def Angled (_angle : Float → Float → Float) : Type := Float

instance (angle : Float → Float → Float) : Scalar (Angled angle) := withAngle angle

instance (angle : Float → Float → Float) : Scalar.Ordered (Angled angle) where
  finite_zero := Scalar.Ordered.finite_zero (α := Float)
  number_of_finite := Scalar.Ordered.number_of_finite (α := Float)
  eq_iff := Scalar.Ordered.eq_iff (α := Float)
  le_of_lt := Scalar.Ordered.le_of_lt (α := Float)
  le_of_not_lt := Scalar.Ordered.le_of_not_lt (α := Float)
  trans := Scalar.Ordered.trans (α := Float)

namespace FloatScalar

open Float.Model

variable {x y : Float}

/-! ## Turns -/

/-- The number nearest to half a turn. -/
def halfTurn : Float := Float.ofBits 0x400921FB54442D18

theorem value_halfTurn : value halfTurn = 7074237752028440 * 2 ^ (-51 : ℤ) := by
  have unpacked : halfTurn.toModel.unpack =
      .finite .positive 7074237752028440 (-51) (by decide) := rfl
  simp [value, worth, unpacked, UnpackedFloat.Sign.apply]

theorem halfTurn_pos : 0 < value halfTurn := by
  rw [value_halfTurn]
  positivity

/-- Half a turn is rounded down. -/
theorem halfTurn_near : value halfTurn ≤ Real.pi ∧ Real.pi ≤ value halfTurn + 2 ^ (-52 : ℤ) := by
  have low := Real.pi_gt_d20
  have high := Real.pi_lt_d20
  rw [value_halfTurn]
  constructor <;> norm_num at * <;> linarith

theorem abs_value_halfTurn (half : x = halfTurn ∨ x = -halfTurn) : |value x| = value halfTurn := by
  rcases half with rfl | rfl
  · exact abs_of_pos halfTurn_pos
  · rw [value_eq_neg (x := halfTurn) rfl, abs_neg]
    exact abs_of_pos halfTurn_pos

theorem value_turn : value Scalar.turn = 2 * value halfTurn := by
  have unpacked : (Scalar.turn : Float).toModel.unpack =
      .finite .positive 7074237752028440 (-50) (by decide) := rfl
  rw [value_halfTurn]
  simp only [value, worth, unpacked, UnpackedFloat.Sign.apply]
  norm_num

theorem turn_near : |value Scalar.turn - 2 * Real.pi| ≤ 2 ^ (-51 : ℤ) := by
  obtain ⟨low, high⟩ := halfTurn_near
  rw [value_turn, abs_le]
  norm_num at *
  constructor <;> linarith

/-- **A full turn, up to rounding**: a clockwise one is negative, the other positive. -/
structure FullTurn (clockwise : Bool) (s : Float) : Prop where
  finite : Scalar.isFinite s = true
  near : |value s - (if clockwise then -(2 * Real.pi) else 2 * Real.pi)| ≤ 2 ^ (-48 : ℤ)

/-- A full turn is more than half a turn. -/
theorem FullTurn.large {clockwise : Bool} (full : FullTurn clockwise x) :
    value halfTurn < |value x| := by
  have near := full.near
  have low := Real.pi_gt_three
  have half := halfTurn_near.1
  rw [abs_le] at near
  rw [lt_abs]
  cases clockwise <;> norm_num at near
  · left; linarith
  · right; linarith

theorem FullTurn.ne_zero {clockwise : Bool} (full : FullTurn clockwise x) : ¬IsZero x := by
  intro zero
  have large := full.large
  rw [value_of_isZero zero, abs_zero] at large
  exact lt_asymm halfTurn_pos large

theorem fullTurn_turn (clockwise : Bool) :
    FullTurn clockwise (if clockwise then -Scalar.turn else Scalar.turn) := by
  have near := turn_near.trans (by norm_num : _ ≤ (2 ^ (-48 : ℤ) : ℝ))
  have negated : value (-Scalar.turn) = -value Scalar.turn := value_eq_neg rfl
  cases clockwise with
  | false => exact ⟨by decide +kernel, near⟩
  | true =>
    refine ⟨by decide +kernel, ?_⟩
    rw [if_pos rfl, if_pos rfl, negated, ← neg_sub', abs_neg]
    exact near

/-! ## The function for angles -/

/-- A number is positive, or the positive zero. -/
def Ahead (x : Float) : Prop := x = 0 ∨ Scalar.lt 0 x = true

/-- A number is negative, or the negative zero. -/
def Behind (x : Float) : Prop := x = -0 ∨ Scalar.lt x 0 = true

instance Ahead.decidable (x : Float) : Decidable (Ahead x) := inferInstanceAs (Decidable (_ ∨ _))

instance Behind.decidable (x : Float) : Decidable (Behind x) := inferInstanceAs (Decidable (_ ∨ _))

theorem isNumber_zero : IsNumber 0 :=
  (eq_iff_level.mp (isZero_iff_eq.mp (.inl rfl))).1

/-- Every number is ahead or behind, -/
theorem ahead_or_behind (number : IsNumber x) : Ahead x ∨ Behind x := by
  rcases lt_trichotomy (level x) (level 0) with below | level | above
  · exact .inr (.inr (lt_iff_level.mpr ⟨number, isNumber_zero, below⟩))
  · rcases isZero_iff_eq.mpr (eq_iff_level.mpr ⟨number, isNumber_zero, level⟩) with rfl | rfl
    · exact .inl (.inl rfl)
    · exact .inr (.inl rfl)
  · exact .inl (.inr (lt_iff_level.mpr ⟨isNumber_zero, number, above⟩))

/-- and none is both. -/
theorem Ahead.not_behind (h : Ahead x) : ¬Behind x := by
  rintro (rfl | below)
  · revert h
    decide +kernel
  · rcases h with rfl | above
    · revert below
      decide +kernel
    · exact lt_asymm (lt_iff_level.mp below).2.2 (lt_iff_level.mp above).2.2

/-- **What is documented of the angle of a vector**, given as `angle y x` for the vector with
components `x` and `y`. -/
structure AngleRules (angle : Float → Float → Float) : Prop where
  finite {y x : Float} : IsNumber y → IsNumber x → Scalar.isFinite (angle y x) = true
  range {y x : Float} : IsNumber y → IsNumber x → |value (angle y x)| ≤ Real.pi
  /-- On the horizontal axis the sign of Y goes over to the angle, -/
  ahead {x : Float} : Ahead x → angle 0 x = 0 ∧ angle (-0) x = -0
  behind {x : Float} : Behind x → angle 0 x = halfTurn ∧ angle (-0) x = -halfTurn
  /-- and on the vertical axis the sign of X is of no account. -/
  upright {y : Float} : IsNumber y → ¬IsZero y → angle y 0 = angle y (-0)

/-- A function for angles that is right on both axes, and a quarter turn elsewhere. -/
def compass (y x : Float) : Float :=
  if y = 0 then if Ahead x then 0 else halfTurn
  else if y = -0 then if Ahead x then -0 else -halfTurn
  else if Ahead y then Float.ofBits 0x3FF921FB54442D18 else Float.ofBits 0xBFF921FB54442D18

theorem compass_rules : AngleRules compass where
  finite _ _ := by
    unfold compass
    split_ifs <;> decide +kernel
  range _ _ := by
    have pi := halfTurn_near.1
    have zero {x : Float} (zero : IsZero x) : |value x| ≤ Real.pi := by
      rw [value_of_isZero zero, abs_zero]
      exact Real.pi_nonneg
    have half {x : Float} (half : x = halfTurn ∨ x = -halfTurn) : |value x| ≤ Real.pi := by
      rw [abs_value_halfTurn half]
      exact pi
    have quarter {x : Float} {s : UnpackedFloat.Sign} (unpacked : x.toModel.unpack =
        .finite s 7074237752028440 (-52) (by decide)) : |value x| ≤ Real.pi := by
      rw [value, unpacked, ← Rat.cast_abs, abs_worth]
      rw [value_halfTurn] at pi
      norm_num at *
      linarith
    unfold compass
    split_ifs
    · exact zero (.inl rfl)
    · exact half (.inl rfl)
    · exact zero (.inr rfl)
    · exact half (.inr rfl)
    · exact quarter (s := .positive) rfl
    · exact quarter (s := .negative) rfl
  ahead {x} ahead := by
    have differ : (-0 : Float) ≠ 0 := by decide +kernel
    simp [compass, ahead, differ]
  behind {x} behind := by
    have differ : (-0 : Float) ≠ 0 := by decide +kernel
    have ahead : ¬Ahead x := fun ahead => ahead.not_behind behind
    simp [compass, ahead, differ]
  upright {y} _ nonzero := by
    have positive : y ≠ 0 := fun zero => nonzero (.inl zero)
    have negative : y ≠ -0 := fun zero => nonzero (.inr zero)
    simp only [compass, positive, negative, if_false]

end FloatScalar

end Cnc
