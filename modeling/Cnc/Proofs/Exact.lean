import Mathlib
import Cnc.Geometry.Point

/-!
# Exact arithmetic

The definitions of this library are written over any arithmetic. Here they are
read in the real numbers, where nothing is rounded: comparisons are those of the
reals, the angle of a vector is its argument in `(-π, π]`, and every value is
finite.

Positions are then points of Euclidean space (`Point.toSpace`), and what is
needed of distances is known there.
-/

namespace Cnc

open Classical in
/-- **The real numbers.** -/
noncomputable instance : Scalar ℝ where
  ofDecimal d := (if d.negative then -1 else 1) * d.digits * 10 ^ d.exponent
  isFinite _ := true
  eq x y := x = y
  lt x y := x < y
  le x y := x ≤ y
  sqrt := Real.sqrt
  hypot x y := √(x ^ 2 + y ^ 2)
  atan2 y x := Complex.arg ⟨x, y⟩
  cos := Real.cos
  sin := Real.sin
  turn := 2 * Real.pi
  ceil x := ⌈x⌉₊
  natural? x := if x = ⌊x⌋₊ then some ⌊x⌋₊ else none

namespace Scalar

variable {x y : ℝ}

@[simp] theorem real_eq : eq x y = true ↔ x = y := decide_eq_true_iff
@[simp] theorem real_lt : lt x y = true ↔ x < y := decide_eq_true_iff
@[simp] theorem real_le : le x y = true ↔ x ≤ y := decide_eq_true_iff

@[simp] theorem real_ofNatural (n : ℕ) : (ofNatural n : ℝ) = n := by
  simp [ofNatural, ofDecimal]

@[simp] theorem real_zero : (zero : ℝ) = 0 := by simp [zero]
@[simp] theorem real_one : (one : ℝ) = 1 := by simp [one]

@[simp] theorem real_turn : (turn : ℝ) = 2 * Real.pi := rfl

@[simp] theorem real_isNaN : isNaN x = false := by simp [isNaN]

end Scalar

theorem abs_real (x : ℝ) : Scalar.abs x = |x| := by
  unfold Scalar.abs
  split
  · next negative =>
    rw [Scalar.real_lt, Scalar.real_zero] at negative
    rw [abs_of_neg negative, Scalar.real_zero, zero_sub]
  · next nonneg =>
    rw [Scalar.real_lt, Scalar.real_zero, not_lt] at nonneg
    rw [abs_of_nonneg nonneg]

theorem clampUnit_real (x : ℝ) : Scalar.clampUnit x = max 0 (min x 1) := by
  unfold Scalar.clampUnit
  simp only [Scalar.real_lt, Scalar.real_zero, Scalar.real_one]
  split
  · next below => rw [max_eq_left (min_le_of_left_le below.le)]
  · next nonneg =>
    split
    · next above => rw [min_eq_right above.le, max_eq_right zero_le_one]
    · next small => rw [min_eq_left (not_lt.mp small), max_eq_right (not_lt.mp nonneg)]

/-! ## Positions in space -/

namespace Point

variable {p q r : Point ℝ}

/-- A position as a point of Euclidean space. -/
noncomputable def toSpace (p : Point ℝ) : EuclideanSpace ℝ (Fin 3) := !₂[p.x, p.y, p.z]

theorem toSpace_injective : Function.Injective toSpace := by
  rintro ⟨x, y, z⟩ ⟨x', y', z'⟩ same
  have coordinate (i : Fin 3) := congrFun (congrArg WithLp.ofLp same) i
  have hx := coordinate 0
  have hy := coordinate 1
  have hz := coordinate 2
  simp only [toSpace, Matrix.cons_val] at hx hy hz
  rw [hx, hy, hz]

theorem distance_eq (p q : Point ℝ) :
    p.distance q = √((q.x - p.x) ^ 2 + (q.y - p.y) ^ 2 + (q.z - p.z) ^ 2) := by
  simp only [sq]
  rfl

theorem dist_toSpace (p q : Point ℝ) : dist p.toSpace q.toSpace = p.distance q := by
  rw [EuclideanSpace.dist_eq, Fin.sum_univ_three, distance_eq]
  simp only [toSpace, Matrix.cons_val, Real.dist_eq, sq_abs, sub_sq_comm p.x, sub_sq_comm p.y,
    sub_sq_comm p.z]

theorem toSpace_lerp (p q : Point ℝ) (t : ℝ) :
    (p.lerp q t).toSpace = AffineMap.lineMap p.toSpace q.toSpace t := by
  ext i
  rw [AffineMap.lineMap_apply]
  fin_cases i <;> simp [toSpace, lerp] <;> ring

theorem distance_self (p : Point ℝ) : p.distance p = 0 := by rw [← dist_toSpace, dist_self]

theorem distance_comm (p q : Point ℝ) : p.distance q = q.distance p := by
  rw [← dist_toSpace, dist_comm, dist_toSpace]

theorem distance_nonneg (p q : Point ℝ) : 0 ≤ p.distance q := by
  rw [← dist_toSpace]
  exact dist_nonneg

theorem distance_triangle (p q r : Point ℝ) : p.distance r ≤ p.distance q + q.distance r := by
  simp only [← dist_toSpace]
  exact dist_triangle _ _ _

theorem eq_of_distance (zero : p.distance q = 0) : p = q := by
  rw [← dist_toSpace] at zero
  exact toSpace_injective (dist_eq_zero.mp zero)

@[simp] theorem lerp_zero (p q : Point ℝ) : p.lerp q 0 = p := by simp [lerp]

@[simp] theorem lerp_one (p q : Point ℝ) : p.lerp q 1 = q := by simp [lerp]

/-- Two points on one line. -/
theorem distance_lerp_lerp (p q : Point ℝ) (t u : ℝ) :
    (p.lerp q t).distance (p.lerp q u) = |t - u| * p.distance q := by
  simp only [← dist_toSpace, toSpace_lerp, dist_lineMap_lineMap, Real.dist_eq]

/-- **A position lies on the way from one to another**: going by it is no detour. -/
def Between (p q r : Point ℝ) : Prop := p.distance q + q.distance r = p.distance r

/-- **The positions on the way** are those at a fraction of it. -/
theorem between_iff_lerp : p.Between q r ↔ ∃ t, 0 ≤ t ∧ t ≤ 1 ∧ q = p.lerp r t := by
  rw [Between, ← dist_toSpace, ← dist_toSpace, ← dist_toSpace, dist_add_dist_eq_iff]
  constructor
  · rintro ⟨t, ⟨nonneg, le_one⟩, same⟩
    rw [← toSpace_lerp] at same
    exact ⟨t, nonneg, le_one, (toSpace_injective same).symm⟩
  · rintro ⟨t, nonneg, le_one, rfl⟩
    exact ⟨t, ⟨nonneg, le_one⟩, (toSpace_lerp p r t).symm⟩

end Point

end Cnc
