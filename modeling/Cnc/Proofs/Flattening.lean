import Cnc.Proofs.Exact
import Cnc.Proofs.Drawing

/-!
# Arcs are cut into chords of bounded length

In exact arithmetic the chain that an arc is drawn as is inscribed in its circle
(`Toolpath.circular_flattened`). The sweep has the sign of the direction, at
most a full turn and never none. The chain has as many chords as the length of
the arc asks for, within the two bounds; every vertex but the last lies on the
circle, at equal steps of the angle, and so no chord but the last is longer than
the part of the arc that it spans. The last vertex is the programmed target
whether it lies on the circle or not.

That the vertices are joined is no question where the start is concerned: it
lies on the circle at the angle that the sweep begins with
(`Arc.start_onCircle`).
-/

namespace Cnc

/-- **The angle of a vector**, between half a turn clockwise, which it is not, and half a turn
counter-clockwise. -/
structure IsAngle (x y θ : ℝ) : Prop where
  above : -Real.pi < θ
  upTo : θ ≤ Real.pi
  cosine : √(x ^ 2 + y ^ 2) * Real.cos θ = x
  sine : √(x ^ 2 + y ^ 2) * Real.sin θ = y

theorem isAngle_atan2 (x y : ℝ) : IsAngle x y (Scalar.atan2 y x) where
  above := Complex.neg_pi_lt_arg _
  upTo := Complex.arg_le_pi _
  cosine := by
    have re := Complex.norm_mul_cos_arg ⟨x, y⟩
    rwa [Complex.norm_eq_sqrt_sq_add_sq] at re
  sine := by
    have im := Complex.norm_mul_sin_arg ⟨x, y⟩
    rwa [Complex.norm_eq_sqrt_sq_add_sq] at im

/-- **A chord is no longer than its arc.** -/
theorem chord_le_arc {r : ℝ} (nonneg : 0 ≤ r) (α β : ℝ) :
    √((r * Real.cos β - r * Real.cos α) ^ 2 + (r * Real.sin β - r * Real.sin α) ^ 2)
      ≤ r * |β - α| := by
  have square : (r * Real.cos β - r * Real.cos α) ^ 2 + (r * Real.sin β - r * Real.sin α) ^ 2
      = r ^ 2 * (2 - 2 * Real.cos (β - α)) := by
    rw [Real.cos_sub]
    linear_combination r ^ 2 * (Real.sin_sq_add_cos_sq α + Real.sin_sq_add_cos_sq β)
  have cosine : 2 - 2 * Real.cos (β - α) ≤ (β - α) ^ 2 := by
    linarith [Real.one_sub_sq_div_two_le_cos (x := β - α)]
  refine Real.sqrt_le_iff.mpr ⟨mul_nonneg nonneg (abs_nonneg _), ?_⟩
  rw [square, mul_pow, sq_abs]
  exact mul_le_mul_of_nonneg_left cosine (sq_nonneg r)

namespace Flattening

/-- A sanitized chord length is positive. -/
theorem sanitized_chord_pos (o : Flattening ℝ) : 0 < o.sanitized.chord := by
  simp only [sanitized, Bool.and_eq_true, Scalar.real_lt, Scalar.real_zero]
  split
  · next usable => exact usable.2
  · simp [standard, Scalar.ofDecimal]

end Flattening

namespace Arc

variable (a : Arc ℝ)

theorem radius_eq : a.radius = √(a.i ^ 2 + a.j ^ 2) := rfl

theorem radius_nonneg : 0 ≤ a.radius := Real.sqrt_nonneg _

/-- **The sweep goes the way of the arc**, and at most around once. -/
theorem sweep_spec :
    (a.clockwise = false → 0 < a.sweep ∧ a.sweep ≤ 2 * Real.pi)
      ∧ (a.clockwise = true → -(2 * Real.pi) ≤ a.sweep ∧ a.sweep < 0)
      ∧ ∃ k : ℤ, a.sweep = a.targetAngle - a.startAngle + k * (2 * Real.pi) := by
  have start : IsAngle _ _ a.startAngle := isAngle_atan2 _ _
  have target : IsAngle _ _ a.targetAngle := isAngle_atan2 _ _
  have := start.above
  have := start.upTo
  have := target.above
  have := target.upTo
  unfold sweep endAngle
  simp only [Scalar.real_le, Scalar.real_turn]
  cases a.clockwise with
  | false =>
    rw [if_neg Bool.false_ne_true]
    split
    · exact ⟨fun _ => ⟨by linarith, by linarith⟩, fun other => absurd other Bool.false_ne_true,
        1, by push_cast; ring⟩
    · exact ⟨fun _ => ⟨by linarith, by linarith⟩, fun other => absurd other Bool.false_ne_true,
        0, by push_cast; ring⟩
  | true =>
    rw [if_pos rfl]
    split
    · exact ⟨fun other => absurd other.symm Bool.false_ne_true,
        fun _ => ⟨by linarith, by linarith⟩, -1, by push_cast; ring⟩
    · exact ⟨fun other => absurd other.symm Bool.false_ne_true,
        fun _ => ⟨by linarith, by linarith⟩, 0, by push_cast; ring⟩

/-- The number of chords, in the arithmetic of the natural numbers. -/
theorem chords_eq (o : Flattening ℝ) :
    a.chords o = min (max ⌈|a.sweep| * a.radius / o.chord⌉₊ o.least) o.most := by
  rw [← abs_real]
  rfl

/-- **The point after a share of the sweep.** -/
noncomputable def pointAt (t : ℝ) : Point ℝ :=
  ⟨a.centreX + a.radius * Real.cos (a.startAngle + a.sweep * t),
    a.centreY + a.radius * Real.sin (a.startAngle + a.sweep * t),
    a.start.z + (a.target.z - a.start.z) * t⟩

theorem onCircle_eq (k n : ℕ) : a.onCircle k n = a.pointAt (k / n) := by
  unfold onCircle pointAt
  simp only [Scalar.real_ofNatural]
  rfl

/-- **The start lies on the circle**, where the sweep begins. -/
theorem start_onCircle : a.pointAt 0 = a.start := by
  have angle : IsAngle (a.start.x - a.centreX) (a.start.y - a.centreY) a.startAngle :=
    isAngle_atan2 _ _
  have radius : √((a.start.x - a.centreX) ^ 2 + (a.start.y - a.centreY) ^ 2) = a.radius := by
    rw [radius_eq]
    congr 1
    unfold centreX centreY
    ring
  have hx := angle.cosine
  have hy := angle.sine
  rw [radius] at hx hy
  unfold pointAt
  rw [mul_zero, mul_zero, add_zero, add_zero, hx, hy, add_sub_cancel, add_sub_cancel]

/-- The vertices but the last are points on the circle. -/
theorem vertex_eq {n k : ℕ} (inner : k < n) : a.vertex n k = a.pointAt (k / n) := by
  unfold vertex
  split
  · next zero => rw [zero, Nat.cast_zero, zero_div, start_onCircle]
  · rw [if_neg inner.ne, onCircle_eq]

/-- Points on the circle are as far from the centre as the start. -/
theorem pointAt_radius (t : ℝ) :
    √(((a.pointAt t).x - a.centreX) ^ 2 + ((a.pointAt t).y - a.centreY) ^ 2) = a.radius := by
  refine (Real.sqrt_eq_iff_mul_self_eq (by positivity) a.radius_nonneg).mpr ?_
  unfold pointAt
  linear_combination
    a.radius ^ 2 * Real.sin_sq_add_cos_sq (a.startAngle + a.sweep * t)

end Arc

namespace Toolpath

/-- The distance of two positions without their height. -/
noncomputable def flatDistance (p q : Point ℝ) : ℝ := √((q.x - p.x) ^ 2 + (q.y - p.y) ^ 2)

/-- **The chord between two points on the circle** is no longer than the arc from one step of the
angle to the next. -/
theorem vertex_span (a : Arc ℝ) {n k : ℕ} (inner : k + 1 < n) :
    flatDistance (a.vertex n k) (a.vertex n (k + 1)) ≤ |a.sweep| * a.radius / n := by
  have arc := chord_le_arc a.radius_nonneg (a.startAngle + a.sweep * (k / n))
    (a.startAngle + a.sweep * ((k + 1 : ℕ) / n))
  have step : a.startAngle + a.sweep * ((k + 1 : ℕ) / n) - (a.startAngle + a.sweep * (k / n))
      = a.sweep / n := by
    push_cast
    ring
  rw [step, abs_div, Nat.abs_cast] at arc
  rw [Arc.vertex_eq a (by omega), Arc.vertex_eq a inner, flatDistance]
  simp only [Arc.pointAt, add_sub_add_left_eq_sub]
  exact arc.trans_eq (by ring)

/-- An arc with a radius is drawn from vertex to vertex. -/
theorem circular_of_wide (o : Flattening ℝ) (line : ℕ) {a : Arc ℝ} (wide : 1e-9 ≤ a.radius) :
    circular o line a = (List.range (a.chords o)).map fun k =>
      ⟨.arc, line, a.vertex (a.chords o) k, a.vertex (a.chords o) (k + 1)⟩ := by
  have least : (Scalar.ofDecimal ⟨false, 1, -9⟩ : ℝ) = 1e-9 := by
    simp only [Scalar.ofDecimal]
    norm_num
  have round : ¬ a.isDegenerate = true := by
    rw [Arc.isDegenerate, Scalar.real_lt, least]
    exact not_lt.mpr wide
  exact if_neg round

/-- **Chords that an arc is flattened into.** -/
structure Flattened (o : Flattening ℝ) (a : Arc ℝ) (cs : List (Chord ℝ)) : Prop where
  startAngle : IsAngle (a.start.x - a.centreX) (a.start.y - a.centreY) a.startAngle
  targetAngle : IsAngle (a.target.x - a.centreX) (a.target.y - a.centreY) a.targetAngle
  counterclockwise : a.clockwise = false → 0 < a.sweep ∧ a.sweep ≤ 2 * Real.pi
  clockwise : a.clockwise = true → -(2 * Real.pi) ≤ a.sweep ∧ a.sweep < 0
  turns : ∃ k : ℤ, a.sweep = a.targetAngle - a.startAngle + k * (2 * Real.pi)
  count : cs.length = min (max ⌈|a.sweep| * a.radius / o.chord⌉₊ o.least) o.most
  begins : cs.head?.map (·.start) = some a.start
  ends : cs.getLast?.map (·.finish) = some a.target
  joined : cs.IsChain fun c d => d.start = c.finish
  /-- The inner ends stand at equal steps of the angle and of the height, -/
  inner : ∀ (k : ℕ) (c : Chord ℝ), cs[k]? = some c → k + 1 < cs.length →
    c.finish.x = a.start.x + a.i
        + a.radius * Real.cos (a.startAngle + a.sweep * ((k + 1 : ℕ) / cs.length))
      ∧ c.finish.y = a.start.y + a.j
        + a.radius * Real.sin (a.startAngle + a.sweep * ((k + 1 : ℕ) / cs.length))
      ∧ c.finish.z = a.start.z + (a.target.z - a.start.z) * ((k + 1 : ℕ) / cs.length)
  /-- and on the circle around the centre through the start. -/
  onCircle : ∀ (k : ℕ) (c : Chord ℝ), cs[k]? = some c → k + 1 < cs.length →
    √((c.finish.x - (a.start.x + a.i)) ^ 2 + (c.finish.y - (a.start.y + a.j)) ^ 2)
      = √(a.i ^ 2 + a.j ^ 2)
  /-- The chords before the last are no longer than the arcs that they span, -/
  spans : ∀ (k : ℕ) (c : Chord ℝ), cs[k]? = some c → k + 1 < cs.length →
    flatDistance c.start c.finish ≤ |a.sweep| * a.radius / cs.length
  /-- which are no longer than the length aimed at if this takes no more chords than there may be. -/
  fine : ⌈|a.sweep| * a.radius / o.chord⌉₊ ≤ o.most →
    ∀ (k : ℕ) (c : Chord ℝ), cs[k]? = some c → k + 1 < cs.length →
      flatDistance c.start c.finish ≤ o.chord

/-- As many chords as the length of the arc asks for span no more than the length aimed at. -/
theorem span_le_of_count {l chord : ℝ} {least most n : ℕ} (positive : 0 < chord)
    (count : n = min (max ⌈l / chord⌉₊ least) most) (some : 0 < n)
    (enough : ⌈l / chord⌉₊ ≤ most) : l / n ≤ chord := by
  have asked : ⌈l / chord⌉₊ ≤ n := by omega
  have covered : l / chord ≤ n := (Nat.le_ceil _).trans (Nat.cast_le.mpr asked)
  rw [div_le_iff₀ (Nat.cast_pos.mpr some)]
  linarith [(div_le_iff₀ positive).mp covered]

/-- **Every arc with a radius is flattened into chords** on its circle, for all options. The sweep
goes the way of the arc and around at most once, the number of chords is what the length of the arc
asks for within the bounds, the chords lead from the start to the target over points on the circle,
and none but the last is longer than the part of the arc that it spans, nor than the length aimed
at unless the arc would need too many chords. -/
theorem circular_flattened (o : Flattening ℝ) (line : ℕ) (a : Arc ℝ)
    (wide : 1e-9 ≤ a.radius) : Flattened o.sanitized a (circular o.sanitized line a) := by
  obtain ⟨counterclockwise, clockwise, turns⟩ := a.sweep_spec
  have drawn := circular_of_wide o.sanitized line wide
  have count := a.chords_eq o.sanitized
  have some : 0 < a.chords o.sanitized := by
    have := sanitized_bounds o
    have := chords_bounds a (sanitized_bounds o).2
    omega
  generalize a.chords o.sanitized = n at drawn count some
  have length : (circular o.sanitized line a).length = n := by
    rw [drawn, List.length_map, List.length_range]
  have chord {k : ℕ} {c : Chord ℝ} (here : (circular o.sanitized line a)[k]? = Option.some c) :
      c.start = a.vertex n k ∧ c.finish = a.vertex n (k + 1) := by
    rw [drawn, List.getElem?_map] at here
    obtain ⟨k', index, rfl⟩ := Option.map_eq_some_iff.mp here
    obtain ⟨-, rfl⟩ := List.getElem?_eq_some_iff.mp index
    rw [List.getElem_range]
    exact ⟨rfl, rfl⟩
  have spans (k : ℕ) (c : Chord ℝ) (here : (circular o.sanitized line a)[k]? = Option.some c)
      (inner : k + 1 < n) : flatDistance c.start c.finish ≤ |a.sweep| * a.radius / n := by
    rw [(chord here).1, (chord here).2]
    exact vertex_span a inner
  constructor
  case startAngle => exact isAngle_atan2 _ _
  case targetAngle => exact isAngle_atan2 _ _
  case counterclockwise => exact counterclockwise
  case clockwise => exact clockwise
  case turns => exact turns
  case count => rw [length, count]
  case begins =>
    obtain ⟨m, rfl⟩ := Nat.exists_eq_add_one.mpr some
    rw [drawn, List.range_succ_eq_map]
    rfl
  case ends =>
    obtain ⟨m, rfl⟩ := Nat.exists_eq_add_one.mpr some
    rw [drawn, List.range_succ, List.map_append, List.map_singleton, List.getLast?_concat,
      Option.map_some, vertex_last a (by omega)]
  case joined =>
    rw [drawn, List.isChain_map]
    exact (List.isChain_range _ _).mpr fun k _ => rfl
  case inner =>
    intro k c here inner
    rw [length] at inner ⊢
    rw [(chord here).2, Arc.vertex_eq a inner]
    exact ⟨rfl, rfl, rfl⟩
  case onCircle =>
    intro k c here inner
    rw [length] at inner
    rw [(chord here).2, Arc.vertex_eq a inner]
    exact a.pointAt_radius _
  case spans =>
    rw [length]
    exact spans
  case fine =>
    intro enough k c here inner
    rw [length] at inner
    exact (spans k c here inner).trans
      (span_le_of_count o.sanitized_chord_pos count some enough)

/-- A clockwise half circle that goes down on its way. -/
theorem circular_flattened_helix :
    (1e-9 : ℝ) ≤ (⟨⟨0, 0, 0⟩, ⟨0, -20, -4⟩, 0, -10, true⟩ : Arc ℝ).radius
      ∧ Flattened (Flattening.standard : Flattening ℝ).sanitized
        ⟨⟨0, 0, 0⟩, ⟨0, -20, -4⟩, 0, -10, true⟩
        (circular (Flattening.standard : Flattening ℝ).sanitized 0
          ⟨⟨0, 0, 0⟩, ⟨0, -20, -4⟩, 0, -10, true⟩) := by
  have wide : (1e-9 : ℝ) ≤ (⟨⟨0, 0, 0⟩, ⟨0, -20, -4⟩, 0, -10, true⟩ : Arc ℝ).radius := by
    rw [Arc.radius_eq]
    norm_num
  exact ⟨wide, circular_flattened .standard 0 _ wide⟩

end Toolpath

end Cnc
