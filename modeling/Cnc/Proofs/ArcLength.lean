import Cnc.Proofs.Exact
import Cnc.Toolpath.Progress

/-!
# Progress is arc length

In exact arithmetic the point at a progress is the one that is reached by
walking this share of the whole length along the path
(`Toolpath.followsLength_of_measured`). Progress that grows never goes back on
the path, and no two points are further apart than the length between them, so
nothing jumps where one segment ends and the next one begins.

What walking means is said without numbers of the program (`Toolpath.Walk`):
a walk ends on the first segment or goes beyond it, and a position lies on a
segment if going by it is no detour. Everything follows from one bound: two
walks that differ by a length end no further apart than this length
(`Toolpath.Walk.near`). In particular a walk has one end only, and the lookup,
which takes the first segment that reaches the length, finds it, even where
segments without length stand at a joint.
-/

namespace Cnc

namespace Point

variable {p q r : Point ℝ}

/-- The way to a position between two others, along a straight line. -/
theorem distance_lerp (p r : Point ℝ) {t : ℝ} (nonneg : 0 ≤ t) :
    p.distance (p.lerp r t) = t * p.distance r := by
  have line := distance_lerp_lerp p r 0 t
  rwa [lerp_zero, zero_sub, abs_neg, abs_of_nonneg nonneg] at line

/-- **Two positions on one way** are as far apart as their ways from its beginning differ. -/
theorem Between.distance {q' : Point ℝ} (on : p.Between q r) (on' : p.Between q' r) :
    q.distance q' = |p.distance q - p.distance q'| := by
  obtain ⟨t, ht, -, rfl⟩ := between_iff_lerp.mp on
  obtain ⟨u, hu, -, rfl⟩ := between_iff_lerp.mp on'
  rw [distance_lerp_lerp, distance_lerp p r ht, distance_lerp p r hu, ← sub_mul, abs_mul,
    abs_of_nonneg (distance_nonneg p r)]

end Point

namespace Toolpath

/-! ## Walking -/

/-- **Walking a distance along a path** leads to a position. -/
inductive Walk : List (Segment ℝ) → ℝ → Point ℝ → Prop where
  /-- The walk ends on the first segment. -/
  | within {s : Segment ℝ} {rest : List (Segment ℝ)} {p : Point ℝ}
      (on : s.start.Between p s.finish) : Walk (s :: rest) (s.start.distance p) p
  /-- The walk goes beyond it. -/
  | beyond {s : Segment ℝ} {rest : List (Segment ℝ)} {d : ℝ} {p : Point ℝ}
      (further : Walk rest d p) : Walk (s :: rest) (s.start.distance s.finish + d) p

/-- Every segment begins where the one before it ends. -/
abbrev Chained (path : List (Segment ℝ)) : Prop := path.IsChain fun s u => u.start = s.finish

namespace Walk

variable {path front rest : List (Segment ℝ)} {s : Segment ℝ} {d e : ℝ} {p q : Point ℝ}

/-- No walk leads further away from where it begins than it is long. -/
theorem from_start (chained : Chained path) (walk : Walk path d p) :
    ∀ s ∈ path.head?, s.start.distance p ≤ d := by
  induction walk with
  | within on =>
    intro s first
    obtain rfl := Option.some.inj first
    exact le_rfl
  | @beyond s rest d p further ih =>
    intro s' first
    obtain rfl := Option.some.inj first
    obtain ⟨u, tail, rfl⟩ : ∃ u tail, rest = u :: tail := by
      cases further <;> exact ⟨_, _, rfl⟩
    obtain ⟨joint, chained⟩ := List.isChain_cons_cons.mp chained
    have onward := ih chained u rfl
    rw [joint] at onward
    exact (Point.distance_triangle _ s.finish _).trans (add_le_add le_rfl onward)

/-- A position on the first segment and the end of a walk that goes beyond it. -/
theorem past_joint (chained : Chained (s :: rest)) (on : s.start.Between p s.finish)
    (further : Walk rest e q) :
    p.distance q ≤ |s.start.distance p - (s.start.distance s.finish + e)| := by
  obtain ⟨u, tail, rfl⟩ : ∃ u tail, rest = u :: tail := by
    cases further <;> exact ⟨_, _, rfl⟩
  obtain ⟨joint, chained⟩ := List.isChain_cons_cons.mp chained
  have onward := further.from_start chained u rfl
  rw [joint] at onward
  have upTo : s.start.distance p + p.distance s.finish = s.start.distance s.finish := on
  calc p.distance q ≤ p.distance s.finish + s.finish.distance q := Point.distance_triangle _ _ _
    _ ≤ (s.start.distance s.finish + e) - s.start.distance p := by linarith
    _ ≤ |s.start.distance p - (s.start.distance s.finish + e)| := by
      rw [abs_sub_comm]
      exact le_abs_self _

/-- **Walks end no further apart than their lengths differ.** -/
theorem near (chained : Chained path) (walk : Walk path d p) (walk' : Walk path e q) :
    p.distance q ≤ |d - e| := by
  induction walk generalizing e q with
  | within on =>
    cases walk' with
    | within on' => exact (on.distance on').le
    | beyond further => exact past_joint chained on further
  | beyond further ih =>
    cases walk' with
    | within on' =>
      rw [Point.distance_comm, abs_sub_comm]
      exact past_joint chained on' further
    | beyond further' =>
      rw [add_sub_add_left_eq_sub]
      exact ih chained.of_cons further'

/-- **A walk has one end.** -/
theorem unique (chained : Chained path) (walk : Walk path d p) (walk' : Walk path d q) : p = q := by
  have near := near chained walk walk'
  rw [sub_self, abs_zero] at near
  exact Point.eq_of_distance (near.antisymm (Point.distance_nonneg p q))

/-- A walk behind some segments is a walk along all of them. -/
theorem append (front : List (Segment ℝ)) (walk : Walk rest d p) :
    Walk (front ++ rest) ((front.map fun s => s.start.distance s.finish).sum + d) p := by
  induction front with
  | nil => simpa using walk
  | cons s front ih =>
    rw [List.cons_append, List.map_cons, List.sum_cons, add_assoc]
    exact .beyond ih

end Walk

/-! ## Measured paths -/

/-- The length of the segments before an index. -/
def lengthBefore (path : List (Segment ℝ)) (k : ℕ) : ℝ := ((path.take k).map (·.length)).sum

/-- **A measured path**: one chain that is not empty, the lengths of whose segments are the
distances between their ends, the travelled lengths their running sums and the total length the last
of these. -/
structure Measured (path : List (Segment ℝ)) (total : ℝ) : Prop where
  nonempty : path ≠ []
  chained : Chained path
  length : ∀ s ∈ path, s.length = s.start.distance s.finish
  travelled : ∀ (k : ℕ) (s : Segment ℝ), path[k]? = some s →
    s.travelled = lengthBefore path (k + 1)
  total : ∀ s ∈ path.getLast?, s.travelled = total

/-- **The length that a progress stands for**: its share of the total, nothing before the path
begins and all of it after its end. -/
noncomputable def lengthAt (total t : ℝ) : ℝ := max 0 (min t 1) * total

theorem travelledAt_eq (total t : ℝ) : travelledAt total t = lengthAt total t := by
  unfold travelledAt fractionOf lengthAt
  rw [Scalar.real_isNaN, if_neg Bool.false_ne_true, clampUnit_real]

theorem reaches_iff {total t l : ℝ} :
    Scalar.le (travelledAt total t) l = true ↔ lengthAt total t ≤ l := by
  rw [Scalar.real_le, travelledAt_eq]

theorem lengthAt_mono {total t u : ℝ} (nonneg : 0 ≤ total) (le : t ≤ u) :
    lengthAt total t ≤ lengthAt total u :=
  mul_le_mul_of_nonneg_right (max_le_max le_rfl (min_le_min_right _ le)) nonneg

/-- Moving a progress moves its length by no more than the same share. -/
theorem abs_lengthAt_sub_le {total : ℝ} (nonneg : 0 ≤ total) (t u : ℝ) :
    |lengthAt total t - lengthAt total u| ≤ |t - u| * total := by
  rw [lengthAt, lengthAt, ← sub_mul, abs_mul, abs_of_nonneg nonneg]
  refine mul_le_mul_of_nonneg_right ?_ nonneg
  calc |max 0 (min t 1) - max 0 (min u 1)| ≤ |min t 1 - min u 1| := by
        rw [max_comm 0, max_comm 0]
        exact abs_max_sub_max_le_abs _ _ _
    _ ≤ max |t - u| |(1 : ℝ) - 1| := abs_min_sub_min_le_max _ _ _ _
    _ = |t - u| := by rw [sub_self, abs_zero, max_eq_left (abs_nonneg _)]

/-- The index of the segment at a progress: the first that reaches its length, or else the last. -/
def placeAt {α : Type} [Scalar α] (path : List (Segment α)) (total t : α) : ℕ :=
  min (path.findIdx fun s => Scalar.le (travelledAt total t) s.travelled) (path.length - 1)

theorem segmentAt?_eq_getElem? {α : Type} [Scalar α] (path : List (Segment α)) (total t : α) :
    segmentAt? path total t = path[placeAt path total t]? := by
  unfold segmentAt? placeAt
  rw [List.find?_eq_getElem?_findIdx]
  by_cases reached : path.findIdx (fun s => Scalar.le (travelledAt total t) s.travelled)
      < path.length
  · rw [min_eq_left (by omega), List.getElem?_eq_getElem reached, Option.some_or]
  · rw [min_eq_right (by omega), List.getElem?_eq_none (not_lt.mp reached), Option.none_or,
      List.getLast?_eq_getElem?]

namespace Measured

variable {path : List (Segment ℝ)} {total : ℝ} {k : ℕ} {s : Segment ℝ} {p : Point ℝ}

theorem length_nonneg (measured : Measured path total) (piece : s ∈ path) : 0 ≤ s.length := by
  rw [measured.length s piece]
  exact Point.distance_nonneg _ _

theorem lengthBefore_nonneg (measured : Measured path total) (k : ℕ) : 0 ≤ lengthBefore path k :=
  List.sum_nonneg fun l own => by
    obtain ⟨s, front, rfl⟩ := List.mem_map.mp own
    exact measured.length_nonneg (List.mem_of_mem_take front)

/-- The travelled length at the end of a segment is that before it and its own length. -/
theorem travelled_eq (measured : Measured path total) (here : path[k]? = some s) :
    s.travelled = lengthBefore path k + s.start.distance s.finish := by
  rw [measured.travelled k s here, ← measured.length s (List.mem_of_getElem? here), lengthBefore,
    lengthBefore, List.take_add_one, here]
  simp

theorem total_nonneg (measured : Measured path total) : 0 ≤ total := by
  obtain ⟨front, last, rfl⟩ := (List.eq_nil_or_concat' path).resolve_left measured.nonempty
  have here : (front ++ [last])[front.length]? = some last := List.getElem?_concat_length
  rw [← measured.total last (by simp), measured.travelled _ last here]
  exact measured.lengthBefore_nonneg _

/-- **A position on a segment** is reached by walking to it past the segments before. -/
theorem walk_at (measured : Measured path total) (here : path[k]? = some s)
    (on : s.start.Between p s.finish) :
    Walk path (lengthBefore path k + s.start.distance p) p := by
  have parts : path = path.take k ++ s :: path.drop (k + 1) := by
    obtain ⟨bound, rfl⟩ := List.getElem?_eq_some_iff.mp here
    rw [List.getElem_cons_drop, List.take_append_drop]
  have lengths : lengthBefore path k
      = ((path.take k).map fun s => s.start.distance s.finish).sum :=
    congrArg List.sum (List.map_congr_left fun u own =>
      measured.length u (List.mem_of_mem_take own))
  rw [lengths]
  conv in Walk path => rw [parts]
  exact .append _ (.within on)

/-- **The segment at a progress** is where the length of the progress ends. -/
theorem placed (measured : Measured path total) (t : ℝ) :
    ∃ s, path[placeAt path total t]? = some s
      ∧ lengthBefore path (placeAt path total t) ≤ lengthAt total t
      ∧ lengthAt total t ≤ s.travelled := by
  have nonneg := measured.total_nonneg
  have le_total : lengthAt total t ≤ total :=
    mul_le_of_le_one_left nonneg (max_le zero_le_one (min_le_right _ _))
  have last : (path.getLast measured.nonempty).travelled = total :=
    measured.total _ (List.getLast?_eq_getLast_of_ne_nil _)
  have reached : ∃ s ∈ path, Scalar.le (travelledAt total t) s.travelled = true :=
    ⟨_, List.getLast_mem measured.nonempty, reaches_iff.mpr (le_total.trans_eq last.symm)⟩
  have found := List.findIdx_lt_length_of_exists reached
  have place : placeAt path total t
      = path.findIdx fun s => Scalar.le (travelledAt total t) s.travelled := by
    unfold placeAt
    exact min_eq_left (by omega)
  refine ⟨_, (congrArg (path[·]?) place).trans (List.getElem?_eq_getElem found), ?_,
    reaches_iff.mp (List.findIdx_getElem (w := found))⟩
  cases index : placeAt path total t with
  | zero =>
    rw [lengthBefore, List.take_zero, List.map_nil, List.sum_nil]
    exact mul_nonneg (le_max_left _ _) nonneg
  | succ j =>
    -- the segment before the first that reaches the length does not reach it
    have short := List.not_of_lt_findIdx (show j < path.findIdx _ by rw [← place]; omega)
    rw [← Bool.not_eq_true, reaches_iff, not_le,
      measured.travelled j _ (List.getElem?_eq_getElem (by omega))] at short
    exact short.le

end Measured

/-- **The point on a segment** where a length of the path ends that is neither before the segment
nor behind it. -/
theorem point_on {s : Segment ℝ} {d before : ℝ}
    (length : s.length = s.start.distance s.finish)
    (travelled : s.travelled = before + s.start.distance s.finish)
    (from_ : before ≤ d) (upTo : d ≤ s.travelled) {p : Point ℝ}
    (point : p = if Scalar.le s.travelled d then s.finish
      else s.start.lerp s.finish (shareOf s d)) :
    s.start.Between p s.finish ∧ before + s.start.distance p = d := by
  simp only [Scalar.real_le] at point
  split at point
  · next ended =>
    subst point
    exact ⟨by rw [Point.Between, Point.distance_self, add_zero], by linarith⟩
  · next inside =>
    have positive : 0 < s.start.distance s.finish := by linarith
    have offset : d - (s.travelled - s.start.distance s.finish) = d - before := by linarith
    have share : shareOf s d = (d - before) / s.start.distance s.finish := by
      unfold shareOf
      rw [length, if_pos (by rwa [Scalar.real_lt, Scalar.real_zero]), clampUnit_real, offset,
        min_eq_left ((div_le_one positive).mpr (by linarith)),
        max_eq_right (div_nonneg (by linarith) positive.le)]
    have nonneg : 0 ≤ shareOf s d := share ▸ div_nonneg (by linarith) positive.le
    have le_one : shareOf s d ≤ 1 := share ▸ (div_le_one positive).mpr (by linarith)
    subst point
    refine ⟨Point.between_iff_lerp.mpr ⟨_, nonneg, le_one, rfl⟩, ?_⟩
    rw [Point.distance_lerp _ _ nonneg, share, div_mul_cancel₀ _ positive.ne']
    ring

/-! ## Progress on a measured path -/

/-- **Progress on a path is arc length.** -/
structure FollowsLength (path : List (Segment ℝ)) (total : ℝ) : Prop where
  /-- A segment is named at every progress, neither before the length of the progress ends nor
  after it, and the point is on this segment: -/
  named : ∀ t, ∃ s p, segmentAt? path total t = some s ∧ pointAt? path total t = some p
    ∧ path[placeAt path total t]? = some s
    ∧ lengthBefore path (placeAt path total t) ≤ lengthAt total t
    ∧ lengthAt total t ≤ s.travelled
    ∧ s.start.Between p s.finish
  /-- it is the end of the walk as long as the length of the progress. -/
  walked : ∀ t p, pointAt? path total t = some p ↔ Walk path (lengthAt total t) p
  begins : ∀ t ≤ 0, pointAt? path total t = path.head?.map (·.start)
  ends : ∀ t ≥ 1, pointAt? path total t = path.getLast?.map (·.finish)
  forward : Monotone (placeAt path total)
  near : ∀ t u p q, pointAt? path total t = some p → pointAt? path total u = some q →
    p.distance q ≤ |t - u| * total

namespace Measured

variable {path : List (Segment ℝ)} {total : ℝ}

/-- **The segment and the point at a progress**: the point lies on the segment, where the walk as
long as the length of the progress ends. -/
theorem located (measured : Measured path total) (t : ℝ) :
    ∃ s p, segmentAt? path total t = some s ∧ pointAt? path total t = some p
      ∧ path[placeAt path total t]? = some s
      ∧ lengthBefore path (placeAt path total t) ≤ lengthAt total t
      ∧ lengthAt total t ≤ s.travelled
      ∧ s.start.Between p s.finish ∧ Walk path (lengthAt total t) p := by
  obtain ⟨s, here, from_, upTo⟩ := measured.placed t
  have name : segmentAt? path total t = some s := (segmentAt?_eq_getElem? _ _ _).trans here
  obtain ⟨on, length⟩ := point_on (measured.length s (List.mem_of_getElem? here))
    (measured.travelled_eq here) from_ upTo rfl
  have walk := measured.walk_at here on
  rw [length] at walk
  refine ⟨s, _, name, ?_, here, from_, upTo, on, walk⟩
  rw [pointAt?, name, Option.map_some, travelledAt_eq]

theorem pointAt?_eq_some_iff (measured : Measured path total) (t : ℝ) (p : Point ℝ) :
    pointAt? path total t = some p ↔ Walk path (lengthAt total t) p := by
  obtain ⟨s, q, -, point, -, -, -, -, walk⟩ := measured.located t
  rw [point, Option.some.injEq]
  exact ⟨fun same => same ▸ walk, fun other => walk.unique measured.chained other⟩

/-- Before the path begins the point is its start, -/
theorem pointAt?_of_nonpos (measured : Measured path total) {t : ℝ} (ht : t ≤ 0) :
    pointAt? path total t = path.head?.map (·.start) := by
  obtain ⟨s, rest, rfl⟩ := List.exists_cons_of_ne_nil measured.nonempty
  refine (measured.pointAt?_eq_some_iff t s.start).mpr ?_
  have none : lengthAt total t = s.start.distance s.start := by
    rw [lengthAt, max_eq_left (min_le_of_left_le ht), zero_mul, Point.distance_self]
  rw [none]
  exact .within (by rw [Point.Between, Point.distance_self, zero_add])

/-- and after its end its finish. -/
theorem pointAt?_of_one_le (measured : Measured path total) {t : ℝ} (ht : 1 ≤ t) :
    pointAt? path total t = path.getLast?.map (·.finish) := by
  obtain ⟨front, last, rfl⟩ := (List.eq_nil_or_concat' path).resolve_left measured.nonempty
  have here : (front ++ [last])[front.length]? = some last := List.getElem?_concat_length
  rw [List.getLast?_concat, Option.map_some]
  refine (measured.pointAt?_eq_some_iff t last.finish).mpr ?_
  have all : lengthAt total t = lengthBefore (front ++ [last]) front.length
      + last.start.distance last.finish := by
    rw [lengthAt, min_eq_right ht, max_eq_right zero_le_one, one_mul,
      ← measured.total last (by simp), measured.travelled_eq here]
  rw [all]
  exact measured.walk_at here (by rw [Point.Between, Point.distance_self, add_zero])

end Measured

/-- **Progress is arc length on every measured path.** The point at a progress is the end of the
walk along the path that is as long as the share of the total length, and it lies on the segment that
is named. Before the path begins it is the first start and after its end the last finish; the named
segment never goes back, and nothing jumps. -/
theorem followsLength_of_measured {path : List (Segment ℝ)} {total : ℝ}
    (measured : Measured path total) : FollowsLength path total := by
  have nonneg := measured.total_nonneg
  constructor
  case named =>
    intro t
    obtain ⟨s, p, name, point, here, from_, upTo, on, -⟩ := measured.located t
    exact ⟨s, p, name, point, here, from_, upTo, on⟩
  case walked => exact measured.pointAt?_eq_some_iff
  case begins => exact fun t ht => measured.pointAt?_of_nonpos ht
  case ends => exact fun t ht => measured.pointAt?_of_one_le ht
  case forward =>
    intro t u le
    refine min_le_min_right _ (List.findIdx_le_findIdx fun s _ reached => ?_)
    exact reaches_iff.mpr ((lengthAt_mono nonneg le).trans (reaches_iff.mp reached))
  case near =>
    intro t u p q atT atU
    have apart := Walk.near measured.chained ((measured.pointAt?_eq_some_iff t p).mp atT)
      ((measured.pointAt?_eq_some_iff u q).mp atU)
    exact apart.trans (abs_lengthAt_sub_le nonneg t u)

/-- A path with a corner at which a segment has no length. -/
theorem followsLength_corner :
    Measured
        [⟨⟨.feed, 0, ⟨0, 0, 0⟩, ⟨3, 4, 0⟩⟩, 5, 5⟩, ⟨⟨.feed, 1, ⟨3, 4, 0⟩, ⟨3, 4, 0⟩⟩, 0, 5⟩,
          ⟨⟨.rapid, 2, ⟨3, 4, 0⟩, ⟨3, 4, -12⟩⟩, 12, 17⟩] 17
      ∧ FollowsLength
        [⟨⟨.feed, 0, ⟨0, 0, 0⟩, ⟨3, 4, 0⟩⟩, 5, 5⟩, ⟨⟨.feed, 1, ⟨3, 4, 0⟩, ⟨3, 4, 0⟩⟩, 0, 5⟩,
          ⟨⟨.rapid, 2, ⟨3, 4, 0⟩, ⟨3, 4, -12⟩⟩, 12, 17⟩] 17 := by
  have measured : Measured
      [⟨⟨.feed, 0, ⟨0, 0, 0⟩, ⟨3, 4, 0⟩⟩, 5, 5⟩, ⟨⟨.feed, 1, ⟨3, 4, 0⟩, ⟨3, 4, 0⟩⟩, 0, 5⟩,
        ⟨⟨.rapid, 2, ⟨3, 4, 0⟩, ⟨3, 4, -12⟩⟩, 12, 17⟩] 17 := by
    constructor
    case nonempty => simp
    case chained => simp [Chained]
    case length => simp [Point.distance_eq]; norm_num
    case travelled =>
      intro k s here
      obtain _ | _ | _ | k := k <;> simp [lengthBefore] at here ⊢ <;> subst here <;> norm_num
    case total => simp
  exact ⟨measured, followsLength_of_measured measured⟩

end Toolpath

end Cnc
