import Cnc.Proofs.ArcLength
import Cnc.Proofs.PathShape
import Cnc.Toolpath.Bounds

/-!
# The box around a path

In exact arithmetic the box of a path holds every position on it, and each of its
six sides touches an end of a segment (`Toolpath.bounds?_ofProgram`).

The box is computed from the first start and all ends. The other starts are in it
because the path is one chain (`Toolpath.start_of_chained`), and the points at a
progress because they lie on segments: a box that holds two positions holds the
way between them (`Point.Within.lerp`). What is proved of measured paths holds of
programs because the path of a program is one (`Toolpath.measured_ofProgram`).
-/

namespace Cnc

namespace Scalar

theorem min_real (x y : ℝ) : min x y = Min.min x y := by
  unfold min
  rw [real_isNaN, Bool.false_or]
  split
  · next below => exact (min_eq_right (real_lt.mp below).le).symm
  · next above => exact (min_eq_left (not_lt.mp (real_lt.not.mp above))).symm

theorem max_real (x y : ℝ) : max x y = Max.max x y := by
  unfold max
  rw [real_isNaN, Bool.false_or]
  split
  · next above => exact (max_eq_right (real_lt.mp above).le).symm
  · next below => exact (max_eq_left (not_lt.mp (real_lt.not.mp below))).symm

/-- Real numbers that coincide are the same. -/
theorem Coincide.eq {x y : ℝ} (h : Coincide x y) : x = y :=
  h.elim id fun zeros => (real_eq.mp zeros.1).trans (real_eq.mp zeros.2).symm

end Scalar

namespace Point

theorem Coincide.eq {p q : Point ℝ} (h : p.Coincide q) : p = q := by
  obtain ⟨x, y, z⟩ := p
  rw [Point.mk.injEq]
  exact ⟨h.x.eq, h.y.eq, h.z.eq⟩

/-- **A position lies in the box** between two corners. -/
structure Within (p low high : Point ℝ) : Prop where
  x : p.x ∈ Set.Icc low.x high.x
  y : p.y ∈ Set.Icc low.y high.y
  z : p.z ∈ Set.Icc low.z high.z

/-- **A box that holds two positions** holds the way between them. -/
theorem Within.lerp {p q low high : Point ℝ} (hp : p.Within low high) (hq : q.Within low high)
    {t : ℝ} (nonneg : 0 ≤ t) (le_one : t ≤ 1) : (p.lerp q t).Within low high := by
  have between {a b c d : ℝ} (ha : a ∈ Set.Icc c d) (hb : b ∈ Set.Icc c d) :
      a + (b - a) * t ∈ Set.Icc c d := by
    rw [mul_comm]
    exact (convex_Icc c d).add_smul_sub_mem ha hb ⟨nonneg, le_one⟩
  exact ⟨between hp.x hq.x, between hp.y hq.y, between hp.z hq.z⟩

end Point

namespace Toolpath

open Gcode Text

variable {path rest : List (Segment ℝ)} {s : Segment ℝ} {low high : Point ℝ} {total : ℝ}

/-! ## Boxes around measured paths -/

/-- The positions at which segments of a path start or end. -/
def joints (path : List (Segment ℝ)) : Set (Point ℝ) := {p | ∃ s ∈ path, p = s.start ∨ p = s.finish}

/-- **A box encloses a path**: all of the path is in it, and each side touches a joint. -/
structure Encloses (path : List (Segment ℝ)) (total : ℝ) (low high : Point ℝ) : Prop where
  ends : ∀ s ∈ path, s.start.Within low high ∧ s.finish.Within low high
  underway : ∀ t, ∃ p, pointAt? path total t = some p ∧ p.Within low high
  x : low.x ∈ Point.x '' joints path ∧ high.x ∈ Point.x '' joints path
  y : low.y ∈ Point.y '' joints path ∧ high.y ∈ Point.y '' joints path
  z : low.z ∈ Point.z '' joints path ∧ high.z ∈ Point.z '' joints path

/-- **In a chain** a segment starts where the first one does or where another one ends. -/
theorem start_of_chained (chained : Chained (s :: rest)) {u : Segment ℝ} (piece : u ∈ s :: rest) :
    u.start = s.start ∨ ∃ v ∈ s :: rest, u.start = v.finish := by
  induction rest generalizing s with
  | nil => exact .inl (by rw [List.mem_singleton.mp piece])
  | cons v rest ih =>
    obtain ⟨joint, chained⟩ := List.isChain_cons_cons.mp chained
    rcases List.mem_cons.mp piece with rfl | later
    · exact .inl rfl
    · right
      rcases ih chained later with same | ⟨w, own, same⟩
      · exact ⟨s, List.mem_cons_self, same.trans joint⟩
      · exact ⟨w, List.mem_cons_of_mem s own, same⟩

/-- The joints of a chain are the first start and all ends. -/
theorem joints_of_chained (chained : Chained (s :: rest)) :
    joints (s :: rest) = insert s.start {p | ∃ u ∈ s :: rest, u.finish = p} := by
  ext p
  constructor
  · rintro ⟨u, piece, rfl | rfl⟩
    · exact (start_of_chained chained piece).imp_right fun ⟨v, own, same⟩ => ⟨v, own, same.symm⟩
    · exact .inr ⟨u, piece, rfl⟩
  · rintro (rfl | ⟨u, piece, rfl⟩)
    · exact ⟨s, List.mem_cons_self, .inl rfl⟩
    · exact ⟨u, piece, .inr rfl⟩

/-- **Taking in one position after the other** leads to what is extreme among the coordinates of all
of them, if one more position does. -/
theorem foldl_extreme {extreme : Set ℝ → ℝ → Prop} {coordinate : Point ℝ → ℝ}
    {join : Point ℝ → Point ℝ → Point ℝ} (single : ∀ a, extreme {a} a)
    (more : ∀ {ps p q}, extreme ps (coordinate p) →
      extreme (insert (coordinate q) ps) (coordinate (join p q)))
    (p : Point ℝ) (path : List (Segment ℝ)) :
    extreme (coordinate '' insert p {q | ∃ s ∈ path, s.finish = q})
      (coordinate (path.foldl (fun q s => join q s.finish) p)) := by
  induction path using List.reverseRecOn with
  | nil => simpa using single (coordinate p)
  | append_singleton path s ih =>
    have ends : insert p {q | ∃ u ∈ path ++ [s], u.finish = q}
        = insert s.finish (insert p {q | ∃ u ∈ path, u.finish = q}) := by
      ext q
      simp only [List.mem_append, List.mem_singleton, or_and_right, exists_or, exists_eq_left,
        Set.mem_insert_iff, Set.mem_ofPred_eq, eq_comm (a := q)]
      rw [← or_assoc, or_comm]
    rw [ends, Set.image_insert_eq, List.foldl_append]
    exact more ih

/-- The lowest corner has the least coordinates among those of the joints, -/
theorem isLeast_foldl {coordinate : Point ℝ → ℝ}
    (law : ∀ p q, coordinate (p.min q) = min (coordinate p) (coordinate q))
    (p : Point ℝ) (path : List (Segment ℝ)) :
    IsLeast (coordinate '' insert p {q | ∃ s ∈ path, s.finish = q})
      (coordinate (path.foldl (fun q s => q.min s.finish) p)) :=
  foldl_extreme (fun _ => isLeast_singleton) (fun {_ p q} least => by
    rw [law, min_comm]
    exact least.insert (coordinate q)) p path

/-- and the highest one the greatest. -/
theorem isGreatest_foldl {coordinate : Point ℝ → ℝ}
    (law : ∀ p q, coordinate (p.max q) = max (coordinate p) (coordinate q))
    (p : Point ℝ) (path : List (Segment ℝ)) :
    IsGreatest (coordinate '' insert p {q | ∃ s ∈ path, s.finish = q})
      (coordinate (path.foldl (fun q s => q.max s.finish) p)) :=
  foldl_extreme (fun _ => isGreatest_singleton) (fun {_ p q} greatest => by
    rw [law, max_comm]
    exact greatest.insert (coordinate q)) p path

/-- **The box of a measured path encloses it.** -/
theorem Measured.bounds? (measured : Measured path total) :
    ∃ low high, bounds? path = some (low, high) ∧ Encloses path total low high := by
  obtain ⟨s, rest, rfl⟩ := List.exists_cons_of_ne_nil measured.nonempty
  have least (coordinate : Point ℝ → ℝ)
      (law : ∀ p q, coordinate (p.min q) = min (coordinate p) (coordinate q)) :=
    isLeast_foldl law s.start (s :: rest)
  have greatest (coordinate : Point ℝ → ℝ)
      (law : ∀ p q, coordinate (p.max q) = max (coordinate p) (coordinate q)) :=
    isGreatest_foldl law s.start (s :: rest)
  rw [← joints_of_chained measured.chained] at least greatest
  have leastX := least Point.x fun _ _ => Scalar.min_real _ _
  have leastY := least Point.y fun _ _ => Scalar.min_real _ _
  have leastZ := least Point.z fun _ _ => Scalar.min_real _ _
  have greatestX := greatest Point.x fun _ _ => Scalar.max_real _ _
  have greatestY := greatest Point.y fun _ _ => Scalar.max_real _ _
  have greatestZ := greatest Point.z fun _ _ => Scalar.max_real _ _
  refine ⟨_, _, rfl, ?_⟩
  have within {p : Point ℝ} (joint : p ∈ joints (s :: rest)) : p.Within _ _ :=
    ⟨⟨leastX.2 ⟨p, joint, rfl⟩, greatestX.2 ⟨p, joint, rfl⟩⟩,
      ⟨leastY.2 ⟨p, joint, rfl⟩, greatestY.2 ⟨p, joint, rfl⟩⟩,
      ⟨leastZ.2 ⟨p, joint, rfl⟩, greatestZ.2 ⟨p, joint, rfl⟩⟩⟩
  have ends (u : Segment ℝ) (piece : u ∈ s :: rest) : u.start.Within _ _ ∧ u.finish.Within _ _ :=
    ⟨within ⟨u, piece, .inl rfl⟩, within ⟨u, piece, .inr rfl⟩⟩
  refine ⟨ends, fun t => ?_, ⟨leastX.1, greatestX.1⟩, ⟨leastY.1, greatestY.1⟩,
    ⟨leastZ.1, greatestZ.1⟩⟩
  obtain ⟨u, p, -, point, here, -, -, on, -⟩ := measured.located t
  obtain ⟨share, nonneg, le_one, rfl⟩ := Point.between_iff_lerp.mp on
  obtain ⟨start, finish⟩ := ends u (List.mem_of_getElem? here)
  exact ⟨_, point, start.lerp finish nonneg le_one⟩

/-! ## Boxes around programs -/

/-- The travelled lengths of measured chords are the sums of the lengths up to them. -/
theorem measure_travelled (t : ℝ) (cs : List (Chord ℝ)) {k : ℕ}
    (here : (measure t cs)[k]? = some s) :
    s.travelled = t + lengthBefore (measure t cs) (k + 1) := by
  induction cs generalizing t k with
  | nil => exact absurd here (by simp [measure])
  | cons c cs ih =>
    rw [measure] at here ⊢
    cases k with
    | zero =>
      obtain rfl := Option.some.inj here
      simp [lengthBefore]
    | succ k =>
      have later := ih _ here
      rw [lengthBefore, List.take_succ_cons, List.map_cons, List.sum_cons, ← add_assoc]
      exact later

/-- **The path of a program is measured**, unless it is empty. -/
theorem measured_ofProgram {o : Flattening ℝ} {text : List Char}
    (some_ : (ofProgram o text).segments ≠ []) :
    Measured (ofProgram o text).segments (ofProgram o text).totalLength := by
  have law (x y : ℝ) (same : Scalar.eq x y = true) : Scalar.Coincide x y :=
    .inl (Scalar.real_eq.mp same)
  have wellFormed := wellFormed_of_law law o text
  constructor
  case nonempty => exact some_
  case chained =>
    exact wellFormed.chained.imp fun _ _ joint => joint.eq
  case length => exact wellFormed.length
  case travelled =>
    intro k s here
    have sum : s.travelled = Scalar.zero + lengthBefore (ofProgram o text).segments (k + 1) :=
      measure_travelled _ _ here
    rwa [Scalar.real_zero, zero_add] at sum
  case total =>
    intro s last
    rw [wellFormed.total, last]
    rfl

/-- **The box of a program encloses its path**, whatever the options. -/
theorem bounds?_ofProgram (o : Flattening ℝ) (text : List Char)
    (some_ : (ofProgram o text).segments ≠ []) :
    ∃ low high, bounds? (ofProgram o text).segments = some (low, high) ∧
      Encloses (ofProgram o text).segments (ofProgram o text).totalLength low high :=
  (measured_ofProgram some_).bounds?

/-- A straight cut and an arc that rises. -/
theorem bounds?_ofProgram_ramp :
    (ofProgram (.standard : Flattening ℝ) "G1 X3 Y-4\nG2 X0 Y0 Z2 I-2".toList).segments ≠ [] ∧
      ∃ low high,
        bounds? (ofProgram (.standard : Flattening ℝ) "G1 X3 Y-4\nG2 X0 Y0 Z2 I-2".toList).segments
            = some (low, high) ∧
          Encloses
            (ofProgram (.standard : Flattening ℝ) "G1 X3 Y-4\nG2 X0 Y0 Z2 I-2".toList).segments
            (ofProgram (.standard : Flattening ℝ) "G1 X3 Y-4\nG2 X0 Y0 Z2 I-2".toList).totalLength
            low high := by
  have some_ : (ofProgram (.standard : Flattening ℝ)
      "G1 X3 Y-4\nG2 X0 Y0 Z2 I-2".toList).segments ≠ [] := by
    have split : lines "G1 X3 Y-4\nG2 X0 Y0 Z2 I-2".toList
        = ["G1 X3 Y-4".toList, "G2 X0 Y0 Z2 I-2".toList] := by decide +kernel
    have cut : commandWords "G1 X3 Y-4".toList
        = [⟨'G', ['1'], 0, 2⟩, ⟨'X', ['3'], 3, 5⟩, ⟨'Y', ['-', '4'], 6, 9⟩] := by decide +kernel
    have read : Decimal.read? ['1'] = some ⟨false, 1, 0⟩ ∧
        Decimal.read? ['3'] = some ⟨false, 3, 0⟩ := by
      decide +kernel
    have one : Word.number? ⟨'G', ['1'], 0, 2⟩ = some (1 : ℝ) := by
      simp [Word.number?, read.1, Option.filter, Scalar.isFinite, Scalar.ofDecimal]
    have three : Word.number? ⟨'X', ['3'], 3, 5⟩ = some (3 : ℝ) := by
      simp [Word.number?, read.2, Option.filter, Scalar.isFinite, Scalar.ofDecimal]
    have moves : motion? ℝ [⟨'G', ['1'], 0, 2⟩, ⟨'X', ['3'], 3, 5⟩, ⟨'Y', ['-', '4'], 6, 9⟩]
        = some .linear := by
      simp [motion?, Word.code?, one, Scalar.natural?, Motion.ofCode?]
    intro none
    have drawn := measure_chords Scalar.zero (chords (.standard : Flattening ℝ).sanitized
      "G1 X3 Y-4\nG2 X0 Y0 Z2 I-2".toList)
    rw [show measure _ _ = [] from none, chords, split, chordsFrom, cut] at drawn
    simp [step, moves, draw, straight, Point.same, Point.origin, target, valueOf?, three] at drawn
  exact ⟨some_, bounds?_ofProgram .standard _ some_⟩

end Toolpath

end Cnc
