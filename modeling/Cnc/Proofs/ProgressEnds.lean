import Mathlib
import Cnc.Proofs.Extents
import Cnc.Proofs.FiniteResults
import Cnc.Toolpath.Progress

/-!
# The ends of progress

In floating-point numbers the point at a progress is looked up among running
sums that are rounded. From a progress of one on, the lookup stops at the first
segment whose running sum is the total length. This is the last segment, unless
its length, and perhaps that of others before it, is so short that rounding takes
all of it away; then the lookup ends where those begin (`Toolpath.LosesEnd`).
Down from a progress of zero, and where it is not a number, the lookup stops at
the first segment, and at its start, unless its length is rounded to zero; then
the lookup begins at its end (`Toolpath.LosesStart`). Nothing else is in the way
(`Toolpath.pointAt?_ends_iff`).

One assumption carries this, that the total length is finite. As no result of
arithmetic is finite unless its operands are, all lengths and positions are
finite then (`Toolpath.measure_finite`), and the running sums do not fall
(`Toolpath.measure_grows`).
-/

namespace Cnc

open FloatScalar

namespace Toolpath

/-! ## Finite paths -/

variable {p q : Point Float}

/-- **The differences of positions** a finite distance apart are finite, -/
theorem finite_difference (finite : Scalar.isFinite (p.distance q) = true) :
    Scalar.isFinite (q.x - p.x) = true ∧ Scalar.isFinite (q.y - p.y) = true ∧
      Scalar.isFinite (q.z - p.z) = true := by
  obtain ⟨xy, z⟩ := isFinite_of_add (isFinite_of_sqrt finite)
  obtain ⟨x, y⟩ := isFinite_of_add xy
  exact ⟨(isFinite_of_mul x).1, (isFinite_of_mul y).1, (isFinite_of_mul z).1⟩

/-- and so are the positions. -/
theorem finite_of_distance (finite : Scalar.isFinite (p.distance q) = true) :
    p.Finite ∧ q.Finite := by
  obtain ⟨x, y, z⟩ := finite_difference finite
  obtain ⟨qx, px⟩ := isFinite_of_sub x
  obtain ⟨qy, py⟩ := isFinite_of_sub y
  obtain ⟨qz, pz⟩ := isFinite_of_sub z
  exact ⟨⟨px, py, pz⟩, ⟨qx, qy, qz⟩⟩

/-- What measuring does to the first chord. -/
theorem measure_cons (t : Float) (c : Chord Float) (cs : List (Chord Float)) :
    ∃ s : Segment Float, measure t (c :: cs) = s :: measure s.travelled cs ∧
      s.travelled = t + s.length ∧ s.length = c.start.distance c.finish :=
  ⟨_, rfl, rfl, rfl⟩

/-- A running sum that is finite began with a finite one. -/
theorem finite_of_measure {t : Float} {cs : List (Chord Float)} {u : Segment Float}
    (piece : u ∈ measure t cs) (finite : Scalar.isFinite u.travelled = true) :
    Scalar.isFinite t = true := by
  induction cs generalizing t with
  | nil => exact absurd piece (by simp [measure])
  | cons c cs ih =>
    obtain ⟨s, measured, travelled, -⟩ := measure_cons t c cs
    rw [measured] at piece
    have first : Scalar.isFinite s.travelled = true := by
      rcases List.mem_cons.mp piece with rfl | later
      · exact finite
      · exact ih later
    rw [travelled] at first
    exact (isFinite_of_add first).1

/-- **If the last running sum is finite**, so are all of them, and the lengths. -/
theorem measure_finite {t : Float} {cs : List (Chord Float)}
    (finite : ∀ u ∈ (measure t cs).getLast?, Scalar.isFinite u.travelled = true) :
    ∀ u ∈ measure t cs, Scalar.isFinite u.travelled = true ∧ Scalar.isFinite u.length = true := by
  induction cs generalizing t with
  | nil => simp [measure]
  | cons c cs ih =>
    obtain ⟨s, measured, travelled, -⟩ := measure_cons t c cs
    rw [measured, List.getLast?_cons] at finite
    rw [measured]
    have first : Scalar.isFinite s.travelled = true := by
      cases last : (measure s.travelled cs).getLast? with
      | none => exact finite s (by rw [last]; rfl)
      | some u => exact finite_of_measure (List.mem_of_getLast? last) (finite u (by rw [last]; rfl))
    intro u piece
    rcases List.mem_cons.mp piece with rfl | later
    · refine ⟨first, ?_⟩
      rw [travelled] at first
      exact (isFinite_of_add first).2
    · exact ih (fun v last => finite v (by rw [Option.mem_def.mp last]; rfl)) u later

/-- **Running sums that are finite do not fall.** -/
theorem measure_grows {t : Float} {cs : List (Chord Float)} (nonneg : 0 ≤ value t)
    (finite : ∀ u ∈ measure t cs, Scalar.isFinite u.travelled = true) :
    (∀ u ∈ measure t cs, value t ≤ value u.travelled) ∧
      (measure t cs).Pairwise fun u v => value u.travelled ≤ value v.travelled := by
  induction cs generalizing t with
  | nil => exact ⟨by simp [measure], .nil⟩
  | cons c cs ih =>
    obtain ⟨s, measured, travelled, length⟩ := measure_cons t c cs
    rw [measured] at finite ⊢
    have grows : value t ≤ value s.travelled := by
      have first := finite s List.mem_cons_self
      rw [travelled, length] at first ⊢
      exact le_add first nonneg (FloatScalar.sqrt_nonneg _)
    obtain ⟨above, ordered⟩ := ih (nonneg.trans grows) fun u later =>
      finite u (List.mem_cons_of_mem _ later)
    refine ⟨fun u piece => ?_, List.pairwise_cons.mpr ⟨above, ordered⟩⟩
    rcases List.mem_cons.mp piece with rfl | later
    · exact grows
    · exact grows.trans (above u later)

/-- **A path measured in floating-point numbers** with a finite total length. -/
structure Sound (path : List (Segment Float)) (total : Float) : Prop where
  finite : ∀ s ∈ path, Scalar.isFinite s.travelled = true ∧ Scalar.isFinite s.length = true
  length : ∀ s ∈ path, s.length = s.start.distance s.finish
  first : ∀ s ∈ path.head?, s.travelled = Scalar.zero + s.length
  grows : path.Pairwise fun u v => value u.travelled ≤ value v.travelled
  total : ∀ s ∈ path.getLast?, s.travelled = total

theorem zero_eq : (Scalar.zero : Float) = 0 := by decide +kernel

theorem one_eq : (Scalar.one : Float) = 1 := by decide +kernel

theorem value_zero : value Scalar.zero = 0 := value_of_isZero (.inl zero_eq)

/-- **The path of a program is sound**, if its total length is finite. -/
theorem sound_ofProgram {o : Flattening Float} {text : List Char}
    (finite : Scalar.isFinite (ofProgram o text).totalLength = true) :
    Sound (ofProgram o text).segments (ofProgram o text).totalLength := by
  have wellFormed := wellFormed_ofProgram o text
  have total : ∀ s ∈ (ofProgram o text).segments.getLast?,
      s.travelled = (ofProgram o text).totalLength := by
    intro s last
    rw [wellFormed.total, Option.mem_def.mp last]
    rfl
  have pieces : ∀ s ∈ (ofProgram o text).segments,
      Scalar.isFinite s.travelled = true ∧ Scalar.isFinite s.length = true :=
    measure_finite fun s last => by
      rw [total s last]
      exact finite
  have grows := measure_grows value_zero.ge fun s piece => (pieces s piece).1
  exact ⟨pieces, wellFormed.length, wellFormed.first, grows.2, total⟩

/-! ## Progress at the ends -/

variable {t total x y : Float}

theorem zero_le_one : Scalar.le Scalar.zero (Scalar.one : Float) = true := by decide +kernel

/-- **Progress from one on** is all of the length, -/
theorem travelledAt_of_ge (finite : Scalar.isFinite total = true)
    (ge : Scalar.le Scalar.one t = true) : travelledAt total t = total := by
  have one := Scalar.Ordered.number_of_finite (α := Float) (x := Scalar.one) (by decide +kernel)
  have number : Scalar.eq t t = true :=
    eq_iff_level.mpr ⟨(le_iff_level.mp ge).2.1, (le_iff_level.mp ge).2.1, rfl⟩
  have whole : fractionOf t = 1 := by
    rw [fractionOf, Scalar.isNaN, number, Scalar.clampUnit,
      lt_eq_false (Scalar.Ordered.trans zero_le_one ge)]
    cases more : Scalar.lt Scalar.one t with
    | true => exact one_eq
    | false =>
      have same : Scalar.eq t Scalar.one = true :=
        Scalar.Ordered.eq_iff.mpr ⟨Scalar.Ordered.le_of_not_lt one number more, ge⟩
      rw [one_eq] at same
      obtain ⟨-, -, same | ⟨-, zero⟩ | ⟨-, zero⟩⟩ := Float.beq_iff_ne_nan_and_eq.mp same
      · exact same
      · exact absurd zero (by decide +kernel)
      · exact absurd zero (by decide +kernel)
  rw [travelledAt, whole, one_mul_of_finite finite]

/-- and progress that is not positive is nothing of it. -/
theorem isZero_travelledAt (finite : Scalar.isFinite total = true)
    (le : Scalar.le t Scalar.zero = true ∨ Scalar.isNaN t = true) :
    IsZero (travelledAt total t) := by
  refine isZero_zero_mul ?_ finite
  unfold fractionOf
  cases missing : Scalar.isNaN t with
  | true => exact .inl zero_eq
  | false =>
    have le := le.resolve_right (by rw [missing]; exact Bool.false_ne_true)
    have number : Scalar.eq t t = true := by simpa [Scalar.isNaN] using missing
    rw [Scalar.clampUnit, lt_eq_false (Scalar.Ordered.trans le zero_le_one)]
    cases less : Scalar.lt t Scalar.zero with
    | true => exact .inl zero_eq
    | false =>
      have zero := Scalar.Ordered.number_of_finite (α := Float) Scalar.Ordered.finite_zero
      have same := Scalar.Ordered.eq_iff.mpr ⟨le, Scalar.Ordered.le_of_not_lt number zero less⟩
      rw [zero_eq] at same
      exact isZero_iff_eq.mpr same

theorem isZero_clampUnit (zero : IsZero x) : IsZero (Scalar.clampUnit x) := by
  rcases zero with rfl | rfl <;> decide +kernel

/-- A share of nothing leads nowhere. -/
theorem same_lerp (finite : Scalar.isFinite (p.distance q) = true) (zero : IsZero x) :
    (p.lerp q x).same p = true := by
  obtain ⟨hx, hy, hz⟩ := finite_difference finite
  obtain ⟨finiteP, -⟩ := finite_of_distance finite
  simp only [Point.same, Point.lerp, Bool.and_eq_true]
  exact ⟨⟨eq_add_zero finiteP.x (isZero_mul hx zero), eq_add_zero finiteP.y (isZero_mul hy zero)⟩,
    eq_add_zero finiteP.z (isZero_mul hz zero)⟩

/-! ## The lookup -/

/-- **The path loses its end**: the first segment whose running sum is that of the last one ends
elsewhere. -/
def LosesEnd (path : List (Segment Float)) : Prop :=
  ∃ s last, path.getLast? = some last ∧
    path.find? (fun u => Scalar.eq u.travelled last.travelled) = some s ∧
    s.finish.same last.finish = false

/-- **The path loses its start**: the first segment has no length and ends elsewhere. -/
def LosesStart (path : List (Segment Float)) : Prop :=
  ∃ s ∈ path.head?, Scalar.eq s.length Scalar.zero = true ∧ s.finish.same s.start = false

namespace Sound

variable {path rest : List (Segment Float)} {s last : Segment Float}

/-- No running sum is above the total. -/
theorem le_last (sound : Sound path total) (last_ : path.getLast? = some last) (piece : s ∈ path) :
    Scalar.le s.travelled last.travelled = true := by
  have here := List.mem_of_getLast? last_
  rw [le_iff_value (sound.finite s piece).1 (sound.finite last here).1]
  obtain ⟨front, rfl⟩ := List.getLast?_eq_some_iff.mp last_
  rcases List.mem_append.mp piece with before | own
  · exact (List.pairwise_append.mp sound.grows).2.2 s before last (by simp)
  · rw [List.mem_singleton.mp own]

/-- **The lookup at the end** stops at the first segment whose running sum is the total. -/
theorem pointAt?_end (sound : Sound path total) (last_ : path.getLast? = some last)
    (ge : Scalar.le Scalar.one t = true) :
    ∃ s, path.find? (fun u => Scalar.eq u.travelled last.travelled) = some s ∧
      pointAt? path total t = some s.finish := by
  have here := List.mem_of_getLast? last_
  have reached : travelledAt total t = last.travelled := by
    rw [← sound.total last last_] at *
    exact travelledAt_of_ge (sound.finite last here).1 ge
  -- no running sum is above the total, so to reach it is to be equal to it
  have reaches : ∀ u ∈ path, Scalar.le last.travelled u.travelled =
      Scalar.eq u.travelled last.travelled := fun u piece => by
    rw [Bool.eq_iff_iff, Scalar.Ordered.eq_iff]
    exact ⟨fun le => ⟨sound.le_last last_ piece, le⟩, fun eq => eq.2⟩
  cases found : path.find? fun u => Scalar.eq u.travelled last.travelled with
  | none =>
    have number := Scalar.Ordered.number_of_finite (sound.finite last here).1
    exact absurd number (List.find?_eq_none.mp found last here)
  | some s =>
    have same : Scalar.eq s.travelled last.travelled = true :=
      List.find?_some (p := fun u : Segment Float => Scalar.eq u.travelled last.travelled) found
    refine ⟨s, rfl, ?_⟩
    rw [pointAt?, segmentAt?, reached, List.find?_congr reaches, found, Option.some_or,
      Option.map_some, if_pos (Scalar.Ordered.eq_iff.mp same).1]

/-- **The lookup at the start** stops at the first segment, at its start, or at its end if it has no
length. -/
theorem pointAt?_start (sound : Sound (s :: rest) total)
    (le : Scalar.le t Scalar.zero = true ∨ Scalar.isNaN t = true)
    (finite : Scalar.isFinite total = true) :
    ∃ p, pointAt? (s :: rest) total t = some p ∧
      (IsZero s.length → p = s.finish) ∧ (¬IsZero s.length → p.same s.start = true) := by
  have reached := isZero_travelledAt finite le
  have finiteReached := isFinite_of_isZero reached
  obtain ⟨finiteSum, finiteLength⟩ := sound.finite s List.mem_cons_self
  have sum : s.travelled = Scalar.zero + s.length := sound.first s rfl
  have nonneg : 0 ≤ value s.length := by
    rw [sound.length s List.mem_cons_self]
    exact FloatScalar.sqrt_nonneg _
  have above : Scalar.le (travelledAt total t) s.travelled = true := by
    rw [le_iff_value finiteReached finiteSum, value_of_isZero reached, ← value_zero]
    rw [sum] at finiteSum ⊢
    exact le_add finiteSum value_zero.ge nonneg
  have found : segmentAt? (s :: rest) total t = some s := by
    rw [segmentAt?, List.find?_cons, above]
    rfl
  rw [pointAt?, found, Option.map_some]
  refine ⟨_, rfl, fun short => ?_, fun long => ?_⟩
  · have zero : IsZero s.travelled := sum ▸ isZero_add (.inl zero_eq) short
    refine if_pos ?_
    rw [le_iff_value finiteSum finiteReached, value_of_isZero reached, value_of_isZero zero]
  · have whole : s.travelled = s.length := sum.trans (zero_add_of_ne_zero (.inl zero_eq) long)
    have positive : 0 < value s.length :=
      nonneg.lt_of_ne' fun zero => long ((isZero_iff_value finiteLength).mpr zero)
    have beyond : ¬Scalar.le s.travelled (travelledAt total t) = true := by
      rw [le_iff_value finiteSum finiteReached, value_of_isZero reached, whole]
      exact not_le.mpr positive
    have share : IsZero (shareOf s (travelledAt total t)) := by
      rw [shareOf, if_pos ((lt_iff_value Scalar.Ordered.finite_zero finiteLength).mpr
        (value_zero.trans_lt positive)), whole]
      exact isZero_clampUnit (isZero_div (isZero_sub reached (isZero_sub_self finiteLength))
        finiteLength long)
    rw [if_neg beyond]
    exact same_lerp (sound.length s List.mem_cons_self ▸ finiteLength) share

end Sound

/-- **Both ends of the lookup.** If the total length of a path is finite, then from a progress of
one on the point is the end of the last segment, unless the path loses its end; and if the progress
is not positive, or no number, it is the start of the first segment, unless the path loses its
start. -/
theorem pointAt?_ends_iff (o : Flattening Float) (text : List Char)
    (some_ : (ofProgram o text).segments ≠ [])
    (finite : Scalar.isFinite (ofProgram o text).totalLength = true) :
    ∃ first last, (ofProgram o text).segments.head? = some first ∧
      (ofProgram o text).segments.getLast? = some last ∧
      (∀ t, Scalar.le Scalar.one t = true →
        ∃ p, pointAt? (ofProgram o text).segments (ofProgram o text).totalLength t = some p ∧
          (p.same last.finish = true ↔ ¬LosesEnd (ofProgram o text).segments)) ∧
      ∀ t, Scalar.le t Scalar.zero = true ∨ Scalar.isNaN t = true →
        ∃ p, pointAt? (ofProgram o text).segments (ofProgram o text).totalLength t = some p ∧
          (p.same first.start = true ↔ ¬LosesStart (ofProgram o text).segments) := by
  have sound := sound_ofProgram finite
  revert some_ finite sound
  generalize (ofProgram o text).segments = path, (ofProgram o text).totalLength = total
  intro some_ finite sound
  obtain ⟨first, rest, rfl⟩ := List.exists_cons_of_ne_nil some_
  have last := List.getLast?_eq_some_getLast some_
  refine ⟨first, _, rfl, last, fun t ge => ?_, fun t le => ?_⟩
  · obtain ⟨s, found, point⟩ := sound.pointAt?_end last ge
    refine ⟨_, point, fun same => ?_, fun kept => ?_⟩
    · rintro ⟨s', last', own, found', differ⟩
      obtain rfl := Option.some.inj (last.symm.trans own)
      obtain rfl := Option.some.inj (found.symm.trans found')
      exact Bool.noConfusion (same.symm.trans differ)
    · by_contra differ
      exact kept ⟨s, _, last, found, Bool.eq_false_iff.mpr differ⟩
  · obtain ⟨p, point, short, long⟩ := sound.pointAt?_start le finite
    refine ⟨p, point, fun same => ?_, fun kept => ?_⟩
    · rintro ⟨s, own, zero, differ⟩
      obtain rfl := Option.some.inj own
      rw [zero_eq] at zero
      rw [short (isZero_iff_eq.mpr zero)] at same
      exact Bool.noConfusion (same.symm.trans differ)
    · by_cases zero : IsZero first.length
      · rw [short zero]
        by_contra differ
        exact kept ⟨first, rfl, zero_eq ▸ isZero_iff_eq.mp zero, Bool.eq_false_iff.mpr differ⟩
      · exact long zero

/-- A path that loses neither end. -/
theorem pointAt?_ends_iff_corner :
    let path := ofProgram (.standard : Flattening Float) "G1 X3 Y4\nG1 Z12".toList
    path.segments ≠ [] ∧ Scalar.isFinite path.totalLength = true ∧
      ∃ first last, path.segments.head? = some first ∧ path.segments.getLast? = some last ∧
        (∀ t, Scalar.le Scalar.one t = true →
          ∃ p, pointAt? path.segments path.totalLength t = some p ∧
            (p.same last.finish = true ↔ ¬LosesEnd path.segments)) ∧
        ∀ t, Scalar.le t Scalar.zero = true ∨ Scalar.isNaN t = true →
          ∃ p, pointAt? path.segments path.totalLength t = some p ∧
            (p.same first.start = true ↔ ¬LosesStart path.segments) := by
  intro path
  have some_ : path.segments ≠ [] := List.isEmpty_eq_false_iff.mp (by decide +kernel)
  have finite : Scalar.isFinite path.totalLength = true := by decide +kernel
  exact ⟨some_, finite, pointAt?_ends_iff _ _ some_ finite⟩

/-- **Both ends can be lost.** A last segment that is too short beside the path before it does not
count, and neither does a first one whose squared length is below all numbers. -/
theorem pointAt?_ends_lost :
    (let path := ofProgram (.standard : Flattening Float) "G1 X100000000000000000\nG1 Y1".toList
     Scalar.isFinite path.totalLength = true ∧ Scalar.lt Scalar.zero path.totalLength = true ∧
       path.segments.getLast?.map (·.finish) = some ⟨100000000000000000, 1, 0⟩ ∧
       pointAt? path.segments path.totalLength Scalar.one = some ⟨100000000000000000, 0, 0⟩) ∧
    let path := ofProgram (.standard : Flattening Float)
      ("G1 X0.".toList ++ List.replicate 199 '0' ++ "1\nG1 Y1".toList)
    Scalar.isFinite path.totalLength = true ∧ Scalar.lt Scalar.zero path.totalLength = true ∧
      path.segments.head?.map (·.start) = some Point.origin ∧
      (pointAt? path.segments path.totalLength Scalar.zero).any (·.same Point.origin) = false := by
  constructor
  · decide +kernel
  · decide +kernel

end Toolpath

end Cnc
