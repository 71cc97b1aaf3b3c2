import Cnc.Proofs.Angles
import Cnc.Proofs.Extents

/-!
# Full circles

An arc whose target compares equal to its start is meant to be a full circle.
Whether a turn is added to its sweep is decided by comparing the angles of start
and target seen from the centre. Two positions that compare equal look the same
from there, with one exception: a coordinate that is a zero of one sign at the
start and of the other at the target, while the centre is not off in this
coordinate (`FloatScalar.seen_cases`).

So the sweep is a full turn up to rounding, except in two cases
(`Toolpath.closed_arc_fullTurn_iff`):

* `Arc.LosesTurn`: Y is such a coordinate, and the start lies behind the centre.
  The two zeros have angles a full turn apart. If the move crosses from the one
  to the other at once, it is taken to have arrived, and its sweep is zero.
* `Arc.HalvesTurn`: X is such a coordinate, and the offset of the centre in Y is
  too small beside Y to change it. The sweep is half a turn.
-/

namespace Cnc

open Gcode Text FloatScalar

/-! ## Coordinates seen from a centre -/

namespace FloatScalar

variable {p q c : Float}

/-- **Two coordinates that compare equal**, seen from a centre that lies `c` away from the first,
are the same number, or zeros of opposite sign. -/
theorem seen_cases (same : Scalar.eq q p = true) :
    p - (p + c) = q - (p + c) ∨ IsZero c ∧ Opposite (p - (p + c)) (q - (p + c)) := by
  have zeros {p q : Float} (opposite : Opposite q p) :
      p - (p + c) = q - (p + c) ∨ IsZero c ∧ Opposite (p - (p + c)) (q - (p + c)) := by
    obtain ⟨zero, zero'⟩ := opposite.isZero
    by_cases none : IsZero c
    · rcases opposite with ⟨rfl, rfl⟩ | ⟨rfl, rfl⟩ <;> rcases none with rfl | rfl <;> decide +kernel
    · left
      rw [zero_add_of_ne_zero zero' none, zero_sub_of_ne_zero zero' none,
        zero_sub_of_ne_zero zero none]
  obtain ⟨-, -, rfl | opposite⟩ := Float.beq_iff_ne_nan_and_eq.mp same
  · exact .inl rfl
  · exact zeros opposite

/-- A coordinate seen from a centre is a number, be it infinity. -/
theorem isNumber_seen (hp : Scalar.isFinite p = true) (hc : Scalar.isFinite c = true) :
    IsNumber (p - (p + c)) :=
  isNumber_sub hp (isNumber_add hp (eq_iff_level.mp (Scalar.Ordered.number_of_finite hc)).1)

end FloatScalar

/-! ## Sweeps between angles -/

namespace Arc

/-- The signed angle from a start angle to a target angle in a direction. -/
def sweepBetween {α : Type} [Scalar α] (clockwise : Bool) (start target : α) : α :=
  (if clockwise then if Scalar.le start target then target - Scalar.turn else target
    else if Scalar.le target start then target + Scalar.turn else target) - start

theorem sweep_eq {α : Type} [Scalar α] (a : Arc α) :
    a.sweep = sweepBetween a.clockwise a.startAngle a.targetAngle := rfl

/-- **A turn added to an angle and measured from it** is a full turn: both sums are rounded. -/
theorem fullTurn_of_rounded {clockwise : Bool} {b e s : Float} {r : ℝ}
    (first : Rounded 4 e (value b + r)) (second : Rounded 3 s (value e - value b))
    (turn : |r - (if clockwise then -(2 * Real.pi) else 2 * Real.pi)| ≤ 2 ^ (-51 : ℤ)) :
    FullTurn clockwise s where
  finite := second.finite
  near := by
    have first := first.near
    have second := second.near
    generalize (if clockwise then -(2 * Real.pi) else 2 * Real.pi) = whole at turn ⊢
    rw [abs_le] at *
    norm_num at *
    constructor <;> linarith

/-- **From an angle to itself** is a full turn. -/
theorem fullTurn_self (clockwise : Bool) {b : Float} (finite : Scalar.isFinite b = true)
    (range : |value b| ≤ Real.pi) : FullTurn clockwise (sweepBetween clockwise b b) := by
  have self : Scalar.le b b = true :=
    Scalar.le_refl_of_number (Scalar.Ordered.number_of_finite finite)
  have finiteTurn : Scalar.isFinite (Scalar.turn : Float) = true := by decide +kernel
  have pi := Real.pi_lt_d2
  obtain ⟨low, high⟩ := abs_le.mp range
  obtain ⟨least, most⟩ := abs_le.mp (turn_near.trans (by norm_num : _ ≤ (1 / 4 : ℝ)))
  -- the angle and a turn are below 16, and what is left of them without the angle below 8
  have rest {e : Float} {r : ℝ} (first : Rounded 4 e (value b + r)) (small : |r| < 7) :
      |value e - value b| < 2 ^ 3 := by
    obtain ⟨lower, upper⟩ := abs_le.mp (first.near.trans (by norm_num : _ ≤ (1 : ℝ)))
    obtain ⟨below, above⟩ := abs_lt.mp small
    rw [abs_lt]
    constructor <;> linarith
  cases clockwise with
  | false =>
    have first : Rounded 4 (b + Scalar.turn) (value b + value Scalar.turn) :=
      rounded_add finite finiteTurn (by norm_num) (by rw [abs_lt]; constructor <;> linarith)
    have second : Rounded 3 (b + Scalar.turn - b) (value (b + Scalar.turn) - value b) :=
      rounded_sub first.finite finite (by norm_num)
        (rest first (by rw [abs_lt]; constructor <;> linarith))
    simp only [sweepBetween, self]
    exact fullTurn_of_rounded first second turn_near
  | true =>
    have first : Rounded 4 (b - Scalar.turn) (value b - value Scalar.turn) :=
      rounded_sub finite finiteTurn (by norm_num) (by rw [abs_lt]; constructor <;> linarith)
    rw [sub_eq_add_neg] at first
    have second : Rounded 3 (b - Scalar.turn - b) (value (b - Scalar.turn) - value b) :=
      rounded_sub first.finite finite (by norm_num)
        (rest first (by rw [abs_lt]; constructor <;> linarith))
    simp only [sweepBetween, self]
    refine fullTurn_of_rounded first second ?_
    rw [if_pos rfl, ← neg_sub', abs_neg]
    exact turn_near

/-- **The move crosses at once from one zero to the other**, where angles jump: clockwise from below
to above, and else from above to below. -/
def Crosses : Bool → Float → Float → Prop
  | true, v, v' => v = -0 ∧ v' = 0
  | false, v, v' => v = 0 ∧ v' = -0

instance Crosses.decidable : ∀ clockwise v v', Decidable (Crosses clockwise v v')
  | true, _, _ | false, _, _ => inferInstanceAs (Decidable (_ ∧ _))

theorem Crosses.opposite {clockwise : Bool} {v v' : Float} (crosses : Crosses clockwise v v') :
    Opposite v v' := by
  cases clockwise with
  | false => exact .inl crosses
  | true => exact .inr crosses

variable {angle : Float → Float → Float} {u u' v v' : Float}

/-- **Zeros of opposite sign ahead of the centre** have angles that compare equal: a full turn. -/
theorem fullTurn_ahead (rules : AngleRules angle) (clockwise : Bool) (ahead : Ahead u)
    (opposite : Opposite v v') :
    FullTurn clockwise (sweepBetween clockwise (angle v u) (angle v' u)) := by
  obtain ⟨above, below⟩ := rules.ahead ahead
  have turn : sweepBetween clockwise (angle v u) (angle v' u) =
      if clockwise then -Scalar.turn else Scalar.turn := by
    rcases opposite with ⟨rfl, rfl⟩ | ⟨rfl, rfl⟩ <;> rw [above, below] <;> cases clockwise <;>
      decide +kernel
  rw [turn]
  exact fullTurn_turn clockwise

/-- **Zeros of opposite sign behind the centre** have angles that lie a full turn apart: nothing is
left of the sweep if a turn was to be added between them. -/
theorem sweep_behind (rules : AngleRules angle) (clockwise : Bool) (behind : Behind u)
    (opposite : Opposite v v') :
    Crosses clockwise v v' ∧ sweepBetween clockwise (angle v u) (angle v' u) = 0 ∨
      ¬Crosses clockwise v v' ∧
        FullTurn clockwise (sweepBetween clockwise (angle v u) (angle v' u)) := by
  obtain ⟨above, below⟩ := rules.behind behind
  have differ : (0 : Float) ≠ -0 := by decide +kernel
  have turn := fullTurn_turn clockwise
  rcases opposite with ⟨rfl, rfl⟩ | ⟨rfl, rfl⟩ <;> rw [above, below] <;> cases clockwise
  · exact .inl ⟨⟨rfl, rfl⟩, by decide +kernel⟩
  · have sweep : sweepBetween true halfTurn (-halfTurn) = -Scalar.turn := by decide +kernel
    exact .inr ⟨fun crosses => differ crosses.1, sweep ▸ turn⟩
  · have sweep : sweepBetween false (-halfTurn) halfTurn = Scalar.turn := by decide +kernel
    exact .inr ⟨fun crosses => differ crosses.1.symm, sweep ▸ turn⟩
  · exact .inl ⟨⟨rfl, rfl⟩, by decide +kernel⟩

/-- Above and below the centre the sign of a zero in X does not matter. -/
theorem angle_upright (rules : AngleRules angle) (number : IsNumber v) (nonzero : ¬IsZero v)
    (opposite : Opposite u u') : angle v u' = angle v u := by
  rcases opposite with ⟨rfl, rfl⟩ | ⟨rfl, rfl⟩
  · exact (rules.upright number nonzero).symm
  · exact rules.upright number nonzero

/-- Between the zero ahead and half a turn on the same side, the sweep is half a turn. -/
theorem sweep_upright_zero (rules : AngleRules angle) (clockwise : Bool) (opposite : Opposite u u')
    (zero : IsZero v) :
    sweepBetween clockwise (angle v u) (angle v u') = halfTurn ∨
      sweepBetween clockwise (angle v u) (angle v u') = -halfTurn := by
  obtain ⟨above, below⟩ := rules.ahead (.inl rfl)
  obtain ⟨above', below'⟩ := rules.behind (.inl rfl)
  rcases opposite with ⟨rfl, rfl⟩ | ⟨rfl, rfl⟩ <;> rcases zero with rfl | rfl <;>
    simp only [above, below, above', below'] <;> cases clockwise <;> decide +kernel

end Arc

/-! ## The circular move of a line -/

namespace Toolpath

variable {α : Type} [Scalar α]

/-- The circular move that the words of a line ask for, if they ask for one. -/
def arcOf? (position : Point α) (ws : List Word) : Option (Arc α) :=
  let arc (clockwise : Bool) : Arc α :=
    ⟨position, target position ws, (valueOf? ws 'I').getD Scalar.zero,
      (valueOf? ws 'J').getD Scalar.zero, clockwise⟩
  match motion? α ws with
  | some .arcClockwise => some (arc true)
  | some .arcCounterclockwise => some (arc false)
  | _ => none

/-- It is what the line draws. -/
theorem step_of_arcOf? (o : Flattening α) {p : Point α} (n : ℕ) {ws : List Word} {a : Arc α}
    (own : arcOf? p ws = some a) : step o p n ws = (a.target, circular o n a) := by
  unfold arcOf? at own
  unfold step
  cases moves : motion? α ws with
  | none => simp [moves] at own
  | some m =>
    cases m with
    | rapid | linear => simp [moves] at own
    | arcClockwise | arcCounterclockwise =>
      simp only [moves] at own
      obtain rfl := Option.some.inj own
      rfl

/-- **The numbers of a circular move are finite**, if it is made from a finite position. -/
theorem finite_of_arcOf? [Scalar.Ordered α] {p : Point α} (finite : p.Finite) {ws : List Word}
    {a : Arc α} (own : arcOf? p ws = some a) :
    a.start.Finite ∧ a.target.Finite ∧ Scalar.isFinite a.i = true ∧ Scalar.isFinite a.j = true := by
  have getD {x : α} (axis : Char) (finite : Scalar.isFinite x = true) :
      Scalar.isFinite ((valueOf? ws axis).getD x) = true := by
    cases named : valueOf? (α := α) ws axis with
    | none => exact finite
    | some y => exact finite_of_valueOf? named
  have zero := Scalar.Ordered.finite_zero (α := α)
  unfold arcOf? at own
  split at own
  case h_3 => exact absurd own (by simp)
  all_goals
    obtain rfl := Option.some.inj own
    exact ⟨finite, ⟨getD 'X' finite.x, getD 'Y' finite.y, getD 'Z' finite.z⟩, getD 'I' zero,
      getD 'J' zero⟩

end Toolpath

/-! ## Closed arcs -/

namespace Arc

/-- X of a point seen from the centre. -/
def seenX {α : Type} [Scalar α] (a : Arc α) (p : Point α) : α := p.x - a.centreX

/-- Y of a point seen from the centre. -/
def seenY {α : Type} [Scalar α] (a : Arc α) (p : Point α) : α := p.y - a.centreY

variable {angle : Float → Float → Float}

/-- **The turn is lost**: start and target lie behind the centre, and their Y are zeros of opposite
sign between which the move crosses at once. -/
def LosesTurn (a : Arc (Angled angle)) : Prop :=
  Behind (a.seenX a.start) ∧ Crosses a.clockwise (a.seenY a.start) (a.seenY a.target)

/-- **The turn is halved**: seen from the centre start and target have no Y, and their X are zeros of
opposite sign, one ahead and one behind. -/
def HalvesTurn (a : Arc (Angled angle)) : Prop :=
  Opposite (a.seenX a.start) (a.seenX a.target) ∧ IsZero (a.seenY a.start)

instance (a : Arc (Angled angle)) : Decidable a.LosesTurn :=
  @instDecidableAnd _ _ (Behind.decidable _) (Crosses.decidable _ _ _)

instance (a : Arc (Angled angle)) : Decidable a.HalvesTurn :=
  @instDecidableAnd _ _ (Opposite.decidable _ _) (IsZero.decidable _)

variable {a : Arc (Angled angle)}

theorem isDegenerate_of_isZero (zeroI : IsZero a.i) (zeroJ : IsZero a.j) :
    a.isDegenerate = true := by
  have small {i j : Float} (zeroI : IsZero i) (zeroJ : IsZero j) :
      Scalar.lt (FloatScalar.hypot i j) (Scalar.ofDecimal ⟨false, 1, -9⟩) = true := by
    rcases zeroI with rfl | rfl <;> rcases zeroJ with rfl | rfl <;> decide +kernel
  exact small zeroI zeroJ

/-- What becomes of the sweep of a closed arc. -/
inductive Closure (a : Arc (Angled angle)) : Prop
  | full : ¬a.LosesTurn → ¬a.HalvesTurn → FullTurn a.clockwise a.sweep → Closure a
  | lost : a.LosesTurn → ¬a.HalvesTurn → a.sweep = (0 : Float) → Closure a
  | halved : ¬a.LosesTurn → a.HalvesTurn → a.sweep = halfTurn ∨ a.sweep = -halfTurn → Closure a

/-- **An arc that ends where it began** is a full circle, or its turn is lost or halved. -/
theorem closure (rules : AngleRules angle) (start : a.start.Finite)
    (finiteI : Scalar.isFinite a.i = true) (finiteJ : Scalar.isFinite a.j = true)
    (circle : a.isDegenerate = false) (closedX : Scalar.eq a.target.x a.start.x = true)
    (closedY : Scalar.eq a.target.y a.start.y = true) : Closure a := by
  have numberX : IsNumber (a.seenX a.start) := isNumber_seen start.x finiteI
  have numberY : IsNumber (a.seenY a.start) := isNumber_seen start.y finiteJ
  have seenX : a.seenX a.start = a.seenX a.target ∨
      IsZero a.i ∧ Opposite (a.seenX a.start) (a.seenX a.target) := seen_cases closedX
  have seenY : a.seenY a.start = a.seenY a.target ∨
      IsZero a.j ∧ Opposite (a.seenY a.start) (a.seenY a.target) := seen_cases closedY
  have sweep : a.sweep = sweepBetween (α := Float) a.clockwise
      (angle (a.seenY a.start) (a.seenX a.start))
      (angle (a.seenY a.target) (a.seenX a.target)) := a.sweep_eq
  have full (same : angle (a.seenY a.target) (a.seenX a.target) =
      angle (a.seenY a.start) (a.seenX a.start)) : FullTurn a.clockwise a.sweep := by
    rw [sweep, same]
    exact fullTurn_self _ (rules.finite numberY numberX) (rules.range numberY numberX)
  rcases seenX with sameX | ⟨zeroI, oppositeX⟩ <;> rcases seenY with sameY | ⟨zeroJ, oppositeY⟩
  · exact .full (fun lost => lost.2.opposite.ne sameY) (fun halved => halved.1.ne sameX)
      (full (by rw [sameX, sameY]))
  · have whole : ¬a.HalvesTurn := fun halved => halved.1.ne sameX
    rw [← sameX] at sweep
    rcases ahead_or_behind numberX with ahead | behind
    · have turn := fullTurn_ahead rules a.clockwise ahead oppositeY
      exact .full (fun lost => ahead.not_behind lost.1) whole (sweep ▸ turn)
    · rcases sweep_behind rules a.clockwise behind oppositeY with ⟨crosses, none⟩ | ⟨stays, turn⟩
      · exact .lost ⟨behind, crosses⟩ whole (sweep.trans none)
      · exact .full (fun lost => stays lost.2) whole (sweep ▸ turn)
  · have kept : ¬a.LosesTurn := fun lost => lost.2.opposite.ne sameY
    rw [← sameY] at sweep full
    by_cases zero : IsZero (a.seenY a.start)
    · have half := sweep_upright_zero rules a.clockwise oppositeX zero
      exact .halved kept ⟨oppositeX, zero⟩ (sweep ▸ half)
    · exact .full kept (fun halved => zero halved.2)
        (full (angle_upright rules numberY zero oppositeX))
  · -- a centre that is off in neither coordinate leaves no circle
    exact absurd (isDegenerate_of_isZero zeroI zeroJ) (by simp [circle])

end Arc

namespace Toolpath

/-- **Full circles are drawn, but for the signs of zeros.** After some lines, let a line ask for a
circular move with a radius whose target compares equal to the present position in X and Y. Its sweep
is a full turn in its direction, up to rounding, if and only if the turn is neither lost nor halved;
and it is empty if and only if the turn is lost. -/
theorem closed_arc_fullTurn_iff {angle : Float → Float → Float} (rules : AngleRules angle)
    (ls : List (List Char)) (l : List Char) {a : Arc (Angled angle)}
    (own : arcOf? (positionAfter ls) (commandWords l) = some a) (circle : a.isDegenerate = false)
    (closedX : Scalar.eq a.target.x a.start.x = true)
    (closedY : Scalar.eq a.target.y a.start.y = true) :
    (FullTurn a.clockwise a.sweep ↔ ¬a.LosesTurn ∧ ¬a.HalvesTurn) ∧
      (IsZero a.sweep ↔ a.LosesTurn) := by
  obtain ⟨start, -, finiteI, finiteJ⟩ := finite_of_arcOf? (finite_positionAfter ls) own
  cases Arc.closure rules start finiteI finiteJ circle closedX closedY with
  | full kept whole full =>
    have some_ := full.ne_zero
    tauto
  | lost lost whole none =>
    have zero : IsZero a.sweep := .inl none
    have part : ¬FullTurn a.clockwise a.sweep := fun full => full.ne_zero zero
    tauto
  | halved kept halved half =>
    have size := abs_value_halfTurn half
    have part : ¬FullTurn a.clockwise a.sweep := fun full => full.large.ne size.symm
    have some_ : ¬IsZero a.sweep := fun zero => by
      rw [value_of_isZero zero, abs_zero] at size
      exact halfTurn_pos.ne size
    tauto

/-- A circle around a centre to the left of its start, which has a zero in Y of the other sign than
its target. -/
theorem closed_arc_fullTurn_iff_left : AngleRules compass ∧ ∃ a : Arc (Angled compass),
    arcOf? (positionAfter ["G0 X10".toList]) (commandWords "G3 Y-0 I-10".toList) = some a ∧
      a.isDegenerate = false ∧ Scalar.eq a.target.x a.start.x = true ∧
      Scalar.eq a.target.y a.start.y = true ∧ Opposite a.start.y a.target.y ∧
      FullTurn a.clockwise a.sweep := by
  have checked : (arcOf? (α := Angled compass) (positionAfter ["G0 X10".toList])
      (commandWords "G3 Y-0 I-10".toList)).any (fun a => decide (a.isDegenerate = false) &&
        (Scalar.eq a.target.x a.start.x && Scalar.eq a.target.y a.start.y) &&
        @decide _ (Opposite.decidable a.start.y a.target.y) &&
        decide (¬a.LosesTurn ∧ ¬a.HalvesTurn)) = true := by
    decide +kernel
  obtain ⟨a, own, facts⟩ := Option.any_eq_true _ _ |>.mp checked
  simp only [Bool.and_eq_true, decide_eq_true_eq] at facts
  obtain ⟨⟨⟨circle, closedX, closedY⟩, zeros⟩, whole⟩ := facts
  exact ⟨compass_rules, a, own, circle, closedX, closedY, zeros,
    (closed_arc_fullTurn_iff compass_rules _ _ own circle closedX closedY).1.mpr whole⟩

/-- **A circle that is not drawn**: from the origin counter-clockwise around a centre to the right,
with the Y of the target written as `-0`. -/
theorem closed_arc_lost : AngleRules compass ∧ ∃ a : Arc (Angled compass),
    arcOf? (positionAfter []) (commandWords "G3 X0 Y-0 I1".toList) = some a ∧
      a.isDegenerate = false ∧ Scalar.eq a.target.x a.start.x = true ∧
      Scalar.eq a.target.y a.start.y = true ∧ IsZero a.sweep ∧
      ¬FullTurn a.clockwise a.sweep := by
  have checked : (arcOf? (α := Angled compass) (positionAfter [])
      (commandWords "G3 X0 Y-0 I1".toList)).any (fun a => decide (a.isDegenerate = false) &&
        (Scalar.eq a.target.x a.start.x && Scalar.eq a.target.y a.start.y) &&
        @decide _ (IsZero.decidable a.sweep)) = true := by
    decide +kernel
  obtain ⟨a, own, facts⟩ := Option.any_eq_true _ _ |>.mp checked
  simp only [Bool.and_eq_true, decide_eq_true_eq] at facts
  obtain ⟨⟨circle, closedX, closedY⟩, zero⟩ := facts
  exact ⟨compass_rules, a, own, circle, closedX, closedY, zero, fun full => full.ne_zero zero⟩

end Toolpath

end Cnc
