import Cnc.Geometry.Point

/-!
# Arcs as chains of chords

A circular move is given by where it begins and ends, the offset of its
centre from the start, and its direction. Its end angle is brought to the
side that its direction asks for, so the sweep is negative clockwise and
positive counter-clockwise, and a move that ends where it began is a full
turn. Height changes evenly along the sweep.

The chain has as many chords as the arc's length asks for, within two
bounds. Its first vertex is the start and its last is the programmed end
point itself; the vertices between lie on the circle.
-/

namespace Cnc

/-- How finely arcs are cut into chords. -/
structure Flattening (α : Type) where
  /-- The length of a chord that is aimed at. -/
  chord : α
  /-- The least number of chords of an arc. -/
  least : Nat
  /-- The largest number of chords of an arc; arcs that are too long get longer chords. -/
  most : Nat
deriving Repr

namespace Flattening

variable {α : Type} [Scalar α]

/-- Half a millimetre, with six to ten thousand chords. -/
def standard : Flattening α := ⟨Scalar.ofDecimal ⟨false, 5, -1⟩, 6, 10000⟩

/-- The options with unusable ones replaced: a chord that is not positive and finite becomes the
standard one, the least number of chords is at least one and the largest no less than it. -/
def sanitized (o : Flattening α) : Flattening α where
  chord := if Scalar.isFinite o.chord && Scalar.lt Scalar.zero o.chord then o.chord
    else (standard : Flattening α).chord
  least := Nat.max o.least 1
  most := Nat.max o.most (Nat.max o.least 1)

end Flattening

/-- A circular move. -/
structure Arc (α : Type) where
  /-- Where the move begins. -/
  start : Point α
  /-- Where the move ends. -/
  target : Point α
  /-- The offset of the centre from the start, in X. -/
  i : α
  /-- The offset of the centre from the start, in Y. -/
  j : α
  /-- Whether the move is clockwise. -/
  clockwise : Bool

namespace Arc

variable {α : Type} [Scalar α]

/-- The distance of the start from the centre. -/
def radius (a : Arc α) : α := Scalar.hypot a.i a.j

/-- Whether the radius is too small for a circle. -/
def isDegenerate (a : Arc α) : Bool := Scalar.lt a.radius (Scalar.ofDecimal ⟨false, 1, -9⟩)

/-- The centre in X. -/
def centreX (a : Arc α) : α := a.start.x + a.i

/-- The centre in Y. -/
def centreY (a : Arc α) : α := a.start.y + a.j

/-- The angle of the start seen from the centre. -/
def startAngle (a : Arc α) : α := Scalar.atan2 (a.start.y - a.centreY) (a.start.x - a.centreX)

/-- The angle of the target seen from the centre, before the direction is taken into account. -/
def targetAngle (a : Arc α) : α := Scalar.atan2 (a.target.y - a.centreY) (a.target.x - a.centreX)

/-- The angle at which the move ends: below the start angle clockwise, above it otherwise. -/
def endAngle (a : Arc α) : α :=
  if a.clockwise then
    if Scalar.le a.startAngle a.targetAngle then a.targetAngle - Scalar.turn else a.targetAngle
  else
    if Scalar.le a.targetAngle a.startAngle then a.targetAngle + Scalar.turn else a.targetAngle

/-- The signed angle that the move covers. -/
def sweep (a : Arc α) : α := a.endAngle - a.startAngle

/-- The number of chords that the move is cut into. -/
def chords (a : Arc α) (o : Flattening α) : Nat :=
  Nat.min (Nat.max (Scalar.ceil (Scalar.abs a.sweep * a.radius / o.chord)) o.least) o.most

/-- The point on the circle after `k` of `n` equal parts of the sweep. -/
def onCircle (a : Arc α) (k n : Nat) : Point α :=
  let t : α := Scalar.ofNatural k / Scalar.ofNatural n
  let angle := a.startAngle + a.sweep * t
  { x := a.centreX + a.radius * Scalar.cos angle
    y := a.centreY + a.radius * Scalar.sin angle
    z := a.start.z + (a.target.z - a.start.z) * t }

/-- **The vertices of the chain**: the start, points on the circle, and the programmed target. -/
def vertex (a : Arc α) (n k : Nat) : Point α :=
  if k = 0 then a.start else if k = n then a.target else a.onCircle k n

end Arc

end Cnc
