import Cnc.Geometry.Scalar

/-!
# Points of the machine space

Positions are in millimetres. Distance is the square root of the sum of
squared differences, added from left to right, and interpolation walks from
the first point towards the second.
-/

namespace Cnc

/-- A position in machine space. -/
structure Point (α : Type) where
  x : α
  y : α
  z : α
deriving DecidableEq, Repr

namespace Point

variable {α : Type} [Scalar α]

/-- The point that every path begins at. -/
def origin : Point α := ⟨Scalar.zero, Scalar.zero, Scalar.zero⟩

/-- Whether two points compare equal in every coordinate. -/
def same (p q : Point α) : Bool := Scalar.eq p.x q.x && Scalar.eq p.y q.y && Scalar.eq p.z q.z

/-- The distance between two points. -/
def distance (p q : Point α) : α :=
  let dx := q.x - p.x
  let dy := q.y - p.y
  let dz := q.z - p.z
  Scalar.sqrt (dx * dx + dy * dy + dz * dz)

/-- The point at the fraction `t` of the way from `p` to `q`. -/
def lerp (p q : Point α) (t : α) : Point α :=
  ⟨p.x + (q.x - p.x) * t, p.y + (q.y - p.y) * t, p.z + (q.z - p.z) * t⟩

end Point

end Cnc
