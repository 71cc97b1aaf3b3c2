import Cnc.Toolpath.Basic

/-!
# How far a path and a program reach

Two boxes: `Toolpath.bounds?` around the points of a path, and `extent?`
around the XY positions that a program text names. The second one is read
off the text alone: it takes the lines that begin with a motion command and
ignores how far arcs bulge.
-/

namespace Cnc

variable {α : Type} [Scalar α]

namespace Point

/-- The smaller value in every coordinate. -/
def min (p q : Point α) : Point α := ⟨Scalar.min p.x q.x, Scalar.min p.y q.y, Scalar.min p.z q.z⟩

/-- The larger value in every coordinate. -/
def max (p q : Point α) : Point α := ⟨Scalar.max p.x q.x, Scalar.max p.y q.y, Scalar.max p.z q.z⟩

end Point

/-- The lowest and the highest corner of the box around the start of a path and all ends of its
segments; an empty path has none. -/
def Toolpath.bounds? (segments : List (Segment α)) : Option (Point α × Point α) :=
  segments.head?.map fun first =>
    (segments.foldl (fun p s => p.min s.finish) first.start,
      segments.foldl (fun p s => p.max s.finish) first.start)

/-- A box in the XY plane. -/
structure Extent (α : Type) where
  minX : α
  maxX : α
  minY : α
  maxY : α

namespace Extent

/-- The box that holds one point. -/
def single (x y : α) : Extent α := ⟨x, x, y, y⟩

/-- The smallest box that holds a box and a point. -/
def add (e : Extent α) (x y : α) : Extent α :=
  ⟨Scalar.min e.minX x, Scalar.max e.maxX x, Scalar.min e.minY y, Scalar.max e.maxY y⟩

/-- The size of the box in X. -/
def width (e : Extent α) : α := e.maxX - e.minX

/-- The size of the box in Y. -/
def height (e : Extent α) : α := e.maxY - e.minY

end Extent

/-- The box and the position after the lines of a program, from a box and a position on. -/
def extentFrom (x y : α) (e : Option (Extent α)) : List (List Char) → Option (Extent α)
  | [] => e
  | l :: rest =>
    let ws := Toolpath.commandWords l
    if (Gcode.leadingMotion? α ws).isNone then extentFrom x y e rest
    else
      let nextX := (Gcode.valueOf? ws 'X').getD x
      let nextY := (Gcode.valueOf? ws 'Y').getD y
      extentFrom nextX nextY (some ((e.getD (Extent.single x y)).add nextX nextY)) rest

/-- **The XY extent of a program**: the origin and the positions named by the lines that begin
with a motion command; none without such a line. -/
def extent? (text : List Char) : Option (Extent α) :=
  extentFrom Scalar.zero Scalar.zero none (Text.lines text)

end Cnc
