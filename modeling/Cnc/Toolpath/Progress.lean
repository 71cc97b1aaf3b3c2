import Cnc.Toolpath.Basic

/-!
# Places along a path

Progress is a fraction of the length of a path; what lies outside the unit
interval counts as its nearer end, and what is not a number as zero. The
segment at a progress is the first one that reaches that length, and the
point is found on it by the share of its own length.
-/

namespace Cnc.Toolpath

variable {α : Type} [Scalar α]

/-- A progress moved into the unit interval. -/
def fractionOf (t : α) : α := if Scalar.isNaN t then Scalar.zero else Scalar.clampUnit t

/-- The length that has been travelled at a progress. -/
def travelledAt (total t : α) : α := fractionOf t * total

/-- The segment at a progress: the first that reaches its length, or else the last. -/
def segmentAt? (segments : List (Segment α)) (total t : α) : Option (Segment α) :=
  (segments.find? fun s => Scalar.le (travelledAt total t) s.travelled).or segments.getLast?

/-- The share of a segment that lies before a length of the path. -/
def shareOf (s : Segment α) (reached : α) : α :=
  if Scalar.lt Scalar.zero s.length then
    Scalar.clampUnit ((reached - (s.travelled - s.length)) / s.length)
  else Scalar.zero

/-- **The point at a progress**; an empty path has none. -/
def pointAt? (segments : List (Segment α)) (total t : α) : Option (Point α) :=
  (segmentAt? segments total t).map fun s =>
    let reached := travelledAt total t
    if Scalar.le s.travelled reached then s.finish
    else s.start.lerp s.finish (shareOf s reached)

end Cnc.Toolpath
