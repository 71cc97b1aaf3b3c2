import Cnc.Report.JsonLayout
import Cnc.Toolpath.Bounds

/-!
# Simulation reports

What a program would do, without a machine: its path, the length of the path
and the XY extent that the program names. The report is written as three
lines for people, in millimetres with three places, or as one JSON object
with every segment of the path.
-/

namespace Cnc

/-- A program's path and extent. -/
structure Simulation where
  path : Toolpath Float
  extent : Option (Extent Float)

namespace Simulation

/-- Simulates a program. -/
def ofProgram (o : Flattening Float) (text : String) : Simulation where
  path := Toolpath.ofProgram o text.toList
  extent := extent? text.toList

/-- A length in millimetres, with three places. -/
def millimetres (x : Float) : String := String.ofList (Layout.fixed x 3)

/-- The line about the extent. -/
def extentLine : Option (Extent Float) → String
  | none => "bounding box: none (no motion)"
  | some e =>
    "bounding box: X " ++ millimetres e.minX ++ ".." ++ millimetres e.maxX
      ++ "  Y " ++ millimetres e.minY ++ ".." ++ millimetres e.maxY
      ++ "  (" ++ millimetres e.width ++ " x " ++ millimetres e.height ++ " mm)"

/-- The report in three lines. -/
def summary (s : Simulation) : List String :=
  [ "segments:     " ++ String.ofList (Layout.digitsOf s.path.segments.length),
    "path length:  " ++ millimetres s.path.totalLength ++ " mm",
    extentLine s.extent ]

/-- The word for a kind of move. -/
def kindWord : MoveKind → String
  | .rapid => "Rapid"
  | .feed => "Feed"
  | .arc => "Arc"

/-- A point as an object. -/
def pointJson (p : Point Float) : JsonLayout.Lines :=
  JsonLayout.object [
    ("x", JsonLayout.number p.x), ("y", JsonLayout.number p.y), ("z", JsonLayout.number p.z)]

/-- An extent as an object. -/
def extentJson (e : Extent Float) : JsonLayout.Lines :=
  JsonLayout.object [
    ("min_x", JsonLayout.number e.minX), ("max_x", JsonLayout.number e.maxX),
    ("min_y", JsonLayout.number e.minY), ("max_y", JsonLayout.number e.maxY)]

/-- A segment as an object. -/
def segmentJson (s : Segment Float) : JsonLayout.Lines :=
  JsonLayout.object [
    ("start", pointJson s.start),
    ("end", pointJson s.finish),
    ("kind", JsonLayout.word (kindWord s.kind)),
    ("source_line", JsonLayout.natural s.line),
    ("length", JsonLayout.number s.length),
    ("cumulative_length", JsonLayout.number s.travelled)]

/-- The report as a JSON object. -/
def json (s : Simulation) : JsonLayout.Lines :=
  JsonLayout.object [
    ("total_length", JsonLayout.number s.path.totalLength),
    ("bounding_box", (s.extent.map extentJson).getD JsonLayout.null),
    ("segments", JsonLayout.array (s.path.segments.map segmentJson))]

end Simulation

end Cnc
