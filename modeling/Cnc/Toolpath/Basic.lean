import Cnc.Gcode.Program
import Cnc.Gcode.Word
import Cnc.Toolpath.Arc

/-!
# The tool path of a program

A program is read line by line from the origin, in absolute millimetres. A
line with a motion command moves to the target that its axis words name; an
axis that is not named keeps its value. A straight move whose target is the
present position draws nothing, and an arc is drawn as a chain of chords.

The path is built in two steps: `Toolpath.chords` lists what is drawn, each
chord with the line it comes from, and `Toolpath.measure` adds to each chord
its length and the length travelled up to its end.
-/

namespace Cnc

/-- What a piece of the path is drawn for. -/
inductive MoveKind where
  /-- A fast move. -/
  | rapid
  /-- A straight cut. -/
  | feed
  /-- A chord of an arc. -/
  | arc
deriving DecidableEq, Repr

/-- A straight piece of the path, before it is measured. -/
structure Chord (α : Type) where
  kind : MoveKind
  /-- The index of the line that draws it, from zero. -/
  line : Nat
  start : Point α
  finish : Point α

/-- A measured straight piece of the path. -/
structure Segment (α : Type) extends Chord α where
  /-- The distance from start to finish. -/
  length : α
  /-- The length of the path up to the finish. -/
  travelled : α

/-- A path with its length. -/
structure Toolpath (α : Type) where
  segments : List (Segment α)
  totalLength : α

namespace Toolpath

open Gcode

variable {α : Type} [Scalar α]

/-- Where a line with a motion command leads: its axis words, or the present position. -/
def target (position : Point α) (ws : List Word) : Point α :=
  { x := (valueOf? ws 'X').getD position.x
    y := (valueOf? ws 'Y').getD position.y
    z := (valueOf? ws 'Z').getD position.z }

/-- A straight move; one that leads nowhere draws nothing. -/
def straight (kind : MoveKind) (line : Nat) (start finish : Point α) : List (Chord α) :=
  if finish.same start then [] else [⟨kind, line, start, finish⟩]

/-- The chords of a circular move; one without a radius is a straight cut. -/
def circular (o : Flattening α) (line : Nat) (a : Arc α) : List (Chord α) :=
  if a.isDegenerate then straight .feed line a.start a.target
  else
    let n := a.chords o
    (List.range n).map fun k => ⟨.arc, line, a.vertex n k, a.vertex n (k + 1)⟩

/-- What a motion command draws on its way to a target. -/
def draw (o : Flattening α) (position : Point α) (line : Nat) (ws : List Word) (m : Motion) :
    List (Chord α) :=
  let goal := target position ws
  let i := (valueOf? ws 'I').getD Scalar.zero
  let j := (valueOf? ws 'J').getD Scalar.zero
  match m with
  | .rapid => straight .rapid line position goal
  | .linear => straight .feed line position goal
  | .arcClockwise => circular o line ⟨position, goal, i, j, true⟩
  | .arcCounterclockwise => circular o line ⟨position, goal, i, j, false⟩

/-- The position after a line, and what the line draws. -/
def step (o : Flattening α) (position : Point α) (line : Nat) (ws : List Word) :
    Point α × List (Chord α) :=
  match motion? α ws with
  | none => (position, [])
  | some m => (target position ws, draw o position line ws m)

/-- The words of a line that commands are read from; a comment line has none. -/
def commandWords (line : List Char) : List Word :=
  if isBlankOrComment line then [] else words (stripComments line)

/-- What the lines of a program draw, from a position and a line number on. -/
def chordsFrom (o : Flattening α) (position : Point α) (line : Nat) :
    List (List Char) → List (Chord α)
  | [] => []
  | l :: rest =>
    let (next, drawn) := step o position line (commandWords l)
    drawn ++ chordsFrom o next (line + 1) rest

/-- **What a program draws**, in order. -/
def chords (o : Flattening α) (text : List Char) : List (Chord α) :=
  chordsFrom o Point.origin 0 (Text.lines text)

/-- Adds to each chord its length and the length of the path up to its end. -/
def measure (travelled : α) : List (Chord α) → List (Segment α)
  | [] => []
  | c :: rest =>
    let length := c.start.distance c.finish
    { c with length, travelled := travelled + length } :: measure (travelled + length) rest

/-- The path that consists of chords in order. -/
def ofChords (cs : List (Chord α)) : Toolpath α :=
  let segments := measure Scalar.zero cs
  { segments, totalLength := (segments.getLast?.map (·.travelled)).getD Scalar.zero }

/-- **The path of a program.** Every text has one: words that cannot be read are passed over, and
unusable options are replaced. -/
def ofProgram (o : Flattening α) (text : List Char) : Toolpath α :=
  ofChords (chords o.sanitized text)

end Toolpath

end Cnc
