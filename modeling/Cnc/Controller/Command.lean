import Cnc.Decimal.Layout

/-!
# Commands for a controller

Realtime commands are single bytes that a controller acts on at once.
Everything else is a line, written without its terminator.
-/

namespace Cnc

/-- The commands that a controller obeys outside its line buffer. -/
inductive Realtime where
  /-- Asks for a status report. -/
  | statusQuery
  /-- Holds all motion. -/
  | feedHold
  /-- Starts or resumes motion. -/
  | cycleStart
  /-- Resets the controller; what it has buffered is lost. -/
  | softReset
deriving DecidableEq, Repr

/-- The byte of a realtime command. -/
def Realtime.byte : Realtime → UInt8
  | statusQuery => 0x3F
  | feedHold => 0x85
  | cycleStart => 0x7E
  | softReset => 0x18

/-- A linear axis. -/
inductive Axis where
  | x | y | z
deriving DecidableEq, Repr

/-- The letter of an axis. -/
def Axis.letter : Axis → Char
  | x => 'X'
  | y => 'Y'
  | z => 'Z'

/-- The commands that are sent as a line. -/
inductive Command where
  /-- Runs the homing cycle. -/
  | home
  /-- Clears an alarm lock. -/
  | unlock
  /-- Asks for all settings. -/
  | dumpSettings
  /-- Makes the present position the work zero. -/
  | zeroWorkOffset
  /-- Moves along an axis by a distance. -/
  | jog (axis : Axis) (delta feed : Float)
  /-- A line as it was typed. -/
  | raw (line : String)

/-- **The line of a command**, without a terminator. Numbers are written positionally, the distance
of a jog always with a sign. -/
def Command.line : Command → String
  | home => "$H"
  | unlock => "$X"
  | dumpSettings => "$$"
  | zeroWorkOffset => "G10 L20 P1 X0 Y0 Z0"
  | jog axis delta feed =>
    String.ofList ("$J=G91 G21 ".toList ++ axis.letter :: Layout.positional delta true ++
      " F".toList ++ Layout.positional feed false)
  | raw line => line

end Cnc
