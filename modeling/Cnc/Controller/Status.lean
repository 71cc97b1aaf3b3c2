import Cnc.Decimal.Numeral
import Cnc.Geometry.Point
import Cnc.Text.Blank

/-!
# Status reports of a controller

A report is a body between `<` and `>`, whose fields are separated by `|`.
The first field names the state of the machine, with an optional substate
after a colon. Of the others, `MPos:` and `WPos:` give the position as three
numbers, `FS:` feed and spindle speed, and `F:` the feed alone; the last of
each kind counts, and unknown fields are passed over.

`MachineStatus.parse` reads a report or says which rule it breaks first.
-/

namespace Cnc

open Text

/-- The state of the machine. -/
inductive MachineState where
  | idle | run | hold | jog | alarm | door | check | home | sleep
  /-- No link is open. -/
  | disconnected
  /-- A link is open and no report has arrived yet. -/
  | connecting
deriving DecidableEq, Repr

namespace MachineState

/-- The name of a state. -/
def name : MachineState → String
  | idle => "Idle"
  | run => "Run"
  | hold => "Hold"
  | jog => "Jog"
  | alarm => "Alarm"
  | door => "Door"
  | check => "Check"
  | home => "Home"
  | sleep => "Sleep"
  | disconnected => "Disconnected"
  | connecting => "Connecting"

/-- The states that a controller reports. -/
def reportable : List MachineState := [idle, run, hold, jog, alarm, door, check, home, sleep]

/-- The reportable state that a field names; what follows a colon is its substate. -/
def ofField? (field : List Char) : Option MachineState :=
  reportable.find? fun s => s.name.toList = field.takeWhile (· ≠ ':')

end MachineState

/-- Why a status report is refused. -/
inductive StatusError where
  /-- The text is not enclosed in `<` and `>`. -/
  | missingDelimiters (text : String)
  /-- The first field names no reportable state. -/
  | unknownState (field : String)
  /-- There is no position field. -/
  | missingPosition
  /-- A field does not hold the numbers it should. -/
  | malformedField (field : String)
deriving DecidableEq, Repr

/-- What is wrong with a status report. -/
def StatusError.message : StatusError → String
  | missingDelimiters text => s!"status frame must be enclosed in '<' and '>': {text}"
  | unknownState field => s!"unknown machine state '{field}'"
  | missingPosition => "status frame has no MPos/WPos field"
  | malformedField field => s!"malformed field '{field}'"

/-- What a machine last reported. -/
structure MachineStatus where
  state : MachineState
  position : Point Float
  feed : Float
  spindle : Float
deriving DecidableEq

namespace MachineStatus

/-- The status without a report: everything is zero. -/
def blank (state : MachineState) : MachineStatus := ⟨state, ⟨0.0, 0.0, 0.0⟩, 0.0, 0.0⟩

/-- The status while no link is open. -/
def disconnected : MachineStatus := blank .disconnected

/-- The status of an open link before the first report. -/
def connecting : MachineStatus := blank .connecting

/-- What the fields after the first have told so far. -/
structure Readings where
  position : Option (Point Float)
  feed : Float
  spindle : Float

/-- What is known before the first field. -/
def Readings.none : Readings := ⟨.none, 0.0, 0.0⟩

/-- The numbers of a comma-separated list; none if one of them is not a finite number. -/
def numbers? (list : List Char) : Option (List Float) :=
  (list.splitOn ',').mapM fun part => readFinite? (trim part)

/-- The text after a label, if a field begins with it. -/
def after? (label : String) (field : List Char) : Option (List Char) :=
  if label.toList.isPrefixOf field then some (field.drop label.length) else none

/-- What a field tells, given what is known; none if it is malformed. -/
def Readings.add? (r : Readings) (field : List Char) : Option Readings :=
  match (after? "MPos:" field).or (after? "WPos:" field) with
  | some list =>
    match numbers? list with
    | some [x, y, z] => some { r with position := some ⟨x, y, z⟩ }
    | _ => Option.none
  | Option.none =>
    match after? "FS:" field with
    | some list =>
      match numbers? list with
      | some [feed, spindle] => some { r with feed, spindle }
      | _ => Option.none
    | Option.none =>
      match after? "F:" field with
      | some list =>
        match numbers? list with
        | some [feed] => some { r with feed }
        | _ => Option.none
      | Option.none => some r

/-- What all fields tell, up to the first malformed one. -/
def Readings.addAll (r : Readings) : List (List Char) → Except StatusError Readings
  | [] => .ok r
  | field :: rest =>
    match r.add? field with
    | some r => r.addAll rest
    | Option.none => .error (.malformedField (String.ofList field))

/-- The text between `<` and `>`. -/
def body? (text : List Char) : Option (List Char) :=
  match text with
  | '<' :: rest => if rest.getLast? = some '>' then some rest.dropLast else none
  | _ => none

/-- **Reads a status report**; blanks around it do not matter. -/
def parse (text : List Char) : Except StatusError MachineStatus :=
  match body? (trim text) with
  | none => .error (.missingDelimiters (String.ofList text))
  | some body =>
    let fields := body.splitOn '|'
    let first := fields.headD []
    match MachineState.ofField? first with
    | none => .error (.unknownState (String.ofList first))
    | some state =>
      match Readings.none.addAll fields.tail with
      | .error e => .error e
      | .ok r =>
        match r.position with
        | none => .error .missingPosition
        | some position => .ok { state, position, feed := r.feed, spindle := r.spindle }

end MachineStatus

end Cnc
