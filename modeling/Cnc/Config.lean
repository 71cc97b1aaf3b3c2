import Cnc.Geometry.Scalar
import Cnc.Text.File
import Cnc.Toml.Document
import Cnc.Toolpath.Arc

/-!
# Configuration

The options of the host: the port of the machine, the times of the link and
how finely arcs are cut. A configuration file is a TOML document with a
section for each; sections and fields that are absent keep their standard
values, and names that are not known are passed over.

A section may also be written as an array, which gives its fields in order.
A date in the place of a section names no field, so it leaves all standard
values. What a name that is not known stands for is still read, so its
numbers must have values; items behind the last field of an array are not.

Whatever is read is checked by `Config.fault?`, which names the first option
that is out of range.
-/

namespace Cnc

/-- The options of the host. -/
structure Config where
  /-- The serial port of the machine; empty for none. -/
  port : String
  /-- The speed of the port. -/
  baud : Nat
  /-- Milliseconds between two status queries. -/
  pollInterval : Nat
  /-- Milliseconds between the writing of a setting and the request for all settings. -/
  refreshDelay : Nat
  /-- Milliseconds in which a line of a job is to be acknowledged, if there is a limit. -/
  ackTimeout : Option Nat
  /-- How arcs are cut into chords. -/
  arcs : Flattening Float

/-- What may be out of range in a configuration. -/
inductive ConfigFault where
  | noBaud
  | noPollInterval
  | noChordLength
  | noChords
  | chordBoundsCrossed
deriving DecidableEq, Repr

/-- The wording of a fault. -/
def ConfigFault.message : ConfigFault → String
  | .noBaud => "machine.baud must be > 0"
  | .noPollInterval => "streamer.poll_interval_ms must be > 0"
  | .noChordLength => "interpreter.arc_segment_length must be > 0"
  | .noChords => "interpreter.min_arc_segments must be >= 1"
  | .chordBoundsCrossed => "interpreter.max_arc_segments must be >= min_arc_segments"

/-- Why there is no configuration. -/
inductive ConfigError where
  /-- The file has no text. -/
  | unreadable (fault : FileFault)
  /-- The text is no TOML document, or a value in it is not of the kind that its field takes. -/
  | malformed
  /-- An option is out of range. -/
  | invalid (fault : ConfigFault)
deriving DecidableEq, Repr

/-- The wording of an error. -/
def ConfigError.message : ConfigError → String
  | .unreadable fault => "IO error: " ++ fault.message
  | .malformed => "TOML parse error: not a configuration"
  | .invalid fault => "Invalid configuration: " ++ fault.message

namespace Config

/-- The options where nothing is configured. -/
def standard : Config where
  port := ""
  baud := 115200
  pollInterval := 200
  refreshDelay := 500
  ackTimeout := none
  arcs := .standard

/-- The first option that is out of range, in the order of the file's sections. -/
def fault? (c : Config) : Option ConfigFault :=
  if c.baud = 0 then some .noBaud
  else if c.pollInterval = 0 then some .noPollInterval
  else if !Scalar.lt Scalar.zero c.arcs.chord then some .noChordLength
  else if c.arcs.least = 0 then some .noChords
  else if c.arcs.most < c.arcs.least then some .chordBoundsCrossed
  else none

/-! ## Fields of a document -/

open Toml

/-- The names of the sections. -/
def sectionNames : List String := ["machine", "streamer", "interpreter"]

/-- A section as the value of each of its fields, which are known by name and by position. -/
def fieldsOf? : Value → Option (String → Nat → Option Value)
  | .table _ entries =>
    if entriesValued entries then some fun name _ => Table.get? entries name else none
  | .array items => some fun _ position => items[position]?
  | .tables elements => some fun _ position => elements[position]?.map (.table .header)
  | .datetime _ => some fun _ _ => none
  | _ => none

/-- A field's value: the standard one where the field is absent, `none` where `read?` refuses what
is there. -/
def fieldOr {α : Type} (read? : Value → Option α) (standard : α) : Option Value → Option α
  | none => some standard
  | some v => read? v

/-- A text. -/
def text? : Value → Option String
  | .string text => some text
  | _ => none

/-- A natural number below a bound. -/
def natural? (bound : Nat) : Value → Option Nat
  | .integer n => if 0 ≤ n ∧ n < bound then some n.toNat else none
  | _ => none

/-- A number. Integers count if they fit in 64 bits, with a sign or without. -/
def number? : Value → Option Float
  | .float x => some x
  | .integer n =>
    if -(Nat.pow 2 63 : Int) ≤ n ∧ n < Nat.pow 2 64 then some (Float.ofInt n) else none
  | _ => none

/-- The configuration that a document's table describes, before it is checked. -/
def ofTable? (t : Table) : Option Config := do
  let section? (name : String) : Option (String → Nat → Option Value) :=
    match t.get? name with
    | none => some fun _ _ => none
    | some v => fieldsOf? v
  guard (entriesValued (t.filter fun e => !sectionNames.contains e.1))
  let word := natural? (Nat.pow 2 64)
  let machine ← section? "machine"
  let port ← fieldOr text? standard.port (machine "port" 0)
  let baud ← fieldOr (natural? (Nat.pow 2 32)) standard.baud (machine "baud" 1)
  let streamer ← section? "streamer"
  let pollInterval ← fieldOr word standard.pollInterval (streamer "poll_interval_ms" 0)
  let refreshDelay ← fieldOr word standard.refreshDelay (streamer "settings_refresh_delay_ms" 1)
  let timeout ← fieldOr word 0 (streamer "ack_timeout_ms" 2)
  let interpreter ← section? "interpreter"
  let chord ← fieldOr number? standard.arcs.chord (interpreter "arc_segment_length" 0)
  let least ← fieldOr word standard.arcs.least (interpreter "min_arc_segments" 1)
  let most ← fieldOr word standard.arcs.most (interpreter "max_arc_segments" 2)
  return {
    port, baud, pollInterval, refreshDelay
    ackTimeout := if timeout = 0 then none else some timeout
    arcs := { chord, least, most } }

/-- The configuration itself if all of it is in range. -/
def checked (c : Config) : Except ConfigError Config :=
  match c.fault? with
  | none => .ok c
  | some fault => .error (.invalid fault)

/-- The configuration that a text describes. -/
def ofText (text : String) : Except ConfigError Config :=
  match (Toml.read? text.toList).bind ofTable? with
  | none => .error .malformed
  | some c => c.checked

/-- **The configuration in a file**, given the file's bytes if it exists. -/
def ofFile (bytes : Option ByteArray) : Except ConfigError Config :=
  match fileText bytes with
  | .error fault => .error (.unreadable fault)
  | .ok text => ofText text

/-- A configuration that is read is in range. -/
theorem fault?_of_ofText {text : String} {c : Config} (h : ofText text = .ok c) :
    c.fault? = none := by
  unfold ofText at h
  split at h
  · simp at h
  · rename_i d _
    unfold checked at h
    split at h
    · rename_i hd
      simpa using (Except.ok.inj h) ▸ hd
    · simp at h

end Config

end Cnc
