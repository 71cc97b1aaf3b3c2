import Cnc.Controller.Status
import Cnc.Text.Digit
import Cnc.Text.Utf8

/-!
# Lines from a controller

A controller answers in lines. A line that begins with `<` is a status
report, `$` with a number, an equals sign and a value reports a setting, and
everything else is a message. Among the messages `ok` and `error:` answer a
command, and `ALARM:` raises an alarm.

`FrameSplitter` cuts a stream of bytes into such lines. Bytes arrive in
chunks, each chunk is decoded by itself, and what follows the last line feed
is kept for the chunks to come.
-/

namespace Cnc

open Text

/-- One complete line from a controller. -/
inductive Frame where
  /-- A status report, not read yet. -/
  | status (raw : String)
  /-- The value of a setting. -/
  | setting (id value : String)
  /-- Anything else. -/
  | log (line : String)
deriving DecidableEq, Repr

/-- The answer to a command line. -/
inductive Ack where
  /-- The line was accepted. -/
  | ok
  /-- The line was rejected with an error code. -/
  | error (code : UInt16)
deriving DecidableEq, Repr

namespace Frame

/-- The number and the value of a setting line: `$`, digits, blanks, `=`, and a rest that, after
its leading blanks, has no line feed. -/
def setting? (line : List Char) : Option (List Char × List Char) :=
  match line with
  | '$' :: rest =>
    let id := rest.takeWhile isDigit
    match (rest.dropWhile isDigit).dropWhile isBlank with
    | '=' :: value =>
      if id ≠ [] ∧ '\n' ∉ trimStart value then some (id, trim value) else none
    | _ => none
  | _ => none

/-- What kind of line a line is. -/
def classify (line : List Char) : Frame :=
  if line.head? = some '<' then .status (String.ofList line)
  else match setting? line with
    | some (id, value) => .setting (String.ofList id) (String.ofList value)
    | none => .log (String.ofList line)

/-- The text after a label, if a message begins with it. -/
def messageAfter? (label : String) : Frame → Option (List Char)
  | .log line => MachineStatus.after? label line.toList
  | _ => none

/-- The answer that a message is: `ok` in any case, or `error:` with a code, which is 0 when it
cannot be read. -/
def ack? (f : Frame) : Option Ack :=
  match f with
  | .log line =>
    if line.toList.map Char.toLower = "ok".toList then some .ok
    else (f.messageAfter? "error:").map fun code => .error ((readUInt16? (trim code)).getD 0)
  | _ => none

/-- The code of an alarm message. -/
def alarm? (f : Frame) : Option UInt16 :=
  (f.messageAfter? "ALARM:").bind fun code => readUInt16? (trim code)

end Frame

/-- A stream of bytes that is being cut into lines. -/
structure FrameSplitter where
  /-- The text after the last line feed. -/
  pending : List Char
deriving DecidableEq, Repr

namespace FrameSplitter

/-- A stream of which nothing has arrived. -/
def empty : FrameSplitter := ⟨[]⟩

/-- **Takes the next chunk of bytes** and gives the lines that it completes. Lines are trimmed, and
empty ones are left out. -/
def feed (s : FrameSplitter) (chunk : List UInt8) : FrameSplitter × List Frame :=
  let pieces := (s.pending ++ Utf8.decodeLossy chunk).splitOn '\n'
  (⟨pieces.getLast?.getD []⟩,
    ((pieces.dropLast.map trim).filter (· ≠ [])).map Frame.classify)

/-- **Forgets the text that is kept** for the chunks to come. -/
def clear (s : FrameSplitter) : FrameSplitter := { s with pending := [] }

end FrameSplitter

end Cnc
