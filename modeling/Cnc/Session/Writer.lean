import Cnc.Session.Basic

/-!
# The writer

One writer puts payloads on the wire, each whole before the next. Realtime
commands go before lines, and each kind in the order in which it was handed
over. A line takes its place among the expected answers before it is
written; if writing it fails, the last place is given up again.

While the device takes no bytes the writer is held in the middle of a
payload.
-/

namespace Cnc.Session

/-- Lets the writer go on with another stage. -/
def withWriter (s : Session) (c : Connection) (stage : WriterStage) : Session :=
  (s.withConnection { c with writer := stage }).again .writer

/-- Takes the next payload from the queues, if there is one. -/
def takePayload (s : Session) (c : Connection) : Session :=
  match c.realtime, c.lines with
  | t :: rest, _ => s.spend.withWriter { c with realtime := rest } (.writing t)
  | [], t :: rest => s.spend.withWriter { c with lines := rest } (.taken t)
  | [], [] => s

/-- Gives a line its place among the expected answers. -/
def pushSlot (s : Session) (c : Connection) (ticket : Nat) : Session :=
  s.withConnection { c with slots := c.slots ++ [ticket], writer := .writing ticket }

/-- Gives up the place of the line that was last to take one. -/
def giveUpSlot (s : Session) (c : Connection) : Session :=
  match c.slots.getLast? with
  | none => s.withConnection { c with writer := .idle }
  | some t =>
    (s.withConnection { c with slots := c.slots.dropLast, writer := .idle }).answer t .lost

/-- Goes on after the device failed to take a payload: a line first gives up its place. -/
def failWrite (s : Session) (c : Connection) (ticket : Nat) (f : WriteFault) : Session :=
  if (s.link.payload? ticket).any Payload.isLine then s.withWriter c (.failed ticket f)
  else (s.withWriter c .idle).deliver ticket (.failed f)

/-- Writes and flushes the payload that was begun. -/
def attemptWrite (s : Session) (c : Connection) (ticket : Nat) : Session :=
  if 0 < c.writeFaults then s.failWrite { c with writeFaults := c.writeFaults - 1 } ticket .write
  else
    let sent := { s with link.wire := s.link.wire ++ [ticket] }
    if 0 < c.flushFaults then
      sent.failWrite { c with flushFaults := c.flushFaults - 1 } ticket .flush
    else (sent.withWriter c .idle).deliver ticket .sent

/-- The writer's turn: it takes a payload, or goes on with the one it has taken unless it is
held. -/
def writerTurn (s : Session) : Session :=
  match s.link.connection with
  | none => s
  | some c =>
    match c.writer with
    | .idle => if s.credit = 0 then s.giveWay .writer else s.takePayload c
    | .taken ticket => s.use .writer .slots (·.pushSlot c ticket) (·.again .writer)
    | .writing ticket => if c.stalled then s else s.attemptWrite c ticket
    | .failed ticket f =>
      s.use .writer .slots (·.giveUpSlot c) fun s => (s.deliver ticket (.failed f)).again .writer

end Cnc.Session
