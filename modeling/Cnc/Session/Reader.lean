import Cnc.Session.Basic

/-!
# The reader

The reader takes what the device has sent, a limited number of bytes at
once, cuts it into frames, and does what the frames ask for, one chore after
the other.

When the device goes away, or reading fails for another reason than a
timeout, the connection ends.
-/

namespace Cnc.Session

/-- Gives an answer to the oldest line that expects one. -/
def settleAnswer (s : Session) (a : Ack) : Session :=
  match s.link.connection with
  | none => s
  | some c =>
    match c.slots with
    | [] => s
    | t :: rest => (s.withConnection { c with slots := rest }).answer t (.ack a)

/-- What a chore does. -/
def doChore (s : Session) : Chore → Session
  | .countBytes n => { s with link.stats.bytesReceived := s.link.stats.bytesReceived + n }
  | .countFrame => { s with link.stats.framesReceived := s.link.stats.framesReceived + 1 }
  | .countRejected => { s with link.stats.framesRejected := s.link.stats.framesRejected + 1 }
  | .setStatus status => s.setStatus status
  | .store id value => { s with link.settings := s.link.settings.insert id value }
  | .settle a => s.settleAnswer a
  | .publish e => s.publish e

/-- Does the first chore, for which it may need a guarded part of the link. -/
def readerChore (s : Session) (c : Connection) (chore : Chore) (rest : List Chore) : Session :=
  let act (s : Session) := (s.withConnection { c with chores := rest }).doChore chore
  match chore.guarded? with
  | some g => s.use .reader g act (·.again .reader)
  | none => (act s).again .reader

/-- Reads at most `readSize` of the bytes that the device has sent. -/
def readBytes (s : Session) (c : Connection) (bs : List UInt8) (rest : List Incoming) : Session :=
  let piece := bs.take readSize
  let left := bs.drop readSize
  let (splitter, frames) := c.splitter.feed piece
  (s.withConnection { c with
    inbox := if left.isEmpty then rest else .bytes left :: rest
    splitter := splitter
    chores := .countBytes piece.length :: frames.flatMap Frame.chores }).again .reader

/-- The reader's turn: it does the next chore, or reads on. -/
def readerTurn (s : Session) : Session :=
  match s.link.connection with
  | none => s
  | some c =>
    match c.chores, c.inbox with
    | chore :: rest, _ => s.readerChore c chore rest
    | [], [] => s
    | [], .bytes bs :: rest => s.readBytes c bs rest
    | [], .eof :: _ => s.endConnection
    | [], .fault .timedOut :: rest => (s.withConnection { c with inbox := rest }).again .reader
    | [], .fault _ :: _ => s.endConnection

end Cnc.Session
