import Cnc.Controller.Settings
import Cnc.Event.Bus
import Cnc.Link.Lock

/-!
# The link to a controller

A link is closed or has one connection. The connection owns all that ends
with it: the queues of posts that wait for the writer, the answers that are
still expected, the status pollers, the bytes that have arrived but are not
read yet, and what is still to be done with those that are. What outlives a
connection is the link's: the last status, the settings, the statistics, the
event bus, and the record of all posts.
-/

namespace Cnc

/-- What happens on a link. -/
inductive LinkEvent where
  | connected (port : String)
  | disconnected
  | status (status : MachineStatus)
  /-- A status report that cannot be read. -/
  | rejected (frame reason : String)
  | setting (id value : String)
  | log (line : String)
  | ack (a : Ack)
  | alarm (code : UInt16)
deriving DecidableEq

/-- What has passed over a link. -/
structure LinkStats where
  bytesSent : Nat
  bytesReceived : Nat
  linesSent : Nat
  realtimeSent : Nat
  framesReceived : Nat
  framesRejected : Nat
deriving DecidableEq, Repr

/-- What the device does next when it is read. -/
inductive Incoming where
  /-- It has sent bytes. -/
  | bytes (bs : List UInt8)
  /-- It has gone away. -/
  | eof
  /-- Reading fails. -/
  | fault (f : DeviceFault)
deriving DecidableEq, Repr

/-- One thing that the reader does with what it has read. -/
inductive Chore where
  /-- It counts bytes. -/
  | countBytes (n : Nat)
  /-- It counts a frame. -/
  | countFrame
  /-- It counts a status report that cannot be read. -/
  | countRejected
  /-- It replaces the status of the machine. -/
  | setStatus (status : MachineStatus)
  /-- It stores a setting. -/
  | store (id value : String)
  /-- It gives an answer to the oldest line that expects one. -/
  | settle (a : Ack)
  /-- It publishes an event. -/
  | publish (e : LinkEvent)
deriving DecidableEq

/-- The part of a link that a chore needs for itself. -/
def Chore.guarded? : Chore → Option Guarded
  | .countBytes _ | .countFrame | .countRejected => some .stats
  | .store .. => some .settings
  | .settle _ => some .slots
  | .setStatus _ | .publish _ => none

/-- **What a frame makes the reader do.** A status report replaces the status, a setting is stored,
and a message is passed on; one that answers a line goes to the oldest line that expects an
answer. -/
def Frame.chores (f : Frame) : List Chore :=
  .countFrame :: match f with
    | .status raw =>
      (match MachineStatus.parse raw.toList with
        | .ok report => [.setStatus report, .publish (.status report)]
        | .error e => [.countRejected, .publish (.rejected raw e.message)])
    | .setting id value => [.store id value, .publish (.setting id value)]
    | .log line =>
      .publish (.log line) ::
        ((f.ack?.toList.flatMap fun a => [.settle a, .publish (.ack a)]) ++
          f.alarm?.toList.map fun code => .publish (.alarm code))

/-- What the writer is doing. -/
inductive WriterStage where
  /-- It takes the next payload. -/
  | idle
  /-- It has taken the line with this ticket, which has no place among the expected answers yet. -/
  | taken (ticket : Nat)
  /-- It writes the payload with this ticket. -/
  | writing (ticket : Nat)
  /-- The device failed to take the line with this ticket, and its place is to be given up. -/
  | failed (ticket : Nat) (fault : WriteFault)
deriving DecidableEq, Repr

/-- The ticket of the payload that the writer is busy with. -/
def WriterStage.ticket? : WriterStage → Option Nat
  | .idle => none
  | .taken ticket | .writing ticket | .failed ticket _ => some ticket

/-- A task that asks for the status at regular times. -/
structure Poller where
  number : Nat
  /-- The time between two queries, in milliseconds. -/
  interval : Nat
  /-- When the next query is due. -/
  due : Nat
  /-- The query that is on its way. -/
  sending : Option Nat
deriving DecidableEq, Repr

/-- When the query after one that was due is due: an interval later, and if the poller is more than
five milliseconds behind, an interval from now. -/
def Poller.next (p : Poller) (now : Nat) : Nat :=
  if p.due + 5 < now then now + p.interval else p.due + p.interval

/-- An open connection. -/
structure Connection where
  /-- Connections are numbered from zero. -/
  number : Nat
  port : String
  /-- The tickets of the lines that wait for the writer, oldest first. -/
  lines : List Nat
  /-- The tickets of the realtime commands that wait for the writer, oldest first. -/
  realtime : List Nat
  /-- What the writer is doing. -/
  writer : WriterStage
  /-- The tickets of the lines that an answer is expected for, oldest first. -/
  slots : List Nat
  pollers : List Poller
  /-- What the device has sent and the reader has not read. -/
  inbox : List Incoming
  splitter : FrameSplitter
  /-- What is still to be done with the bytes that were read. -/
  chores : List Chore
  /-- Whether the device takes no bytes for now. -/
  stalled : Bool
  /-- How many of the next writes the device fails. -/
  writeFaults : Nat
  /-- How many of the next flushes the device fails. -/
  flushFaults : Nat
deriving DecidableEq

/-- The most bytes that are read at once. -/
def readSize : Nat := 1024

/-- A connection that has just been opened. -/
def Connection.fresh (number : Nat) (port : String) : Connection where
  number := number
  port := port
  lines := []
  realtime := []
  writer := .idle
  slots := []
  pollers := []
  inbox := []
  splitter := .empty
  chores := []
  stalled := false
  writeFaults := 0
  flushFaults := 0

/-- The link to a controller. -/
structure Link where
  connection : Option Connection
  /-- How many connections have been opened. -/
  opened : Nat
  status : MachineStatus
  settings : Settings
  stats : LinkStats
  events : EventBus LinkEvent
  /-- All posts; the ticket of a post is its index. -/
  posts : List Post
  /-- The tickets of the payloads that went over the wire, in order. -/
  wire : List Nat
deriving DecidableEq

namespace Link

/-- A link that was never opened. -/
def initial : Link where
  connection := none
  opened := 0
  status := .disconnected
  settings := .empty
  stats := ⟨0, 0, 0, 0, 0, 0⟩
  events := .standard
  posts := []
  wire := []

/-- What became of a post. -/
def delivery? (l : Link) (ticket : Nat) : Option Delivery := (l.posts[ticket]?).bind (·.delivery)

/-- The answer to a post. -/
def answer? (l : Link) (ticket : Nat) : Option Answer := (l.posts[ticket]?).bind (·.answer)

/-- The payload of a post. -/
def payload? (l : Link) (ticket : Nat) : Option Payload := (l.posts[ticket]?).map (·.payload)

end Link

end Cnc
