import Cnc.Controller.Command
import Cnc.Controller.Frame
import Cnc.Link.Error

/-!
# Posts: what is handed to a link, and what becomes of it

Every line and every realtime command that is handed to an open link is a
post. Posts are numbered in the order in which they are handed over, and a
post's number is its ticket. A post is delivered once: it is sent, or the
device refuses it, or the connection is lost first. A line that is sent is
answered once: by the controller, or by the loss of its answer.
-/

namespace Cnc

/-- One who acts in a session. -/
inductive Actor where
  /-- The host call that the step with this index makes. -/
  | call (index : Nat)
  /-- The task that streams the job with this number. -/
  | job (number : Nat)
  /-- A status poller. -/
  | poller (number : Nat)
  /-- A timer that asks for the settings after one was written. -/
  | refresher (number : Nat)
  /-- The task that writes to the port. -/
  | writer
  /-- The task that reads from the port. -/
  | reader
deriving DecidableEq, Repr

/-- What can go over the wire in one piece. -/
inductive Payload where
  /-- A line with its terminator. -/
  | line (text : String)
  /-- A realtime command. -/
  | realtime (command : Realtime)
deriving DecidableEq, Repr

namespace Payload

/-- A text as a line that ends with a line feed; one that already does is left alone. -/
def ofLine (text : String) : Payload :=
  line (if text.toList.getLast? = some '\n' then text else text ++ "\n")

/-- The bytes that go over the wire. -/
def bytes : Payload → List UInt8
  | line text => text.toUTF8.toList
  | realtime command => [command.byte]

/-- Whether a payload is a line. -/
def isLine : Payload → Bool
  | line _ => true
  | realtime _ => false

/-- The number of bytes that go over the wire. -/
def size : Payload → Nat
  | line text => text.utf8ByteSize
  | realtime _ => 1

end Payload

/-- How a device fails to take a payload. -/
inductive WriteFault where
  /-- Nothing was sent. -/
  | write
  /-- The payload was sent, but flushing it failed. -/
  | flush
deriving DecidableEq, Repr

/-- The device's words for a fault. -/
def WriteFault.reason : WriteFault → String
  | write => "write fault"
  | flush => "flush fault"

/-- What became of a payload. -/
inductive Delivery where
  /-- It is on the wire. -/
  | sent
  /-- The device failed to take it. -/
  | failed (fault : WriteFault)
  /-- The connection ended before it was written. -/
  | lost
deriving DecidableEq, Repr

/-- The error of a call whose payload was not delivered. -/
def Delivery.error? : Delivery → Option LinkError
  | sent => none
  | failed fault => some (.transfer fault.reason)
  | lost => some .notConnected

/-- How waiting for the answer to a line ends. -/
inductive Answer where
  /-- The controller answered. -/
  | ack (a : Ack)
  /-- There will be no answer: the link closed, the controller was reset, or the line was not
  written. -/
  | lost
deriving DecidableEq, Repr

/-- A payload that was handed to a link. -/
structure Post where
  /-- The connection that was open. -/
  connection : Nat
  /-- Who handed it over. -/
  sender : Actor
  payload : Payload
  /-- What became of it, once that is known. -/
  delivery : Option Delivery
  /-- The answer to it, once that is known. -/
  answer : Option Answer
deriving DecidableEq, Repr

end Cnc
