import Cnc.Session.Basic

/-!
# How many turns are left

Every turn either leaves an actor waiting, and then shortens the queue, or
uses up work that was there: bytes to be read, frames to be dispatched,
payloads to be written, and the stages that calls, pollers, refreshers and
the streaming task still have before them. An actor that waits for a lock or
gives way does so at most once for each piece of its work. So the turns that
are counted here are enough (`Session.Roused.settle`).
-/

namespace Cnc

/-- The sum of what the members of a list count. -/
def tally {α : Type} (count : α → Nat) : List α → Nat
  | [] => 0
  | a :: rest => count a + tally count rest

@[simp] theorem tally_append {α : Type} (count : α → Nat) (xs ys : List α) :
    tally count (xs ++ ys) = tally count xs + tally count ys := by
  induction xs with
  | nil => exact (Nat.zero_add _).symm
  | cons x xs ih => rw [List.cons_append, tally, tally, ih, Nat.add_assoc]

/-- The work left in what was received. No frame is shorter than a byte, and none makes more than
six chores. -/
def Incoming.work : Incoming → Nat
  | .bytes bs => 8 * bs.length + 2
  | _ => 1

/-- The work left to a writer in a stage. -/
def WriterStage.work : WriterStage → Nat
  | .idle => 0
  | .taken _ => 4
  | .writing _ => 3
  | .failed .. => 2

/-- The queries that a poller has to catch up with. -/
def Poller.overdue (p : Poller) (now : Nat) : Nat :=
  if now < p.due then 0 else if p.due + 5 < now then 1 else now - p.due + 1

/-- The work left to a poller. -/
def Poller.work (p : Poller) (now : Nat) : Nat :=
  10 * p.overdue now + if p.sending.isSome then 3 else 0

/-- The work left to a connection. -/
def Connection.work (c : Connection) (now : Nat) : Nat :=
  tally Incoming.work c.inbox + c.chores.length + c.writer.work
    + 5 * (c.lines.length + c.realtime.length) + tally (·.work now) c.pollers

/-- The work left to a refresher. -/
def Refresher.work (r : Refresher) : Nat := if r.sending.isSome then 2 else 9

/-- The work left to the streaming task. -/
def StreamTask.work (t : StreamTask) (state : JobState) : Nat :=
  16 * (t.job.lines.length - t.cursor) + 2 + match t.stage with
    | .ready => if state = .running then 12 else 0
    | .sending _ => 4
    | .awaiting _ deadline => if deadline.isSome then 2 else 1

/-- The work left to a call. -/
def CallStage.work : CallStage → Nat
  | .begin (.control (.start program)) => 50 + 16 * (Job.linesOf program).length
  | .turn (.start program) => 48 + 16 * (Job.linesOf program).length
  | .begin _ => 50
  | .turn _ => 48
  | .sending .. => 25
  | .counting .. => 22
  | .awaitingAnswer _ => 4
  | .awaitingIdle => 4
  | .confirming .. => 6
  | .lookingUp _ => 4

namespace Session

/-- The work left in a session, apart from listening to events. -/
def ownWork (s : Session) : Nat :=
  (s.link.connection.map (·.work s.now)).getD 0
    + tally Refresher.work s.refreshers
    + (s.streamer.task.map (·.work s.streamer.state)).getD 0
    + tally (·.2.work) s.calls

/-- The work left in a session. A call that waits for a setting hears the events that are kept and
those that are still to come. -/
def work (s : Session) : Nat :=
  s.ownWork + s.calls.length * (s.ownWork + s.link.events.capacity + 1)

/-- The largest number of actors that there can be while the present work is done. -/
def population (s : Session) : Nat :=
  4 + 2 * s.calls.length + s.refreshers.length
    + (s.link.connection.map (·.pollers.length)).getD 0

end Session

end Cnc
