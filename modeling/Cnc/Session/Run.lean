import Cnc.Session.Calls
import Cnc.Session.Reader
import Cnc.Session.Work
import Cnc.Session.Writer

/-!
# Running a session

A session runs in steps. A step begins something – a host call, something
that the device does, or the passing of time – and then all actors take
turns until each of them waits. `Session.turn` is one turn, `Session.settle`
lets the actors act until nobody can, and `Session.perform` is a whole step
with the report of what could be observed meanwhile.
-/

namespace Cnc

/-- What the device does, or what is done to it. -/
inductive DeviceAction where
  /-- It sends bytes. -/
  | send (bs : List UInt8)
  /-- It goes away. -/
  | hangUp
  /-- The next read fails. -/
  | failRead (fault : DeviceFault)
  /-- It takes no bytes from now on. -/
  | stall
  /-- It takes bytes again. -/
  | unstall
  /-- It fails a number of writes from now on. -/
  | failWrites (count : Nat)
  /-- It fails a number of flushes from now on. -/
  | failFlushes (count : Nat)
deriving DecidableEq, Repr

/-- What a step of a session begins. -/
inductive SessionStep where
  | call (c : Call)
  | device (a : DeviceAction)
  /-- Time passes, in milliseconds. -/
  | advance (time : Nat)
deriving DecidableEq, Repr

/-- What could be observed during a step, and the state after it. -/
structure StepReport where
  /-- The results that were given, by the index of the step that made the call. -/
  results : List (Nat × Result)
  /-- What went over the wire. -/
  sent : List Payload
  linkEvents : List (Heard LinkEvent)
  jobEvents : List (Heard JobEvent)
  port : Option String
  status : MachineStatus
  stats : LinkStats
  state : JobState
  progress : JobProgress
  active : Bool

namespace Session

/-! ## Turns -/

/-- The turn of one actor. -/
def act (s : Session) (a : Actor) : Session :=
  match a with
  | .call i => s.callTurn i
  | .job number => s.jobTurn number
  | .poller number => s.pollerTurn number
  | .refresher number => s.refresherTurn number
  | .writer => s.writerTurn
  | .reader => s.readerTurn

/-- Begins a stretch of an actor. -/
def beginStretch (s : Session) (a : Actor) (rest : List Actor) : Session :=
  { s with ready := rest, acting := some a, credit := stretchCredit, stretches := s.stretches + 1 }

/-- Begins a round: those who gave way join the queue. -/
def beginRound (s : Session) : Session :=
  { s with ready := s.ready ++ s.yielded, yielded := [], stretches := 0 }

/-- The next turn: that of the actor whose stretch it is, and when that is over, the beginning of
another stretch or round. There is none when every actor waits. -/
def turn (s : Session) : Option Session :=
  match s.acting, s.ready with
  | some a, _ => some ({ s with acting := none }.act a)
  | none, a :: rest =>
    some (if s.stretches = roundLength then s.beginRound else s.beginStretch a rest)
  | none, [] => if s.yielded = [] then none else some s.beginRound

/-- Takes a number of turns, or fewer if nobody can act any more. -/
def turns (s : Session) : Nat → Session
  | 0 => s
  | n + 1 => match s.turn with
    | some next => next.turns n
    | none => s

/-- **Lets the actors act until each of them waits.** -/
def settle (s : Session) : Session :=
  { s with stretches := 0 }.turns (8 * (s.work + 1) * (s.population + 2))

/-! ## Steps -/

/-- The times that actors wait for. -/
def timers (s : Session) : List (Nat × Actor) :=
  let task := match s.streamer.task with
    | some ⟨job, _, .awaiting _ (some deadline)⟩ => [(deadline, Actor.job job.number)]
    | _ => []
  let pollers := match s.link.connection with
    | some c => (c.pollers.filter (·.sending.isNone)).map fun p => (p.due, Actor.poller p.number)
    | none => []
  let refreshers := (s.refreshers.filter (·.sending.isNone)).map
    fun r => (r.due, Actor.refresher r.number)
  let calls := s.calls.filterMap fun c => match c.2 with
    | .confirming _ _ deadline => some (deadline, Actor.call c.1)
    | _ => none
  task ++ pollers ++ refreshers ++ calls

/-- Lets time pass up to `target`, stopping at every time that an actor waits for. At most `rounds`
stops are made. -/
def advanceTo (s : Session) (target rounds : Nat) : Session :=
  let due := (s.timers.map (·.1)).filter (· ≤ target)
  match rounds, due.min? with
  | rounds + 1, some time =>
    let reached := { s with now := Nat.max s.now time }
    let woken := reached.wakeAll ((reached.timers.filter (·.1 ≤ reached.now)).map (·.2))
    woken.settle.advanceTo target rounds
  | _, _ => { s with now := target }

/-- Lets time pass. After every stop nothing is due any more, so the next one is later and there
are no more stops than milliseconds. -/
def advance (s : Session) (time : Nat) : Session := s.advanceTo (s.now + time) (time + 1)

/-- What the device does to the open connection. -/
def deviceAct (s : Session) (a : DeviceAction) : Session :=
  match s.link.connection with
  | none => s
  | some c =>
    match a with
    | .send bs => (s.withConnection { c with inbox := c.inbox ++ [.bytes bs] }).wake .reader
    | .hangUp => (s.withConnection { c with inbox := c.inbox ++ [.eof] }).wake .reader
    | .failRead fault =>
      (s.withConnection { c with inbox := c.inbox ++ [.fault fault] }).wake .reader
    | .stall => s.withConnection { c with stalled := true }
    | .unstall => (s.withConnection { c with stalled := false }).wake .writer
    | .failWrites count => s.withConnection { c with writeFaults := count }
    | .failFlushes count => s.withConnection { c with flushFaults := count }

/-- Begins the step with an index. -/
def begin (s : Session) (index : Nat) (step : SessionStep) : Session :=
  match step with
  | .call c => { s with calls := s.calls ++ [(index, CallStage.begin c)] }.wake (.call index)
  | .device a => if s.link.opened = 0 then s.give index .noDevice else s.deviceAct a
  | .advance time => s.advance time

/-- Takes a step up to where every actor waits. -/
def step (s : Session) (index : Nat) (st : SessionStep) : Session := (s.begin index st).settle

/-- What an observer sees of a step that leads from `before` to `after`, and the session once the
observer has heard all events. -/
def observe (before after : Session) : StepReport × Session :=
  let (linkEvents, linkBus) := after.link.events.drain 0
  let (jobEvents, jobBus) := after.streamer.events.drain 0
  ({ results := (after.results.drop before.results.length).mergeSort fun a b => a.1 ≤ b.1
     sent := (after.link.wire.drop before.link.wire.length).filterMap after.link.payload?
     linkEvents
     jobEvents
     port := after.link.connection.map (·.port)
     status := after.link.status
     stats := after.link.stats
     state := after.streamer.state
     progress := after.streamer.progress
     active := after.streamer.job.isSome },
   { after with link.events := linkBus, streamer.events := jobBus })

/-- **Takes a step** and reports what could be observed. -/
def perform (s : Session) (index : Nat) (st : SessionStep) : StepReport × Session :=
  observe s (s.step index st)

/-- Takes steps in order, the first with the given index, and reports on each. -/
def run (s : Session) (index : Nat) : List SessionStep → List StepReport
  | [] => []
  | st :: rest =>
    let (report, next) := s.perform index st
    report :: next.run (index + 1) rest

end Session

end Cnc
