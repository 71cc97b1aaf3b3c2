import Cnc.Job.Basic
import Cnc.Link.Basic

/-!
# Sessions

A session is a link on a scripted device and a job streamer on that link,
with the calls that a host makes to both. Everything that takes time is an
actor: each host call, the streaming task, the status pollers, the timers
that refresh the settings, and the reader and the writer of the connection.

Actors take turns. An actor that can go on is in the queue `ready`, at most
once; the first in the queue acts until it has to wait, and whatever it sets
free joins the end. Time is a number that only `Session.advance` changes.

An actor does a limited amount of work at a stretch; `credit` is what is
left of it. Receiving something that was handed over counts, and so does
getting a lock. When the credit is used up, the actor gives way: it goes on
when nobody else can, or after a round of stretches by others. An actor that
gives way right after it got a lock keeps the lock meanwhile.

This module holds the state and the few operations on it that all actors
share: waking, giving way, using a guarded part of the link, publishing,
handing a payload over, and telling its sender what became of it.
-/

namespace Cnc

/-- The calls that take turns at the job streamer. -/
inductive Control where
  | start (program : String)
  | pause
  | resume
  | stop
deriving DecidableEq, Repr

/-- The calls of a host. -/
inductive Call where
  /-- Opens a port; with a refusal the device cannot be opened. -/
  | connect (port : String) (refusal : Option DeviceFault)
  | disconnect
  /-- Sends a line. -/
  | write (line : String)
  /-- Sends a line and waits for its answer. -/
  | writeAcked (line : String)
  | realtime (command : Realtime)
  | control (c : Control)
  /-- Waits until the job streamer is idle. -/
  | wait
  /-- Asks for the status at regular times from now on. -/
  | poll (interval : Nat)
  /-- Writes a setting and asks for all settings some time later. -/
  | writeSetting (id : UInt16) (value : String) (delay : Nat)
  /-- Writes a setting and waits for it to be reported. -/
  | confirmSetting (id : UInt16) (value : String) (delay timeout : Nat)
  | settings
  | resetSettings
  | jobLines
  | ports
deriving DecidableEq, Repr

/-- Sends a command as a line. -/
def Call.command (c : Command) : Call := .write c.line

/-- Asks for all settings. -/
def Call.refresh : Call := .command .dumpSettings

/-- What a host call gives. -/
inductive Result where
  | ok
  | sent
  | ack (a : Ack)
  | idle
  | reported (value : Option String)
  | settings (entries : List (String × String))
  | lines (lines : Option (List String))
  | ports (names : List String)
  | linkError (e : LinkError)
  | jobError (e : JobError)
  /-- A device step came before any port was opened. -/
  | noDevice
deriving DecidableEq, Repr

/-- How a written setting is confirmed. -/
structure Confirmation where
  /-- The text of the setting's number. -/
  key : String
  /-- The subscription to the link's events that was made when the call began. -/
  subscription : Nat
  timeout : Nat
deriving DecidableEq, Repr

/-- What a call does once it is known what became of its payload. -/
inductive Errand where
  /-- It gives the outcome. -/
  | report
  /-- It gives the outcome and then waits for the answer. -/
  | reportAnswer
  | realtime (command : Realtime)
  | pause
  | resume
  | stop
  | setting (delay : Nat) (confirmation : Option Confirmation)
deriving DecidableEq, Repr

/-- Whether an errand resets the controller. -/
def Errand.isReset : Errand → Bool
  | .realtime command => command = .softReset
  | .stop => true
  | _ => false

/-- What a host call waits for. -/
inductive CallStage where
  /-- It has not begun. -/
  | begin (c : Call)
  /-- It waits for its turn at the job streamer. -/
  | turn (c : Control)
  /-- It waits to know what became of a payload. -/
  | sending (ticket : Nat) (errand : Errand)
  /-- Its payload was sent, and is to be counted. -/
  | counting (ticket : Nat) (errand : Errand)
  | awaitingAnswer (ticket : Nat)
  | awaitingIdle
  /-- It waits for a setting to be reported, until a time. -/
  | confirming (key : String) (subscription deadline : Nat)
  /-- The setting was reported, and its value is to be looked up. -/
  | lookingUp (key : String)
deriving DecidableEq, Repr

/-- A timer that asks for the settings when it is due. -/
structure Refresher where
  number : Nat
  due : Nat
  /-- The request that is on its way. -/
  sending : Option Nat
deriving DecidableEq, Repr

/-- The state of a session. -/
structure Session where
  /-- The time, in milliseconds. -/
  now : Nat
  link : Link
  streamer : Streamer
  /-- The host calls that have not given their last result, by the index of their step. -/
  calls : List (Nat × CallStage)
  refreshers : List Refresher
  /-- How many pollers and refreshers there have been. -/
  spawned : Nat
  /-- The actors that can go on, in the order in which they act. -/
  ready : List Actor
  /-- The actor whose stretch it is. -/
  acting : Option Actor
  /-- How much that actor may still do before it gives way. -/
  credit : Nat
  /-- The actors that gave way, in the order in which they did. -/
  yielded : List Actor
  /-- How many stretches there have been in this round. -/
  stretches : Nat
  locks : Locks
  /-- All results so far, in the order in which they were given. -/
  results : List (Nat × Result)
deriving DecidableEq

namespace Session

/-- How much an actor does at a stretch. -/
def stretchCredit : Nat := 128

/-- How many stretches make a round, after which those who gave way may go on. -/
def roundLength : Nat := 61

/-- A session before its first step. An observer is subscribed to both event buses. -/
def initial (timeout : Option Nat) : Session where
  now := 0
  link := { Link.initial with events := Link.initial.events.subscribe }
  streamer :=
    { Streamer.initial timeout with events := (Streamer.initial timeout).events.subscribe }
  calls := []
  refreshers := []
  spawned := 0
  ready := []
  acting := none
  credit := stretchCredit
  yielded := []
  stretches := 0
  locks := .free
  results := []

/-- The port that every session can open. -/
def devicePort : String := "/dev/mock0"

/-! ## Taking turns -/

/-- Whether an actor can only go on for a reason of its own: it gave way, or waits for a lock. -/
def isHeldUp (s : Session) (a : Actor) : Bool := a ∈ s.yielded || s.locks.inLine a

/-- Lets an actor act again once those before it have. One that is held up stays so. -/
def wake (s : Session) (a : Actor) : Session :=
  if a ∈ s.ready ∨ s.isHeldUp a then s else { s with ready := s.ready ++ [a] }

/-- Lets several actors act again, in order. -/
def wakeAll (s : Session) (as : List Actor) : Session := as.foldl wake s

/-- Lets the present actor go on at once. -/
def again (s : Session) (a : Actor) : Session := { s with acting := some a }

/-- Takes one from the credit of the present actor. -/
def spend (s : Session) : Session := { s with credit := s.credit - 1 }

/-- Lets the present actor give way. -/
def giveWay (s : Session) (a : Actor) : Session := { s with yielded := s.yielded ++ [a] }

/-! ## Locks -/

/-- Hands the lock of a part to the first in line. -/
def leave (s : Session) (g : Guarded) : Session :=
  let lock := (s.locks.get g).leave
  { s with locks := s.locks.set g lock }.wakeAll lock.holder.toList

/-- **Uses a guarded part of the link.** An actor that gets the lock does what is to be done
`inside`, leaves the lock, and goes on with what comes `after`. One that does not get it waits in
line, and one without credit gives way and keeps the lock; both try again when they act again. -/
def use (s : Session) (a : Actor) (g : Guarded) (inside after : Session → Session) : Session :=
  let lock := (s.locks.get g).request a
  let asked := { s with locks := s.locks.set g lock }
  if lock.holder ≠ some a then asked
  else if asked.credit = 0 then asked.giveWay a
  else after ((inside asked.spend).leave g)

/-- Removes an actor that no longer exists from the locks. -/
def forget (s : Session) (a : Actor) : Session :=
  let locks : Locks :=
    ⟨s.locks.stats.forget a, s.locks.slots.forget a, s.locks.settings.forget a⟩
  { s with locks }.wakeAll
    (locks.stats.holder.toList ++ locks.slots.holder.toList ++ locks.settings.holder.toList)

/-! ## Host calls -/

/-- What a call waits for. -/
def stage? (s : Session) (i : Nat) : Option CallStage := s.calls.lookup i

/-- Changes what a call waits for. -/
def setStage (s : Session) (i : Nat) (st : CallStage) : Session :=
  { s with calls := s.calls.map fun c => if c.1 = i then (i, st) else c }

/-- Gives a result of a call that goes on. -/
def give (s : Session) (i : Nat) (r : Result) : Session :=
  { s with results := s.results ++ [(i, r)] }

/-- Gives the last result of a call. -/
def finish (s : Session) (i : Nat) (r : Result) : Session :=
  { s.give i r with calls := s.calls.filter (·.1 ≠ i) }

/-- The calls that wait for a setting to be reported. -/
def confirmers (s : Session) : List Actor :=
  s.calls.filterMap fun c => match c.2 with
    | .confirming .. => some (.call c.1)
    | _ => none

/-- The calls that wait for the job streamer to be idle. -/
def waiters (s : Session) : List Actor :=
  s.calls.filterMap fun c => match c.2 with
    | .awaitingIdle => some (.call c.1)
    | _ => none

/-! ## Events and states -/

/-- Publishes what happened on the link. -/
def publish (s : Session) (e : LinkEvent) : Session :=
  { s with link.events := s.link.events.publish e }.wakeAll s.confirmers

/-- Publishes what happened to a job. -/
def announce (s : Session) (e : JobEvent) : Session :=
  { s with streamer.events := s.streamer.events.publish e }

/-- The streaming task, if it is about to hand a line over or held. -/
def heldTask (s : Session) : List Actor :=
  match s.streamer.task with
  | some t => if t.stage = .ready then [.job t.job.number] else []
  | none => []

/-- The streaming task, unless it waits for its line to be written. -/
def watchingTask (s : Session) : List Actor :=
  match s.streamer.task with
  | some t => match t.stage with
    | .sending _ => []
    | _ => [.job t.job.number]
  | none => []

/-- Replaces the status of the machine. -/
def setStatus (s : Session) (status : MachineStatus) : Session :=
  { s with link.status := status }.wakeAll s.heldTask

/-- Changes the state of the job streamer, and announces it if it is another one. -/
def setState (s : Session) (state : JobState) : Session :=
  if s.streamer.state = state then s
  else { s with streamer.state := state }.announce (.state state) |>.wakeAll s.waiters

/-! ## Posts -/

/-- Changes the open connection. -/
def withConnection (s : Session) (c : Connection) : Session :=
  { s with link.connection := some c }

/-- Hands a payload over to the writer, and gives its ticket; a closed link takes none. -/
def post? (s : Session) (sender : Actor) (payload : Payload) : Option (Nat × Session) :=
  s.link.connection.map fun c =>
    let ticket := s.link.posts.length
    let queued := if payload.isLine then { c with lines := c.lines ++ [ticket] }
      else { c with realtime := c.realtime ++ [ticket] }
    let post : Post := ⟨c.number, sender, payload, none, none⟩
    (ticket, { s with
      link.posts := s.link.posts ++ [post]
      link.connection := some queued }.wakeAll
        (if c.writer = WriterStage.idle then [.writer] else []))

/-- The poller of the open connection with a number. -/
def poller? (s : Session) (number : Nat) : Option Poller :=
  s.link.connection.bind fun c => c.pollers.find? (·.number = number)

/-- The refresher with a number. -/
def refresher? (s : Session) (number : Nat) : Option Refresher :=
  s.refreshers.find? (·.number = number)

/-- The streaming task of the job with a number. -/
def task? (s : Session) (number : Nat) : Option StreamTask :=
  s.streamer.task.filter (·.job.number = number)

/-- Whether an actor waits to know what became of a post. -/
def awaitsDelivery (s : Session) (a : Actor) (ticket : Nat) : Bool :=
  match a with
  | .call i => match s.stage? i with
    | some (.sending t _) => t = ticket
    | _ => false
  | .job number => (s.task? number).any (·.stage = .sending ticket)
  | .poller number => (s.poller? number).any (·.sending = some ticket)
  | .refresher number => (s.refresher? number).any (·.sending = some ticket)
  | .writer | .reader => false

/-- Whether an actor waits for the answer to a line. -/
def awaitsAnswer (s : Session) (a : Actor) (ticket : Nat) : Bool :=
  match a with
  | .call i => s.stage? i = some (.awaitingAnswer ticket)
  | .job number => (s.task? number).any fun t => match t.stage with
    | .awaiting t _ => t = ticket
    | _ => false
  | _ => false

/-- Tells the sender of a post what became of it, if it waits for that. -/
def deliver (s : Session) (ticket : Nat) (d : Delivery) : Session :=
  match s.link.posts[ticket]? with
  | none => s
  | some p =>
    let told := { s with link.posts := s.link.posts.set ticket { p with delivery := some d } }
    if s.awaitsDelivery p.sender ticket then told.wake p.sender else told

/-- Tells the sender of a line the answer, if it waits for that. A sender that does not know yet
that its line was sent finds the answer later. -/
def answer (s : Session) (ticket : Nat) (a : Answer) : Session :=
  match s.link.posts[ticket]? with
  | none => s
  | some p =>
    let told := { s with link.posts := s.link.posts.set ticket { p with answer := some a } }
    if s.awaitsAnswer p.sender ticket then told.wake p.sender else told

/-- Counts a payload that was sent. -/
def countSent (s : Session) (ticket : Nat) : Session :=
  match s.link.payload? ticket with
  | some (.line text) => { s with
      link.stats.linesSent := s.link.stats.linesSent + 1
      link.stats.bytesSent := s.link.stats.bytesSent + (Payload.line text).size }
  | some (.realtime _) => { s with
      link.stats.realtimeSent := s.link.stats.realtimeSent + 1
      link.stats.bytesSent := s.link.stats.bytesSent + 1 }
  | none => s

/-- Gives up the answers to all lines that are still expected. -/
def dropAnswers (s : Session) : Session :=
  match s.link.connection with
  | none => s
  | some c => c.slots.foldl (fun s t => s.answer t .lost) (s.withConnection { c with slots := [] })

/-- **Ends the open connection.** Answers that are still expected and posts that are not written
yet are lost; the reader, the writer, the pollers and what was received end with the connection. -/
def endConnection (s : Session) : Session :=
  match s.link.connection with
  | none => s
  | some c =>
    let closed := { s with link.connection := none }
    let unanswered := c.slots.foldl (fun s t => s.answer t .lost) closed
    let told := (unanswered.setStatus .disconnected).publish .disconnected
    let gone := Actor.reader :: .writer :: c.pollers.map fun p => .poller p.number
    let left := gone.foldl forget told
    (c.writer.ticket?.toList ++ c.lines ++ c.realtime).foldl (fun s t => s.deliver t .lost) left

/-! ## Turns at the job streamer -/

/-- Ends the turn of the call that has it. -/
def endTurn (s : Session) : Session :=
  let next := s.streamer.turns.tail
  { s with streamer.turns := next }.wakeAll (next.head?.toList.map .call)

/-- Drops the job and returns to idle; another reason is announced first. -/
def conclude (s : Session) (reason : JobState) : Session :=
  let dropped := { s with streamer.job := none, streamer.progress := .none }
  (if reason = .idle then dropped else dropped.announce (.state reason)).setState .idle

end Session

end Cnc
