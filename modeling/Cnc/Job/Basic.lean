import Cnc.Event.Bus
import Cnc.Gcode.Program
import Cnc.Link.Error

/-!
# Streaming a job

A job is the list of command lines of a program. Its lines are handed to the
link one at a time: the next one only after the one before was answered. The
cursor counts the answered lines.

The state that callers see, the job, and the task that streams it are kept
apart, because different actors change them: callers start, pause, resume and
stop, and the task reports progress and ends by itself.
-/

namespace Cnc

/-- What a job streamer does. -/
inductive JobState where
  | idle | running | paused
  /-- Only announced: a job was stopped, and the streamer is idle right after. -/
  | stopped
deriving DecidableEq, Repr

/-- How many lines of a job have been answered. -/
structure JobProgress where
  cursor : Nat
  total : Nat
deriving DecidableEq, Repr

namespace JobProgress

/-- The progress while there is no job. -/
def none : JobProgress := ⟨0, 0⟩

/-- The answered part of the job; zero if there are no lines. -/
def fraction (p : JobProgress) : Float :=
  if p.total = 0 then 0.0 else Float.ofNat p.cursor / Float.ofNat p.total

end JobProgress

/-- What happens to jobs. -/
inductive JobEvent where
  | started (total : Nat)
  | state (state : JobState)
  | progress (progress : JobProgress)
  /-- The controller rejected the line with this index, from zero. -/
  | lineError (line : Nat) (code : UInt16)
  /-- A line could not be written, or its answer is late; the job is paused. -/
  | failed (reason : String)
  | completed (total : Nat)
  /-- The link closed or the controller was reset. -/
  | aborted
deriving DecidableEq, Repr

/-- Why a call to the job streamer fails. -/
inductive JobError where
  | alreadyRunning
  | notRunning
  | notPaused
  /-- The program has no command line. -/
  | empty
  | link (error : LinkError)
deriving DecidableEq, Repr

/-- The wording of an error. -/
def JobError.message : JobError → String
  | alreadyRunning => "a job is already active"
  | notRunning => "no job is running"
  | notPaused => "job is not paused"
  | empty => "program contains no commands"
  | link error => error.message

/-- A job that is being streamed. -/
structure Job where
  /-- Jobs are numbered from zero. -/
  number : Nat
  lines : List String
deriving DecidableEq, Repr

/-- What a streaming task waits for. -/
inductive StreamStage where
  /-- It is about to hand over the line at the cursor, or is held. -/
  | ready
  /-- The line at the cursor is on its way. -/
  | sending (ticket : Nat)
  /-- The line at the cursor is sent and its answer is expected, with the time at which the answer
  counts as late. -/
  | awaiting (ticket : Nat) (deadline : Option Nat)
deriving DecidableEq, Repr

/-- The task that streams a job. -/
structure StreamTask where
  job : Job
  /-- How many lines have been answered. -/
  cursor : Nat
  stage : StreamStage
deriving DecidableEq, Repr

/-- The job streamer. -/
structure Streamer where
  /-- How long an answer may take, in milliseconds, if that is limited. -/
  timeout : Option Nat
  state : JobState
  progress : JobProgress
  job : Option Job
  task : Option StreamTask
  /-- The calls that start, pause, resume or stop, in the order they came; the first has its
  turn. -/
  turns : List Nat
  /-- How many jobs have been started. -/
  started : Nat
  events : EventBus JobEvent
deriving DecidableEq, Repr

/-- A job streamer that has done nothing. -/
def Streamer.initial (timeout : Option Nat) : Streamer where
  timeout := timeout
  state := .idle
  progress := .none
  job := none
  task := none
  turns := []
  started := 0
  events := .standard

/-- The lines of the job that a program makes. -/
def Job.linesOf (program : String) : List String :=
  (Gcode.programLines program.toList).map String.ofList

end Cnc
