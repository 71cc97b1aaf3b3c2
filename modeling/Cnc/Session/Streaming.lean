import Cnc.Session.Basic

/-!
# The streaming task

The task of a job hands over the line at the cursor once the job is running,
waits until it is sent, and then for its answer. An answer moves the cursor,
also when it rejects the line. A line that cannot be written pauses the job
and is handed over again when the job is resumed; an answer that is late
pauses the job too, is reported once, and is still waited for.

The task ends when all lines are answered, and when the link closes or the
answer to its line is lost.
-/

namespace Cnc.Session

/-- Changes the streaming task. -/
def withTask (s : Session) (t : StreamTask) : Session := { s with streamer.task := some t }

/-- Ends the streaming task. -/
def dropTask (s : Session) : Session :=
  match s.streamer.task with
  | none => s
  | some t => { s with streamer.task := none }.forget (.job t.job.number)

/-- Ends a job whose lines are all answered. -/
def completeJob (s : Session) (t : StreamTask) : Session :=
  ((s.dropTask.announce (.completed t.job.lines.length)).conclude .idle)

/-- Ends a job that cannot go on. -/
def abortJob (s : Session) : Session := (s.dropTask.announce .aborted).conclude .idle

/-- Pauses the job and says why. -/
def failJob (s : Session) (reason : String) : Session :=
  (s.setState .paused).announce (.failed reason)

/-- Hands over the line at the cursor, unless the job is held. -/
def handOver (s : Session) (t : StreamTask) (line : String) : Session :=
  match s.streamer.state with
  | .running =>
    match s.post? (.job t.job.number) (.ofLine line) with
    | none => s.abortJob
    | some (ticket, s) => s.withTask { t with stage := .sending ticket }
  | .idle => s.dropTask
  | _ => if s.link.status.state = .disconnected then s.abortJob else s

/-- Takes the answer to the line at the cursor. -/
def advanceCursor (s : Session) (t : StreamTask) (a : Ack) : Session :=
  let noted := match a with
    | .ok => s
    | .error code => s.announce (.lineError t.cursor code)
  let progress : JobProgress := ⟨t.cursor + 1, t.job.lines.length⟩
  ({ noted with streamer.progress := progress }.announce (.progress progress)).withTask
    { t with cursor := t.cursor + 1, stage := .ready }

/-- The turn of the streaming task. -/
def taskTurn (s : Session) (t : StreamTask) : Session :=
  let self := Actor.job t.job.number
  match t.stage with
  | .ready =>
    match t.job.lines[t.cursor]? with
    | none => s.completeJob t
    | some line => s.handOver t line
  | .sending ticket =>
    match s.link.delivery? ticket with
    | none => s
    | some .sent =>
      s.use self .stats (·.countSent ticket) fun s =>
        (s.withTask
          { t with stage := .awaiting ticket (s.streamer.timeout.map (s.now + ·)) }).again self
    | some .lost => s.abortJob
    | some (.failed fault) =>
      let reason := (LinkError.transfer fault.reason).message
      ((s.withTask { t with stage := .ready }).failJob s!"line {t.cursor + 1}: {reason}").again self
  | .awaiting ticket deadline =>
    match s.link.answer? ticket with
    | some (.ack a) => (s.advanceCursor t a).again self
    | some .lost => s.abortJob
    | none =>
      if s.streamer.state = .idle then s.dropTask
      else if deadline.any (· ≤ s.now) then
        (s.withTask { t with stage := .awaiting ticket none }).failJob
          s!"no acknowledgment for line {t.cursor + 1}"
      else s

/-- The turn of the task that streams the job with a number; a task that is gone does nothing. -/
def jobTurn (s : Session) (number : Nat) : Session :=
  match s.task? number with
  | some t => s.taskTurn t
  | none => s

end Cnc.Session
