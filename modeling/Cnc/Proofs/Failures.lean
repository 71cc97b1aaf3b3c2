import Cnc.Proofs.Awaited

/-!
# Failures that are told

A job streamer tells a failure when a line could not be written and when an
answer is late, and in no other case: the calls of a host tell none, and a
task only while it waits for its line. `Session.Minds` says for each turn of
the task what it tells and how it goes on, with the time at which an answer
counts as late. That time is set once, in the turn in which the task learns
that its line was sent, and is taken away in the turn in which the failure is
told (`Session.taskTurn_minds`).
-/

namespace Cnc

/-- Why a job was paused, if an event tells that. -/
def JobEvent.failure? : JobEvent → Option String
  | .failed reason => some reason
  | _ => none

/-- What is told when the answer to the line at a place is late. -/
def noAnswer (place : Nat) : String := s!"no acknowledgment for line {place + 1}"

namespace Session

variable {s t : Session} {e : Event} {k : StreamTask}

/-- **The failures told so far**, in order. -/
def failures (s : Session) : List String := s.streamer.events.log.filterMap JobEvent.failure?

/-- The line that the streaming task waits for. -/
def awaited? (s : Session) : Option Nat := s.streamer.task.bind (·.stage.ticket?)

/-! ## What tells no failure -/

/-- The failures that an event tells. -/
def failuresTold (s : Session) (e : Event) : List String :=
  (s.next e).failures.drop s.failures.length

/-- **The failures told for the line `x` in a run**: those told while the task waits for it. -/
def failuresOf (s : Session) (es : List Event) (x : Nat) : List String :=
  (s.history es).flatMap fun h => if h.1.awaited? = some x then h.1.failuresTold h.2 else []

theorem failuresOf_concat (s : Session) (es : List Event) (e : Event) (x : Nat) :
    s.failuresOf (es ++ [e]) x = s.failuresOf es x ++
      if (s.after es).awaited? = some x then (s.after es).failuresTold e else [] := by
  rw [failuresOf, history_concat, List.flatMap_append, List.flatMap_singleton, failuresOf]

theorem failuresTold_eq_singleton {reason : String}
    (told : (s.next e).failures = s.failures ++ [reason]) : s.failuresTold e = [reason] := by
  rw [failuresTold, told, List.drop_left]

end Session

end Cnc
