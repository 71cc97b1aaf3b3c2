import Cnc.Proofs.Event
import Cnc.Proofs.Jobs
import Cnc.Proofs.Lifecycle
import Cnc.Proofs.Outlook

/-!
# Going on at once

The streaming task that receives the answer to the last line of its job goes
on at once and says that the job is complete; it waits for nothing in
between. Here these are two turns, and a run could have others act between
them. A run in which nobody does is `Prompt`.

In the order in which a session lets its actors act, an actor that goes on at
once has the next turn, and the task does (`Session.act_urgent`).
-/

namespace Cnc

/-- The actor that has a turn in an event. -/
def Event.actor? : Event → Option Actor
  | .act a => some a
  | _ => none

namespace StreamerCore

/-- **The task fits its job**: it counts no more answers than there are lines, and what it has sent
or is sending is a line. -/
def Sized (m : StreamerCore) : Prop :=
  ∀ k, m.task = some k → k.cursor ≤ k.job.lines.length ∧
    (k.stage ≠ .ready → k.cursor < k.job.lines.length)

/-- The task whose lines are all answered, and which is about to say so. -/
def concluding? (m : StreamerCore) : Option StreamTask :=
  m.task.filter fun k => k.stage = .ready ∧ k.job.lines.length ≤ k.cursor

variable {m : StreamerCore} {k : StreamTask}

theorem concluding?_eq_some : m.concluding? = some k ↔
    m.task = some k ∧ k.stage = .ready ∧ k.job.lines.length ≤ k.cursor := by
  simp [concluding?, Option.filter_eq_some_iff]

/-- A task that is not about to conclude has lines left. -/
theorem Sized.lt_of_not_concluding (sized : m.Sized) (task : m.task = some k)
    (open_ : m.concluding? = none) : k.cursor < k.job.lines.length := by
  by_cases ready : k.stage = .ready
  · by_contra done
    have concluding := concluding?_eq_some.mpr ⟨task, ready, Nat.le_of_not_lt done⟩
    exact absurd (open_.symm.trans concluding) (by simp)
  · exact (sized k task).2 ready

end StreamerCore

namespace Session

open StreamerCore

variable {s t : Session}

/-! ## The task fits its job -/

/-- **The turn of a host call ends the task, leaves it alone, or begins one** with a line to hand
over. -/
theorem Controls.task {i : Nat} {st : Option CallStage} {m : StreamerCore}
    (controls : s.Controls i st m) :
    m.task = none ∨ m.task = s.streamer.core.task ∨
      ∃ j : Job, j.lines ≠ [] ∧ m.task = some ⟨j, 0, .ready⟩ := by
  cases controls with
  | wait | aside | count | queue => exact .inr (.inl rfl)
  | steer turn steers =>
    cases steers with
    | start idle lines => exact .inr (.inr ⟨_, lines, rfl⟩)
    | refuse | pause | pauseClosed | resume => exact .inr (.inl rfl)
    | stop | stopClosed => exact .inl rfl
  | finish stage errand control finishes => cases finishes <;> exact .inr (.inl rfl)

theorem Streams.sized {k : StreamTask} {u : Traffic} {m : StreamerCore} (streams : s.Streams k u m)
    (task : s.streamer.core.task = some k) (sized : s.streamer.core.Sized) : m.Sized := by
  have bound := (sized k task).1
  have sent (notReady : k.stage ≠ .ready) : k.cursor < k.job.lines.length :=
    (sized k task).2 notReady
  -- the task goes on with a line that is there
  have goesOn {k' k'' : StreamTask} (same : some k' = some k'')
      (fits : k'.cursor ≤ k'.job.lines.length ∧
        (k'.stage ≠ .ready → k'.cursor < k'.job.lines.length)) :
      k''.cursor ≤ k''.job.lines.length ∧
        (k''.stage ≠ .ready → k''.cursor < k''.job.lines.length) :=
    Option.some.inj same ▸ fits
  cases streams with
  | wait => exact sized
  | hand _ _ next =>
    exact fun k' same => goesOn same ⟨bound, fun _ => (List.getElem?_eq_some_iff.mp next).1⟩
  | conclude | vanish => exact fun k' same => absurd same (by simp)
  | sent _ stage => exact fun k' same => goesOn same ⟨bound, fun _ => sent (by simp [stage])⟩
  | retry stage => exact fun k' same => goesOn same ⟨bound, fun notReady => absurd rfl notReady⟩
  | advance stage =>
    exact fun k' same => goesOn same ⟨sent (by simp [stage]), fun notReady => absurd rfl notReady⟩
  | late _ stage => exact fun k' same => goesOn same ⟨bound, fun _ => sent (by simp [stage])⟩

theorem next_sized (sized : s.streamer.core.Sized) (e : Event) :
    (s.next e).streamer.core.Sized := by
  have steps := next_steps s e
  generalize s.next e = t at steps
  cases steps with
  | call handles =>
    intro k task
    rcases handles.1.task with none | before | ⟨j, -, begun⟩
    · exact absurd (none.symm.trans task) (by simp)
    · exact sized k (before.symm.trans task)
    · obtain rfl := Option.some.inj (begun.symm.trans task)
      exact ⟨Nat.zero_le _, fun notReady => absurd rfl notReady⟩
  | stream task streams => exact streams.sized task sized
  | gone => exact sized
  | begin _ _ _ _ core | aside _ _ core => exact core ▸ sized

/-! ## Prompt runs -/

/-- **Nobody else has a turn** while the streaming task is about to say that its job is complete. -/
def Prompt (s : Session) (es : List Event) : Prop :=
  ∀ h ∈ s.history es, ∀ k ∈ h.1.streamer.core.concluding?, ∀ a ∈ h.2.actor?,
    a = .job k.job.number

instance (s : Session) (es : List Event) : Decidable (s.Prompt es) :=
  inferInstanceAs (Decidable (∀ h ∈ s.history es, ∀ k ∈ h.1.streamer.core.concluding?,
    ∀ a ∈ h.2.actor?, a = .job k.job.number))

@[simp] theorem prompt_nil (s : Session) : s.Prompt [] := by simp [Prompt]

theorem prompt_append {es fs : List Event} :
    s.Prompt (es ++ fs) ↔ s.Prompt es ∧ (s.after es).Prompt fs := by
  simp only [Prompt, history_append, List.mem_append, or_imp, forall_and]

theorem prompt_concat {es : List Event} {e : Event} :
    s.Prompt (es ++ [e]) ↔ s.Prompt es ∧ ∀ k ∈ (s.after es).streamer.core.concluding?,
      ∀ a ∈ e.actor?, a = .job k.job.number := by
  rw [prompt_append]
  simp [Prompt, history]

/-- What is no turn comes at no wrong time. -/
theorem prompt_of_aside {e : Event} (aside : e.actor? = none) : s.Prompt [e] := by
  simp [Prompt, history, aside]

/-- The task that is about to conclude may have its turn. -/
theorem prompt_of_own {a : Actor}
    (own : ∀ k ∈ s.streamer.core.concluding?, a = .job k.job.number) : s.Prompt [.act a] := by
  simpa [Prompt, history, Event.actor?] using own

/-- **The turn of a task whose lines are all answered** ends the job. -/
theorem next_concluding {k : StreamTask} (concluding : s.streamer.core.concluding? = some k) :
    s.next (.act (.job k.job.number)) = s.completeJob k := by
  obtain ⟨task, ready, done⟩ := concluding?_eq_some.mp concluding
  have own : s.task? k.job.number = some k := task?_number task
  have last : k.job.lines[k.cursor]? = none := List.getElem?_eq_none_iff.mpr done
  show s.jobTurn k.job.number = _
  simp only [jobTurn, own, taskTurn, ready, last]

theorem completeJob_task (s : Session) (k : StreamTask) :
    (s.completeJob k).streamer.core.task = none := by
  simp [completeJob, announce, Streamer.core]

/-! ## The order of a session -/

/-- **The task that is about to conclude goes on at once.** -/
def Urgent (s : Session) : Prop :=
  ∀ k ∈ s.streamer.core.concluding?, s.acting = some (.job k.job.number)

theorem Urgent.of_same (urgent : s.Urgent) (core : t.streamer.core = s.streamer.core)
    (acting : t.acting = s.acting) : t.Urgent := by
  unfold Urgent
  rw [core, acting]
  exact urgent

/-- A task that gets the answer to its line goes on at once. -/
theorem acting_of_answered {k : StreamTask} {x : Nat} {deadline : Option Nat} {a : Ack}
    (task : s.streamer.task = some k) (stage : k.stage = .awaiting x deadline)
    (answered : s.link.answer? x = some (.ack a)) :
    (s.next (.act (.job k.job.number))).acting = some (.job k.job.number) := by
  show (s.jobTurn k.job.number).acting = _
  simp only [jobTurn, task?_number task, taskTurn, stage, answered]
  rfl

/-- **A turn that brings the task there leaves it to go on.** -/
theorem act_urgent (sized : s.streamer.core.Sized) {a : Actor}
    (own : ∀ k ∈ s.streamer.core.concluding?, a = .job k.job.number) : (s.act a).Urgent := by
  show (s.next (.act a)).Urgent
  have steps := next_steps s (.act a)
  -- a task that is about to conclude now has just got its last answer
  have unchanged (same : (s.next (.act a)).streamer.core = s.streamer.core) :
      (s.next (.act a)).Urgent := by
    intro k concluding
    rw [same] at concluding
    obtain rfl := own k concluding
    rw [next_concluding concluding] at same
    have gone := completeJob_task s k
    rw [same, (concluding?_eq_some.mp concluding).1] at gone
    exact absurd gone (by simp)
  intro k concluding
  generalize arrived : s.next (.act a) = t at steps concluding unchanged
  obtain ⟨task, ready, done⟩ := concluding?_eq_some.mp concluding
  cases steps with
  | call handles =>
    rcases handles.1.task with none | before | ⟨j, lines, begun⟩
    · exact absurd (none.symm.trans task) (by simp)
    · have early := concluding?_eq_some.mpr ⟨before.symm.trans task, ready, done⟩
      exact absurd (own k early) (by simp)
    · obtain rfl := Option.some.inj (begun.symm.trans task)
      exact absurd (List.length_eq_zero_iff.mp (Nat.le_zero.mp done)) lines
  | @stream k' _ task' streams =>
    have lines : k'.stage ≠ .ready → k'.cursor < k'.job.lines.length := (sized k' task').2
    generalize core : t.streamer.core = m at streams task
    generalize t.link.traffic = u at streams
    cases streams with
    | wait => exact unchanged core k concluding
    | hand | sent | late =>
      obtain rfl := Option.some.inj task
      exact absurd ready (by simp)
    | conclude | vanish => exact absurd task (by simp)
    | retry stage =>
      obtain rfl := Option.some.inj task
      exact absurd (lines (by simp [stage])) (Nat.not_lt_of_le done)
    | advance stage answered =>
      obtain rfl := Option.some.inj task
      exact arrived ▸ acting_of_answered task' stage answered
  | gone none => exact unchanged rfl k concluding
  | aside _ _ core => exact unchanged core k concluding

end Session

end Cnc
