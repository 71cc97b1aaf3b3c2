import Cnc.Proofs.Reachable
import Cnc.Proofs.Resets

/-!
# What a soft reset does to a job

A soft reset tells the streaming task nothing. The task learns of it only if
the answer that it waits for is given up: then its line was sent, its answer
is lost, and a job in that state is spent (`Session.Spent`): it hands no line
over any more, and by the time when everybody waits it has ended
(`Session.ended_of_reset`). The same holds for a job that is being stopped,
which has no task any more.

A job that is held waits for no answer, so a reset that another caller sends
passes it by (`Session.ended_of_reset_heldReset`).
-/

namespace Cnc.Session

open Traffic

variable {s t : Session} {e : Event} {n : Nat} {j : Job}

/-! ## A job that hands nothing over any more -/

/-- **A job is spent**: a later job is streamed, or none, or the task waits for a line that was sent
and whose answer is lost. -/
structure Spent (s : Session) (n : Nat) : Prop where
  started : n < s.streamer.core.started
  task : ∀ k, s.streamer.core.task = some k → n < k.job.number ∨
    k.job.number = n ∧ ∃ x, k.stage.ticket? = some x ∧ s.link.delivery? x = some .sent ∧
      s.link.answer? x = some .lost

/-- A spent job stays so if its task goes on waiting, or ends. -/
theorem Spent.onward (spent : s.Spent n) (reachable : s.Reachable) (e : Event)
    (started : (s.next e).streamer.core.started = s.streamer.core.started)
    (task : ∀ k', (s.next e).streamer.core.task = some k' → ∃ k, s.streamer.core.task = some k ∧
      k'.job = k.job ∧ (n < k.job.number ∨ k'.stage.ticket? = k.stage.ticket?)) :
    (s.next e).Spent n := by
  have told := (onward_next reachable.filed e).2.told
  have kept := (slotted_after reachable.filed reachable.slotted [e]).2
  refine ⟨started ▸ spent.started, fun k' own => ?_⟩
  obtain ⟨k, before, job, later | ticket⟩ := task k' own
  · exact .inl (job ▸ later)
  · rw [job, ticket]
    refine (spent.task k before).imp_right fun ⟨number, x, waits, sent, lost⟩ => ?_
    exact ⟨number, x, waits, told x .sent sent, kept x .lost lost⟩

theorem Spent.next (spent : s.Spent n) (reachable : s.Reachable) (e : Event) :
    (s.next e).Spent n := by
  have onward := spent.onward reachable e
  have same (started : (s.next e).streamer.core.started = s.streamer.core.started)
      (task : (s.next e).streamer.core.task = none ∨
        (s.next e).streamer.core.task = s.streamer.core.task) : (s.next e).Spent n := by
    refine onward started fun k' own => ?_
    rcases task with none | same
    · exact absurd (none.symm.trans own) (by simp)
    · exact ⟨k', same ▸ own, rfl, .inr rfl⟩
  have steps := next_steps s e
  generalize next : s.next e = t at steps onward same ⊢
  cases steps with
  | call handles =>
    rcases handles.1.jobs with ⟨program, turns, -, -, core⟩ | ⟨started, task, -⟩
    · refine ⟨?_, fun k own => ?_⟩
      · rw [core]
        exact Nat.lt_succ_of_lt spent.started
      · rw [core] at own
        obtain rfl := Option.some.inj own
        exact .inl spent.started
    · exact same started task
  | gone => exact spent
  | begin _ _ _ _ core | aside _ _ core => exact same (by rw [core]) (.inr (by rw [core]))
  | @stream k _ task streams =>
    have own : s.streamer.core.task = some k := task
    obtain ⟨started, job⟩ := streams.job task
    refine onward started fun k' own' => ⟨k, own, job k' own', ?_⟩
    refine (spent.task k own).imp_right fun ⟨_, x, waits, sent, lost⟩ => ?_
    generalize t.streamer.core = m at streams own'
    generalize t.link.traffic = u at streams
    cases streams with
    | wait => rw [Option.some.inj (own.symm.trans own')]
    | conclude | vanish => exact absurd own' (by simp)
    | sent _ stage | late _ stage =>
      obtain rfl := Option.some.inj own'
      rw [stage]
      rfl
    -- the line was sent, and its answer is lost
    | hand _ ready =>
      rw [ready] at waits
      exact absurd waits (by simp [StreamStage.ticket?])
    | retry stage failed =>
      rw [stage] at waits
      obtain rfl := Option.some.inj waits
      exact absurd (failed.symm.trans sent) (by simp)
    | advance stage answered =>
      rw [stage] at waits
      obtain rfl := Option.some.inj waits
      exact absurd (answered.symm.trans lost) (by simp)

theorem Spent.after (spent : s.Spent n) (reachable : s.Reachable) (es : List Event) :
    (s.after es).Spent n := by
  induction es using List.reverseRecOn with
  | nil => exact spent
  | append_singleton es e ih =>
    rw [after_append, after_cons, after_nil]
    exact ih.next (reachable.after es) e

/-- **A spent job hands no line over any more.** -/
theorem Spent.silent (spent : s.Spent n) (reachable : s.Reachable) (es : List Event) {x : Nat}
    (sender : (s.after es).link.traffic.sender? x = some (.job n)) : x < s.link.posts.length := by
  induction es generalizing s with
  | nil => exact known_of_sender? sender
  | cons e es ih =>
    have there := reachable.next e
    have known : x < (s.next e).link.traffic.posts.length :=
      ih (spent.next reachable e) there sender
    by_contra new
    rw [after_cons, sender?_of_kept (onward_after there.filed es).2.origins known] at sender
    obtain ⟨k, -, task, rfl, ready, -⟩ := hands_of_new (Nat.le_of_not_lt new) sender
    rcases spent.task k task with later | ⟨-, y, waits, -⟩
    · exact Nat.lt_irrefl _ later
    · rw [ready] at waits
      exact absurd waits (by simp [StreamStage.ticket?])

/-- **When everybody waits, a spent job has ended**, unless a call that stops it is held up by the
device. -/
theorem Spent.ended (spent : s.Spent j.number) (reachable : s.Reachable) (waits : ∀ a, s.Waits a)
    (free : ∀ c, s.link.connection = some c → c.stalled = false) : s.streamer.job ≠ some j := by
  intro job
  rcases reachable.kempt.task j job with ⟨k, task, own⟩ | stopping
  · have idle := waits (.job k.job.number)
    simp only [Waits, task?_number task] at idle
    rcases spent.task k task with later | ⟨-, x, waits, sent, lost⟩
    · exact absurd later (by simp [own])
    · cases stage : k.stage with
      | ready => simp [stage, StreamStage.ticket?] at waits
      | sending y =>
        rw [stage] at waits idle
        obtain rfl := Option.some.inj waits
        exact absurd (idle.symm.trans sent) (by simp)
      | awaiting y deadline =>
        rw [stage] at waits idle
        obtain rfl := Option.some.inj waits
        exact absurd (idle.1.symm.trans lost) (by simp)
  · obtain ⟨c, here, stalled⟩ :=
      stalled_of_stopping waits reachable.filed reachable.carrying stopping
    exact absurd (free c here) (by simp [stalled])

/-! ## How a spent job ends -/

/-- **How a job of a session `s` ends** that has become spent, when `fs` happens: its task aborts
it, if there is one, or a call stops it. -/
def EndsSpent (s : Session) (fs : List Event) : JobEvent → Prop
  | .aborted => s.streamer.task ≠ none
  | .state .stopped => ∃ gs, gs <+: fs ∧ (s.after gs).StopPending
  | _ => False

/-- **What has become of the job `j`** of a session `s` after `fs`. -/
inductive Passing (s : Session) (j : Job) (fs : List Event) : Prop
  | goesOn (job : (s.after fs).streamer.job = some j)
      (untold : endings (s.after fs).streamer.events.log = [])
      (task : (s.after fs).streamer.core.task ≠ none → s.streamer.core.task ≠ none)
  /-- At some moment it was dropped, and its end told once. -/
  | ended (gone : ∀ j', (s.after fs).streamer.job = some j' → j.number < j'.number)
      (gs : List Event) (earlier : gs <+: fs) (dropped : (s.after gs).streamer.job = none)
      (d : JobEvent) (told : endings (s.after gs).streamer.events.log = [d])
      (reason : s.EndsSpent fs d)

theorem EndsSpent.mono {fs gs : List Event} {d : JobEvent} (h : s.EndsSpent fs d)
    (longer : fs <+: gs) : s.EndsSpent gs d := by
  cases d with
  | state state =>
    cases state with
    | stopped =>
      obtain ⟨hs, some, pending⟩ := h
      exact ⟨hs, some.trans longer, pending⟩
    | _ => exact h
  | _ => exact h

/-- **What happens next to a spent job**: it goes on, or it ends once and for all. -/
theorem Passing.next {fs : List Event} (passing : s.Passing j fs)
    (spent : (s.after fs).Spent j.number) (reachable : (s.after fs).Reachable) (e : Event) :
    s.Passing j (fs ++ [e]) := by
  have governed := reachable.governed
  obtain ⟨told, log, tells, permits⟩ := next_announces (s.after fs) e
  have reached : s.after (fs ++ [e]) = (s.after fs).next e := by
    rw [after_append, after_cons, after_nil]
  cases passing with
  | goesOn job untold task =>
    cases tells.tolls with
    | none same _ remains quiet =>
      refine .goesOn (by rw [reached]; exact same.trans job) ?_ ?_
      · rw [reached, log, endings_append, quiet, untold]
      · rw [reached]
        exact task ∘ remains
    | start begins =>
      exact absurd ((reachable.kempt.idle begins.idle).symm.trans job) (by simp)
    | one d ends announced cause one =>
      refine .ended (fun j' job' => ?_) (fs ++ [e]) List.prefix_rfl ?_ d ?_ ?_
      · rw [reached] at job'
        exact absurd (ends.job.symm.trans job') (by simp)
      · rw [reached]
        exact ends.job
      · rw [reached, log, endings_append, one, untold]
        rfl
      · rcases cause with ⟨k, own, rfl | ⟨rfl, ready, -⟩⟩ | rfl
        · exact task (by simp [own])
        · have same : k.job = j := Option.some.inj ((governed.task k own).symm.trans job)
          rcases spent.task k own with later | ⟨-, x, waits, -⟩
          · exact absurd later (by simp [same])
          · exact absurd waits (by simp [ready, StreamStage.ticket?])
        · obtain ⟨i, st, -, stage, stops, -⟩ := permits _ announced
          exact ⟨fs, List.prefix_append _ _, i, st, stage, stops⟩
  | ended gone gs earlier dropped d told' reason =>
    refine .ended (fun j' job' => ?_) gs (earlier.trans (List.prefix_append _ _)) dropped d told'
      (reason.mono (List.prefix_append _ _))
    rw [reached] at job'
    cases tells.tolls with
    | none same => exact gone j' (same.symm.trans job')
    | start begins =>
      obtain rfl := Option.some.inj (begins.job.symm.trans job')
      exact spent.started
    | one _ ends => exact absurd (ends.job.symm.trans job') (by simp)

/-- **What has become of a spent job** after any run. -/
theorem Spent.passing (spent : s.Spent j.number) (reachable : s.Reachable)
    (job : s.streamer.job = some j) (fs : List Event) : s.Passing j fs := by
  induction fs using List.reverseRecOn with
  | nil => exact .goesOn job (reachable.untold job) id
  | append_singleton fs e ih =>
    exact ih.next (spent.after reachable fs) (reachable.after fs) e

/-! ## The reset -/

/-- Giving up the answers does nothing to the job streamer. -/
theorem Clears.streamer {i r : Nat} {f : Errand} (clears : s.Clears i r f) :
    (s.next (.act (.call i))).streamer = s.streamer := by
  have turn : s.next (.act (.call i)) = s.countErrand i r f := by
    show s.callTurn i = _
    simp [callTurn, clears.stage, clears.sent, Delivery.error?]
  rw [turn, countErrand]
  dsimp only
  rw [if_pos clears.reset]
  refine use_keeps (·.streamer) (fun h => h.2.2.1) (fun u => ?_) fun u => rfl
  exact congrArg Controlled.streamer (dropAnswers_controlled u)

/-- **A job is spent once the answer to its line is given up.** -/
theorem Clears.spent {i r : Nat} {f : Errand} (clears : s.Clears i r f) (reachable : s.Reachable)
    (job : s.streamer.job = some j)
    (waiting : ∀ k, s.streamer.task = some k → ∃ x, k.stage.ticket? = some x ∧
      s.link.delivery? x = some .sent ∧ s.link.answer? x = none) :
    (s.next (.act (.call i))).Spent j.number := by
  have last : j.number + 1 = s.streamer.core.started := reachable.governed.job j job
  refine ⟨by rw [clears.streamer]; omega, fun k task => .inr ?_⟩
  rw [clears.streamer] at task
  have own : k.job = j := Option.some.inj ((reachable.governed.task k task).symm.trans job)
  obtain ⟨x, ticket, sent, unanswered⟩ := waiting k task
  have slot := reachable.slot_of_unanswered task ticket sent unanswered
  refine ⟨by rw [own], x, ticket, (onward_next reachable.filed _).2.told x .sent sent, ?_⟩
  exact ((clears.answer? reachable.filed reachable.slotted).2 x).trans (if_pos slot)

/-- **A soft reset ends the job** if the task waits for the answer to a line that was sent when the
answers are given up, or if the job is being stopped and there is no task. No line of the job is
handed over any more, whatever happens, and when everybody waits the job has ended, unless another
call that stops it is held up by the device. A job whose own stop resets the controller is
stopped. -/
theorem ended_of_reset (timeout : Option Nat) (es fs : List Event) {i r : Nat} {f : Errand}
    {j : Job} (clears : ((initial timeout).after es).Clears i r f)
    (job : ((initial timeout).after es).streamer.job = some j)
    (waiting : ∀ k, ((initial timeout).after es).streamer.task = some k →
      ∃ x, k.stage.ticket? = some x ∧
        ((initial timeout).after es).link.delivery? x = some .sent ∧
        ((initial timeout).after es).link.answer? x = none) :
    let s := ((initial timeout).after es).next (.act (.call i))
    let t := s.after fs
    (∀ x, t.link.traffic.sender? x = some (.job j.number) → x < s.link.posts.length) ∧
      (t.Quiescent → (∀ c, t.link.connection = some c → c.stalled = false) →
        (∀ j', t.streamer.job = some j' → j.number < j'.number) ∧
        ∃ gs, gs <+: fs ∧ (s.after gs).streamer.job = none ∧
          ∃ d, endings (s.after gs).streamer.events.log = [d] ∧ s.EndsSpent fs d ∧
            (f = .stop → d = .state .stopped)) := by
  intro s t
  have before := Reachable.of_run timeout es
  have there : s.Reachable := before.next _
  have spent : s.Spent j.number := clears.spent before job waiting
  refine ⟨fun x => spent.silent there fs, fun quiescent free => ?_⟩
  have waits := (there.after fs).quiescent_iff.mp quiescent
  cases spent.passing there (clears.streamer ▸ job) fs with
  | goesOn job' =>
    exact absurd job' ((spent.after there fs).ended (there.after fs) waits free)
  | ended gone gs earlier dropped d told reason =>
    refine ⟨gone, gs, earlier, dropped, d, told, reason, fun stop => ?_⟩
    -- a job that is being stopped has no task that could abort it
    have noTask : s.streamer.task = none := by
      rw [show s.streamer = _ from clears.streamer]
      exact before.governed.stopped i _ clears.stage (by rw [stop]; rfl)
    cases d with
    | aborted => exact absurd noTask reason
    | state state =>
      cases state with
      | stopped => rfl
      | _ => exact reason.elim
    | _ => exact reason.elim

/-- The first of two lines is on the wire when the controller is reset. -/
def jobReset : List Event :=
  Event.swift 0 (.connect "/dev/mock0" none) ++
    Event.swift 1 (.control (.start "G1 X10\nG1 X20")) ++
    .act (.job 0) :: List.replicate 3 (.act .writer) ++ .act (.job 0) ::
    Event.swift 2 (.realtime .softReset) ++ List.replicate 2 (.act .writer)

/-- A job that waits for an answer when the controller is reset has ended when everybody waits. -/
theorem ended_of_reset_jobReset :
    let s := ((initial none).after jobReset).next (.act (.call 2))
    let t := s.after [.act (.job 0), .act (.call 2)]
    ((initial none).after jobReset).Clears 2 1 (.realtime .softReset) ∧
      (∀ fs x, (s.after fs).link.traffic.sender? x = some (.job 0) → x < s.link.posts.length) ∧
      (∀ j', t.streamer.job = some j' → 0 < j'.number) ∧
      ∃ gs, gs <+: [.act (.job 0), .act (.call 2)] ∧ (s.after gs).streamer.job = none ∧
        ∃ d, endings (s.after gs).streamer.events.log = [d] ∧
          s.EndsSpent [.act (.job 0), .act (.call 2)] d := by
  intro s t
  have clears : ((initial none).after jobReset).Clears 2 1 (.realtime .softReset) :=
    { stage := by decide +kernel
      reset := rfl
      sent := by decide +kernel
      isOpen := by decide +kernel
      done := by decide +kernel }
  have job : ((initial none).after jobReset).streamer.job
      = some ⟨0, ["G1 X10", "G1 X20"]⟩ := by decide +kernel
  have waiting : ∀ k, ((initial none).after jobReset).streamer.task = some k →
      ∃ x, k.stage.ticket? = some x ∧
        ((initial none).after jobReset).link.delivery? x = some .sent ∧
        ((initial none).after jobReset).link.answer? x = none := by
    intro k task
    have own : ((initial none).after jobReset).streamer.task
        = some ⟨⟨0, ["G1 X10", "G1 X20"]⟩, 0, .awaiting 0 none⟩ := by decide +kernel
    obtain rfl := Option.some.inj (own.symm.trans task)
    exact ⟨0, rfl, by decide +kernel, by decide +kernel⟩
  have rest : (t.calls, t.streamer.task, t.refreshers, t.linkIdle) = ([], none, [], true) := by
    decide +kernel
  simp only [Prod.mk.injEq] at rest
  have reached : t = (initial none).after
      (jobReset ++ [.act (.call 2), .act (.job 0), .act (.call 2)]) := by simp [t, s]
  have quiescent : t.Quiescent :=
    quiescent_of_done (reached ▸ locked_after none _) rest.1 (waits_of_no_task rest.2.1)
      rest.2.2.1 rest.2.2.2
  refine ⟨clears, fun fs => (ended_of_reset none jobReset fs clears job waiting).1, ?_⟩
  obtain ⟨gone, gs, earlier, dropped, d, told, reason, -⟩ :=
    (ended_of_reset none jobReset _ clears job waiting).2 quiescent
      fun c here => (linkIdle_cases rest.2.2.2 here).2.2.2.2.2.2
  exact ⟨gone, gs, earlier, dropped, d, told, reason⟩

/-- The first of two lines is answered while the job is paused, and then the controller is reset. -/
def heldReset : List Event :=
  Event.swift 0 (.connect "/dev/mock0" none) ++
    Event.swift 1 (.control (.start "G1 X10\nG1 X20")) ++
    .act (.job 0) :: List.replicate 3 (.act .writer) ++ .act (.job 0) ::
    Event.swift 2 (.control .pause) ++ List.replicate 2 (.act .writer) ++
    List.replicate 2 (.act (.call 2)) ++
    .device 3 (.send "ok\n".toUTF8.toList) :: List.replicate 6 (.act .reader) ++
    .act (.job 0) :: Event.swift 4 (.realtime .softReset) ++ List.replicate 2 (.act .writer)

/-- A held job outlives a soft reset. -/
theorem ended_of_reset_heldReset :
    ¬ ∀ (timeout : Option Nat) (es fs : List Event) (i r : Nat) (f : Errand) (j : Job),
      ((initial timeout).after es).Clears i r f →
      ((initial timeout).after es).streamer.job = some j →
      let t := (((initial timeout).after es).next (.act (.call i))).after fs
      t.Quiescent → (∀ c, t.link.connection = some c → c.stalled = false) →
        t.streamer.job ≠ some j := by
  intro always
  have clears : ((initial none).after heldReset).Clears 4 2 (.realtime .softReset) :=
    { stage := by decide +kernel
      reset := rfl
      sent := by decide +kernel
      isOpen := by decide +kernel
      done := by decide +kernel }
  have ended := always none heldReset [.act (.call 4)] 4 2 _ ⟨0, ["G1 X10", "G1 X20"]⟩ clears
    (by decide +kernel)
  have reached : (((initial none).after heldReset).next (.act (.call 4))).after [.act (.call 4)]
      = (initial none).after (heldReset ++ [.act (.call 4), .act (.call 4)]) := by simp
  have locked := locked_after none (heldReset ++ [.act (.call 4), .act (.call 4)])
  have rest : let t := (initial none).after (heldReset ++ [.act (.call 4), .act (.call 4)])
      (t.calls, t.refreshers, t.linkIdle) = ([], [], true) := by decide +kernel
  have held : let t := (initial none).after (heldReset ++ [.act (.call 4), .act (.call 4)])
      (t.streamer.job, t.streamer.task, t.streamer.state, t.link.status.state)
        = (some ⟨0, ["G1 X10", "G1 X20"]⟩, some ⟨⟨0, ["G1 X10", "G1 X20"]⟩, 1, .ready⟩,
          .paused, .connecting) := by decide +kernel
  rw [reached] at ended
  generalize (initial none).after (heldReset ++ [.act (.call 4), .act (.call 4)]) = t at *
  simp only [Prod.mk.injEq] at rest held
  obtain ⟨calls, refreshers, idle⟩ := rest
  obtain ⟨job, task, state, status⟩ := held
  have waits := waits_of_held task rfl (by simp) state (by simp [status])
  exact ended (quiescent_of_done locked calls waits refreshers idle)
    (fun c here => (linkIdle_cases idle here).2.2.2.2.2.2) job

end Cnc.Session
