import Mathlib.Data.List.Induction
import Cnc.Proofs.Announcements
import Cnc.Proofs.Quiescence

/-!
# The state, the job and its progress

The job streamer keeps its state, its job, the progress and the streaming
task apart, and host calls and the task change them in turn. After every run
an idle job streamer has no job and no progress, the progress of a job counts
all its lines, and a job is streamed or being stopped (`StreamerCore.Kempt`).

One thing can go apart: a call that resumes a job tests the state, hands its
command over, and makes the state running when the command was sent. Where the
job has ended meanwhile, the job streamer is running without a job, until a
stop makes it idle again. That is the only way (`Session.coherent_iff`).
-/

namespace Cnc

/-- **What fits together after every run.** -/
structure StreamerCore.Kempt (m : StreamerCore) (stopping : Prop) : Prop where
  idle : m.state = .idle → m.job = none
  none : m.job = none → m.progress = .none
  total : ∀ j, m.job = some j → m.progress.total = j.lines.length
  task : ∀ j, m.job = some j → (∃ k, m.task = some k ∧ k.job = j) ∨ stopping

/-- A change to the order of turns only. -/
theorem StreamerCore.Kempt.turns {m : StreamerCore} {stopping stopping' : Prop}
    (kempt : m.Kempt stopping) (stays : stopping → stopping') (turns : List Nat) :
    ({ m with turns } : StreamerCore).Kempt stopping' where
  idle := kempt.idle
  none := kempt.none
  total := kempt.total
  task j job := (kempt.task j job).imp_right stays

namespace Session

variable {s t : Session} {e : Event}

/-- Whether a call that stops a job has ended its task and not finished. -/
def Stopping (s : Session) : Prop := ∃ i st, s.stage? i = some st ∧ st.errand? = some .stop

/-- **The state, the job, the progress and the task fit together.** -/
structure Coherent (s : Session) : Prop where
  idle : s.streamer.state = .idle ↔ s.streamer.job = none
  progress : s.streamer.state = .idle → s.streamer.progress = .none
  active : s.streamer.state = .running ∨ s.streamer.state = .paused →
    ∃ j, s.streamer.job = some j ∧ s.streamer.progress.total = j.lines.length ∧
      ((∃ k, s.streamer.task = some k ∧ k.job = j) ∨ s.Stopping)

/-- **A call makes the state running when there is no job any more**: it resumes a job that has
ended since the call tested the state. -/
def LateResume (s : Session) (e : Event) : Prop :=
  ∃ i st, e = .act (.call i) ∧ s.stage? i = some st ∧ st.errand? = some .resume ∧
    (s.next e).streamer.job = none ∧ (s.next e).streamer.state = .running

/-! ## What always fits -/

/-- What a call that has its turn does. -/
theorem Steers.kempt {i : Nat} {c : Control} {turns : List Nat} {st : Option CallStage}
    {m : StreamerCore} (steers : s.Steers turns c st m) (own : t.stage? i = st)
    (free : ¬ s.Stopping) (kempt : s.streamer.core.Kempt s.Stopping) : m.Kempt t.Stopping := by
  have streamed (j : Job) (job : s.streamer.core.job = some j) :
      ∃ k, s.streamer.core.task = some k ∧ k.job = j :=
    (kempt.task j job).resolve_right free
  cases steers with
  | refuse => exact kempt.turns (fun stopping => absurd stopping free) _
  | start idle lines =>
    refine ⟨by simp [started], by simp [started], fun j job => ?_, fun j job => ?_⟩
    · rw [← Option.some.inj job]
      rfl
    · exact .inl ⟨_, rfl, Option.some.inj job⟩
  | pause | pauseClosed =>
    exact ⟨by simp, kempt.none, kempt.total, fun j job => .inl (streamed j job)⟩
  | resume => exact kempt.turns (fun stopping => absurd stopping free) _
  | stop active =>
    exact ⟨kempt.idle, kempt.none, kempt.total, fun j _ => .inr ⟨i, _, own, rfl⟩⟩
  | stopClosed => exact ⟨fun _ => rfl, fun _ => rfl, by simp, by simp⟩

/-- What the turn of a host call keeps. -/
theorem Handles.kempt {i : Nat} (handles : s.Handles i t)
    (governed : Governed s.stage? s.streamer.core) (kempt : s.streamer.core.Kempt s.Stopping) :
    t.streamer.core.Kempt t.Stopping := by
  obtain ⟨controls, others⟩ := handles
  generalize own : t.stage? i = st at controls
  generalize t.streamer.core = m at controls
  -- a call that stops a job and is not the one that has the turn goes on stopping
  have stays (apart : ∀ st, s.stage? i = some st → st.errand? = some .stop →
      ∃ st', t.stage? i = some st' ∧ st'.errand? = some .stop) : s.Stopping → t.Stopping := by
    rintro ⟨j, st, stage, stop⟩
    by_cases same : j = i
    · subst same
      obtain ⟨st', stage', stop'⟩ := apart st stage stop
      exact ⟨j, st', stage', stop'⟩
    · exact ⟨j, st, (others j same).trans stage, stop⟩
  cases controls with
  | wait => exact kempt.turns (stays fun st stage stop => ⟨st, own.trans stage, stop⟩) _
  | aside before after =>
    refine kempt.turns (stays fun st stage stop => ?_) _
    rw [stage, Option.any_some, CallStage.controls_of_stop stop] at before
    exact absurd before (by simp)
  | count stage sent =>
    refine kempt.turns (stays fun st stage' stop => ⟨_, own, ?_⟩) _
    obtain rfl := Option.some.inj (stage.symm.trans stage')
    exact stop
  | queue stage taken =>
    refine kempt.turns (stays fun st stage' stop => ?_) _
    obtain rfl := Option.some.inj (stage.symm.trans stage')
    exact absurd stop (by simp [CallStage.errand?])
  | steer turn steers =>
    refine steers.kempt own ?_ kempt
    rintro ⟨j, st, stage, stop⟩
    have quiet := turn.alone governed stage
    rw [CallStage.controls_of_stop stop] at quiet
    exact absurd quiet (by simp)
  | @finish st e _ stage errand control finishes =>
    have controls : st.controls = true := by
      rw [CallStage.controls, errand]
      exact control
    -- no other call stops a job meanwhile
    have alone (other : e ≠ .stop) : ¬ s.Stopping := by
      rintro ⟨j, st', stage', stop⟩
      obtain rfl := governed.alone (governed.turn i st stage controls) stage'
        (CallStage.controls_of_stop stop)
      obtain rfl := Option.some.inj (stage.symm.trans stage')
      exact other (Option.some.inj (errand.symm.trans stop))
    cases finishes with
    | aside other => exact kempt.turns (fun stopping => absurd stopping (alone other)) _
    | resume =>
      exact ⟨by simp, kempt.none, kempt.total,
        fun j job => .inl ((kempt.task j job).resolve_right (alone (by simp)))⟩
    | stop => exact ⟨fun _ => rfl, fun _ => rfl, by simp, by simp⟩

/-- What the turn of the streaming task keeps. -/
theorem Streams.kempt {k : StreamTask} {v : Traffic} {m : StreamerCore}
    (streams : s.Streams k v m) (task : s.streamer.task = some k)
    (governed : Governed s.stage? s.streamer.core) {stopping : Prop}
    (kempt : s.streamer.core.Kempt stopping) : m.Kempt stopping := by
  have own : s.streamer.core.job = some k.job := governed.task k task
  have notIdle : s.streamer.core.state ≠ .idle := fun idle =>
    absurd ((governed.idle idle).symm.trans task) (by simp)
  have goesOn (j : Job) (job : s.streamer.core.job = some j) : k.job = j :=
    Option.some.inj (own.symm.trans job)
  cases streams with
  | wait => exact kempt
  | hand | sent =>
    exact ⟨kempt.idle, kempt.none, kempt.total, fun j job => .inl ⟨_, rfl, goesOn j job⟩⟩
  | conclude => exact ⟨fun _ => rfl, fun _ => rfl, by simp, by simp⟩
  | vanish _ idle => exact absurd idle notIdle
  | retry | late =>
    exact ⟨by simp, kempt.none, kempt.total, fun j job => .inl ⟨_, rfl, goesOn j job⟩⟩
  | advance =>
    refine ⟨fun idle => absurd idle notIdle, fun none => ?_, fun j job => ?_, fun j job => ?_⟩
    · exact absurd (own.symm.trans none) (by simp)
    · rw [← goesOn j job]
    · exact .inl ⟨_, rfl, goesOn j job⟩

theorem next_kempt (governed : Governed s.stage? s.streamer.core)
    (kempt : s.streamer.core.Kempt s.Stopping) (e : Event) :
    (s.next e).streamer.core.Kempt (s.next e).Stopping := by
  have stays {t : Session} (stages : ∀ j st, s.stage? j = some st → t.stage? j = some st) :
      s.Stopping → t.Stopping :=
    fun ⟨j, st, stage, stop⟩ => ⟨j, st, stages j st stage, stop⟩
  have steps := next_steps s e
  generalize s.next e = t at steps
  cases steps with
  | call handles => exact handles.kempt governed kempt
  | stream task streams calls =>
    have after := streams.kempt task governed kempt
    exact after.turns (stays fun j st stage => (stage?_congr calls j).trans stage) _
  | gone => exact kempt
  | @begin i c _ new begun others link core =>
    rw [core]
    refine kempt.turns (stays fun j st stage => ?_) _
    refine (others j fun same => ?_).trans stage
    rw [same, new] at stage
    exact absurd stage (by simp)
  | aside _ calls core =>
    rw [core]
    exact kempt.turns (stays fun j st stage => (stage?_congr calls j).trans stage) _

theorem kempt_after (timeout : Option Nat) (es : List Event) :
    ((initial timeout).after es).streamer.core.Kempt ((initial timeout).after es).Stopping := by
  induction es using List.reverseRecOn with
  | nil => exact ⟨fun _ => rfl, fun _ => rfl, by simp [initial, Streamer.initial, Streamer.core],
      by simp [initial, Streamer.initial, Streamer.core]⟩
  | append_singleton es e ih =>
    rw [after_append, after_cons, after_nil]
    exact next_kempt (governed_after timeout es) ih e

/-- **A job that is being stopped is active**: the calls that control it wait, and its task is
gone. -/
theorem next_active (governed : Governed s.stage? s.streamer.core)
    (active : s.Stopping → s.streamer.core.state ≠ .idle) (e : Event) :
    (s.next e).Stopping → (s.next e).streamer.core.state ≠ .idle := by
  rintro ⟨i, st, stage, stop⟩
  have steps := next_steps s e
  generalize s.next e = t at steps stage
  have kept (same : t.stage? i = s.stage? i) : s.Stopping := ⟨i, st, same.symm.trans stage, stop⟩
  cases steps with
  | @call j _ handles =>
    obtain ⟨controls, others⟩ := handles
    -- a call that stops a job is the only one that controls it
    have before (other : i ≠ j) : s.stage? i = some st := (others i other).symm.trans stage
    have alone {st' : CallStage} (stage' : s.stage? j = some st') (control : st'.controls = true) :
        i = j := by
      by_contra other
      have turn := governed.turn j st' stage' control
      exact other (governed.alone turn (before other) (CallStage.controls_of_stop stop))
    have same (own : i = j) : some st = t.stage? j := by rw [← own, stage]
    generalize t.stage? j = now at controls same
    generalize t.streamer.core = m at controls
    cases controls with
    | wait =>
      by_cases own : i = j
      · exact active ⟨i, st, own ▸ (same own).symm, stop⟩
      · exact active ⟨i, st, before own, stop⟩
    | aside _ after =>
      refine active ⟨i, st, before fun own => ?_, stop⟩
      rw [← same own, Option.any_some, CallStage.controls_of_stop stop] at after
      exact absurd after (by simp)
    | @count x e stage' =>
      by_cases own : i = j
      · obtain rfl := Option.some.inj (same own)
        exact active ⟨j, _, stage', stop⟩
      · exact active ⟨i, st, before own, stop⟩
    | queue =>
      refine active ⟨i, st, before fun own => ?_, stop⟩
      obtain rfl := Option.some.inj (same own)
      exact absurd stop (by simp [CallStage.errand?])
    | steer turn steers =>
      obtain rfl : i = j := by
        by_contra other
        have quiet := turn.alone governed (before other)
        rw [CallStage.controls_of_stop stop] at quiet
        exact absurd quiet (by simp)
      have own := same rfl
      cases steers with
      | stop active =>
        rcases active with running | paused
        · simp [Streamer.core, running]
        · simp [Streamer.core, paused]
      | pause | resume =>
        obtain rfl := Option.some.inj own
        exact absurd stop (by simp [CallStage.errand?])
      | _ => exact absurd own (by simp)
    | finish stage' errand control =>
      obtain rfl := alone stage' (by rw [CallStage.controls, errand]; exact control)
      exact absurd (same rfl) (by simp)
  | stream task _ calls =>
    obtain ⟨j, st', stage', stop'⟩ := kept (stage?_congr calls i)
    exact absurd ((governed.stopped j st' stage' stop').symm.trans task) (by simp)
  | gone => exact active (kept rfl)
  | @begin j c _ new begun others _ core =>
    rw [core]
    refine active (kept (others i fun own => ?_))
    rw [own, begun] at stage
    obtain rfl := Option.some.inj stage
    exact absurd stop (by simp [CallStage.errand?])
  | aside _ calls core =>
    rw [core]
    exact active (kept (stage?_congr calls i))

theorem active_after (timeout : Option Nat) (es : List Event) :
    ((initial timeout).after es).Stopping →
      ((initial timeout).after es).streamer.core.state ≠ .idle := by
  induction es using List.reverseRecOn with
  | nil =>
    rintro ⟨i, st, stage, -⟩
    exact absurd stage (by simp [initial, stage?])
  | append_singleton es e ih =>
    rw [after_append, after_cons, after_nil]
    exact next_active (governed_after timeout es) ih e

/-! ## What can go apart -/

/-- **The job streamer is not idle, but has no job.** -/
def Orphaned (s : Session) : Prop := s.streamer.job = none ∧ s.streamer.state ≠ .idle

/-- Apart from that, everything fits. -/
theorem coherent_iff_not_orphaned (kempt : s.streamer.core.Kempt s.Stopping) :
    s.Coherent ↔ ¬ s.Orphaned := by
  constructor
  · rintro coherent ⟨none, notIdle⟩
    exact notIdle (coherent.idle.mpr none)
  · intro fits
    have idle : s.streamer.state = .idle ↔ s.streamer.job = none :=
      ⟨kempt.idle, fun none => by_contra fun notIdle => fits ⟨none, notIdle⟩⟩
    refine ⟨idle, fun still => kempt.none (kempt.idle still), fun active => ?_⟩
    obtain ⟨j, job⟩ : ∃ j, s.streamer.job = some j := by
      refine Option.ne_none_iff_exists'.mp fun none => ?_
      have still := idle.mpr none
      rcases active with running | paused
      · exact absurd (still.symm.trans running) (by simp)
      · exact absurd (still.symm.trans paused) (by simp)
    exact ⟨j, job, kempt.total j job, kempt.task j job⟩

/-- A job streamer without a job stays so until it is idle. -/
theorem Orphaned.next (orphaned : s.Orphaned) (notIdle : (s.next e).streamer.state ≠ .idle) :
    (s.next e).Orphaned := by
  obtain ⟨told, -, tells, -⟩ := next_announces s e
  refine ⟨?_, notIdle⟩
  cases tells with
  | silent kept | shift kept | fail kept => exact kept.job.trans orphaned.1
  | start begins => exact absurd begins.idle orphaned.2
  | advance advances => exact advances.job.trans orphaned.1
  | complete ends | abort ends | stop ends => exact absurd ends.state notIdle

/-- **Only a late resume makes a job streamer run without a job.** -/
theorem lateResume_of_orphaned (governed : Governed s.stage? s.streamer.core)
    (fits : ¬ s.Orphaned) (orphaned : (s.next e).Orphaned) : s.LateResume e := by
  have same {m : StreamerCore} (core : (s.next e).streamer.core = m)
      (job : m.job = s.streamer.core.job) (state : m.state = s.streamer.core.state) :
      s.LateResume e := by
    refine absurd ⟨?_, ?_⟩ fits
    · exact job.symm.trans ((congrArg StreamerCore.job core).symm.trans orphaned.1)
    · exact fun idle => orphaned.2 ((congrArg StreamerCore.state core).trans (state.trans idle))
  have ended {m : StreamerCore} (core : (s.next e).streamer.core = m) (idle : m.state = .idle) :
      s.LateResume e :=
    absurd ((congrArg StreamerCore.state core).trans idle) orphaned.2
  have steps := next_steps s e
  generalize next : s.next e = t at steps
  cases steps with
  | @call i _ handles =>
    obtain ⟨controls, -⟩ := handles
    generalize t.stage? i = st at controls
    generalize core : t.streamer.core = m at controls
    rw [← next] at core
    cases controls with
    | wait | aside | count | queue => exact same core rfl rfl
    | steer turn steers =>
      cases steers with
      | refuse | resume | stop => exact same core rfl rfl
      | start =>
        exact absurd ((congrArg StreamerCore.job core).symm.trans orphaned.1) (by simp [started])
      | pause running | pauseClosed running =>
        have job : s.streamer.job = none := (congrArg StreamerCore.job core).symm.trans orphaned.1
        exact absurd ⟨job, by simp [running]⟩ fits
      | stopClosed => exact ended core rfl
    | finish stage errand control finishes =>
      cases finishes with
      | aside => exact same core rfl rfl
      | resume =>
        exact ⟨i, _, rfl, stage, errand, orphaned.1, congrArg StreamerCore.state core⟩
      | stop => exact ended core rfl
  | @stream k _ task streams calls =>
    have job : s.streamer.core.job = some k.job := governed.task k task
    generalize t.link.traffic = v at streams
    generalize core : t.streamer.core = m at streams
    rw [← next] at core
    have gone : m.job = none := (congrArg StreamerCore.job core).symm.trans orphaned.1
    cases streams with
    | conclude => exact ended core rfl
    | _ => exact absurd (job.symm.trans gone) (by simp)
  | gone => exact absurd (next ▸ orphaned) fits
  | begin _ _ _ _ core => exact same (next ▸ core) rfl rfl
  | aside _ _ core => exact same (next ▸ core) rfl rfl

/-- A job streamer that has no job and is not idle had a late resume, and has not been idle
since. -/
theorem exists_lateResume (timeout : Option Nat) {es : List Event}
    (orphaned : ((initial timeout).after es).Orphaned) :
    ∃ fs e gs, es = fs ++ e :: gs ∧ ((initial timeout).after fs).LateResume e ∧
      ∀ hs, hs <+: gs → ((initial timeout).after (fs ++ e :: hs)).streamer.state ≠ .idle := by
  induction es using List.reverseRecOn with
  | nil => exact absurd rfl orphaned.2
  | append_singleton es e ih =>
    by_cases before : ((initial timeout).after es).Orphaned
    · obtain ⟨fs, e', gs, rfl, late, since⟩ := ih before
      refine ⟨fs, e', gs ++ [e], by simp, late, fun hs some => ?_⟩
      rcases List.prefix_concat_iff.mp some with rfl | earlier
      · simpa using orphaned.2
      · exact since hs earlier
    · rw [after_append, after_cons, after_nil] at orphaned
      refine ⟨es, e, [], rfl, lateResume_of_orphaned (governed_after timeout es) before orphaned,
        fun hs some => ?_⟩
      obtain rfl := List.prefix_nil.mp some
      simpa using orphaned.2

/-- After a late resume, the job streamer has no job until it is idle. -/
theorem LateResume.orphaned {fs gs : List Event} (late : (s.after fs).LateResume e)
    (since : ∀ hs, hs <+: gs → (s.after (fs ++ e :: hs)).streamer.state ≠ .idle) :
    (s.after (fs ++ e :: gs)).Orphaned := by
  induction gs using List.reverseRecOn with
  | nil =>
    obtain ⟨i, st, rfl, -, -, none, running⟩ := late
    rw [after_append, after_cons, after_nil]
    exact ⟨none, by simp [running]⟩
  | append_singleton gs f ih =>
    have before := ih fun hs some => since hs (some.trans (List.prefix_append _ _))
    have longer : fs ++ e :: (gs ++ [f]) = (fs ++ e :: gs) ++ [f] := by simp
    have notIdle := since (gs ++ [f]) List.prefix_rfl
    rw [longer, after_append, after_cons, after_nil] at notIdle ⊢
    exact before.next notIdle

/-- **When the state, the job and the progress fit together.** After a run they do exactly if the
job streamer has been idle since every late resume: the state is idle if and only if there is no
job, and then nothing is in progress; and while the state is running or paused there is a job, the
progress counts its lines, and it is streamed or being stopped. -/
theorem coherent_iff (timeout : Option Nat) (es : List Event) :
    ((initial timeout).after es).Coherent ↔
      ∀ fs e gs, es = fs ++ e :: gs → ((initial timeout).after fs).LateResume e →
        ∃ hs, hs <+: gs ∧ ((initial timeout).after (fs ++ e :: hs)).streamer.state = .idle := by
  rw [coherent_iff_not_orphaned (kempt_after timeout es)]
  constructor
  · rintro fits fs e gs rfl late
    by_contra never
    refine fits (late.orphaned fun hs some idle => never ⟨hs, some, idle⟩)
  · intro since orphaned
    obtain ⟨fs, e, gs, split, late, never⟩ := exists_lateResume timeout orphaned
    obtain ⟨hs, some, idle⟩ := since fs e gs split late
    exact never hs some idle

/-- A job of one line is held, its only line is answered while the command that resumes it cannot be
written, and then the command is written. -/
def lateResume : List Event :=
  Event.swift 0 (.connect "/dev/mock0" none) ++ Event.swift 1 (.control (.start "G1 X10")) ++
    .act (.job 0) :: List.replicate 3 (.act .writer) ++ .act (.job 0) ::
    Event.swift 2 (.control .pause) ++ List.replicate 2 (.act .writer) ++
    List.replicate 2 (.act (.call 2)) ++ .device 3 .stall ::
    Event.swift 4 (.control .resume) ++ .act .writer ::
    .device 5 (.send "ok\n".toUTF8.toList) :: List.replicate 6 (.act .reader) ++
    List.replicate 2 (.act (.job 0)) ++ [.device 6 .unstall, .act .writer] ++
    List.replicate 2 (.act (.call 4))

/-- A quiescent job streamer can be running without a job. -/
theorem coherent_lateResume :
    ¬ ∀ (timeout : Option Nat) (es : List Event),
      ((initial timeout).after es).Quiescent → ((initial timeout).after es).Coherent := by
  intro always
  have busy : let s := (initial none).after lateResume
      (s.streamer.state, s.streamer.job) = (.running, none) := by decide +kernel
  have rest : let s := (initial none).after lateResume
      (s.calls, s.streamer.task, s.refreshers, s.linkIdle) = ([], none, [], true) := by
    decide +kernel
  generalize hs : (initial none).after lateResume = s at busy rest
  have quiescent : s.Quiescent := by
    simp only [Prod.mk.injEq] at rest
    exact quiescent_of_done (hs ▸ locked_after none lateResume) rest.1
      (waits_of_no_task rest.2.1) rest.2.2.1 rest.2.2.2
  have coherent : s.Coherent := hs ▸ always none lateResume (hs ▸ quiescent)
  have idle := coherent.idle.mpr (Prod.mk.inj busy).2
  exact absurd ((Prod.mk.inj busy).1.symm.trans idle) (by simp)

end Session

end Cnc
