import Cnc.Proofs.Control

/-!
# What is announced of a job

Every change of the job streamer is announced, and `Tells` says how: which
events are published when the job streamer goes from one state of affairs to
another. An event that ends a job is published when the job is dropped and at
no other time, and every event of the run announces what it does
(`Session.next_announces`).
-/

namespace Cnc

/-- Whether an event tells of the end of a job. -/
def JobEvent.isTerminal : JobEvent → Bool
  | .completed _ | .aborted | .state .stopped => true
  | _ => false

/-- Whether a call stops a job. -/
def CallStage.stops : CallStage → Bool
  | .begin (.control .stop) | .turn .stop | .sending _ .stop | .counting _ .stop => true
  | _ => false

namespace StreamerCore

/-- What is published when the state is set: nothing if it was the same. -/
def shift (m : StreamerCore) (state : JobState) : List JobEvent :=
  if m.state = state then [] else [.state state]

theorem shift_congr {m m' : StreamerCore} (same : m'.state = m.state) (state : JobState) :
    m'.shift state = m.shift state := by
  rw [shift, shift, same]

/-- **The job stays as it is**: the task may go on with its line, or end. -/
structure Kept (m m' : StreamerCore) : Prop where
  job : m'.job = m.job
  progress : m'.progress = m.progress
  started : m'.started = m.started
  task : ∀ k', m'.task = some k' → ∃ k, m.task = some k ∧ k'.job = k.job ∧ k'.cursor = k.cursor

/-- **The job is dropped.** -/
structure Ends (m m' : StreamerCore) : Prop where
  state : m'.state = .idle
  job : m'.job = none
  progress : m'.progress = .none
  started : m'.started = m.started
  task : m'.task = none ∨ m'.task = m.task

/-- **A job is started.** -/
structure Begins (m m' : StreamerCore) (lines : List String) : Prop where
  idle : m.state = .idle
  nonempty : lines ≠ []
  state : m'.state = .running
  job : m'.job = some ⟨m.started, lines⟩
  progress : m'.progress = ⟨0, lines.length⟩
  started : m'.started = m.started + 1
  task : m'.task = some ⟨⟨m.started, lines⟩, 0, .ready⟩

/-- **The task of a job gets its line answered.** -/
structure Advances (m m' : StreamerCore) (k : StreamTask) : Prop where
  before : m.task = some k
  state : m'.state = m.state
  job : m'.job = m.job
  progress : m'.progress = ⟨k.cursor + 1, k.job.lines.length⟩
  started : m'.started = m.started
  task : m'.task = some ⟨k.job, k.cursor + 1, .ready⟩

/-- **What is published when the job streamer changes** from `m` to `m'`. -/
inductive Tells (m m' : StreamerCore) : List JobEvent → Prop
  | silent (kept : m.Kept m') (state : m'.state = m.state) : Tells m m' []
  /-- The job is paused or resumed. -/
  | shift (kept : m.Kept m') (active : m'.state = .running ∨ m'.state = .paused) :
    Tells m m' (m.shift m'.state)
  /-- The job is paused by a failure. -/
  | fail (kept : m.Kept m') (state : m'.state = .paused) (reason : String) {k : StreamTask}
      (task : m.task = some k) : Tells m m' (m.shift .paused ++ [.failed reason])
  | start {lines : List String} (begins : m.Begins m' lines) :
    Tells m m' [.state .running, .started lines.length]
  | advance {k : StreamTask} (advances : m.Advances m' k) (rejection : Option UInt16) :
    Tells m m'
      ((rejection.map (JobEvent.lineError k.cursor)).toList
        ++ [.progress ⟨k.cursor + 1, k.job.lines.length⟩])
  | complete {k : StreamTask} (ends : m.Ends m') (task : m.task = some k)
      (ready : k.stage = .ready) (done : k.job.lines.length ≤ k.cursor) :
    Tells m m' (.completed k.job.lines.length :: m.shift .idle)
  | abort {k : StreamTask} (ends : m.Ends m') (task : m.task = some k) :
    Tells m m' (.aborted :: m.shift .idle)
  | stop (ends : m.Ends m') : Tells m m' (.state .stopped :: m.shift .idle)

theorem Kept.refl (m : StreamerCore) : m.Kept m where
  job := rfl
  progress := rfl
  started := rfl
  task k' task := ⟨k', task, rfl, rfl⟩

/-- The job stays as it is if at most the task ends and others get their turn. -/
theorem Kept.of {m m' : StreamerCore} (job : m'.job = m.job) (progress : m'.progress = m.progress)
    (started : m'.started = m.started) (task : m'.task = none ∨ m'.task = m.task) : m.Kept m' where
  job := job
  progress := progress
  started := started
  task k' same := by
    rcases task with none | before
    · exact absurd (none.symm.trans same) (by simp)
    · exact ⟨k', before ▸ same, rfl, rfl⟩

/-- The order of turns has no part in what is announced. -/
theorem Tells.reorder {m m' : StreamerCore} {told : List JobEvent} (tells : Tells m m' told)
    (turns turns' : List Nat) : Tells { m with turns } { m' with turns := turns' } told := by
  have kept (kept : Kept m m') : Kept { m with turns } { m' with turns := turns' } :=
    ⟨kept.job, kept.progress, kept.started, kept.task⟩
  have ends (ends : Ends m m') : Ends { m with turns } { m' with turns := turns' } :=
    ⟨ends.state, ends.job, ends.progress, ends.started, ends.task⟩
  cases tells with
  | silent same state => exact .silent (kept same) state
  | shift same active => exact .shift (kept same) active
  | fail same state reason task => exact .fail (kept same) state reason task
  | start begins =>
    refine .start ?_
    exact ⟨begins.idle, begins.nonempty, begins.state, begins.job, begins.progress,
      begins.started, begins.task⟩
  | @advance k advances rejection =>
    refine .advance (k := k) ?_ rejection
    exact ⟨advances.before, advances.state, advances.job, advances.progress, advances.started,
      advances.task⟩
  | complete ended task ready done => exact .complete (ends ended) task ready done
  | abort ended task => exact .abort (ends ended) task
  | stop ended => exact .stop (ends ended)

end StreamerCore

namespace Session

open StreamerCore

variable {s t : Session} {e : Event}

/-- **When the event `e` may publish what happened to a job**: a job is only started on an open
link, and only a call that stops the job announces that it was stopped. -/
def Permits (s : Session) (e : Event) : JobEvent → Prop
  | .started _ => s.link.connection.isSome = true
  | .state .stopped => ∃ i st, e = .act (.call i) ∧ s.stage? i = some st ∧ st.stops = true ∧
      (s.streamer.state ≠ .idle ∨ st.errand? = some .stop)
  | _ => True

/-- What may be announced depends on the link, the state and the calls. -/
theorem Permits.congr {s' : Session} {d : JobEvent} (may : s.Permits e d)
    (connection : s.link.connection = s'.link.connection)
    (state : s.streamer.state = s'.streamer.state) (calls : s.calls = s'.calls) :
    s'.Permits e d := by
  unfold Permits at may ⊢
  split
  · rwa [connection] at may
  · obtain ⟨i, st, own, stage, stops, active⟩ := may
    exact ⟨i, st, own, (stage?_congr calls i).symm.trans stage, stops, by rwa [state] at active⟩
  · trivial

/-- A state that is set may be announced. -/
theorem permits_shift {m : StreamerCore} {state : JobState} (other : state ≠ .stopped) :
    ∀ d ∈ m.shift state, s.Permits e d := by
  intro d told
  unfold StreamerCore.shift at told
  split at told
  · exact absurd told (by simp)
  · rw [List.mem_singleton.mp told]
    cases state with
    | stopped => exact absurd rfl other
    | _ => trivial

/-- An end that may be announced is announced with the state that follows. -/
theorem permits_end {m : StreamerCore} {d : JobEvent} (may : s.Permits e d) :
    ∀ d' ∈ d :: m.shift .idle, s.Permits e d' := by
  intro d' told
  rcases List.mem_cons.mp told with rfl | later
  · exact may
  · exact permits_shift (by simp) d' later

/-- **What the event `e` publishes of jobs** fits what it does to the job streamer. -/
def Announces (s : Session) (e : Event) (t : Session) : Prop :=
  ∃ told, t.streamer.events.log = s.streamer.events.log ++ told ∧
    Tells s.streamer.core t.streamer.core told ∧ ∀ d ∈ told, s.Permits e d

theorem log_stateEvents (s : Session) (state : JobState) :
    (s.stateEvents state).log = s.streamer.events.log ++ s.streamer.core.shift state := by
  unfold stateEvents StreamerCore.shift
  by_cases same : s.streamer.state = state
  · simp [same, Streamer.core]
  · simp [same, Streamer.core]

theorem log_concludeEvents (s : Session) :
    (s.concludeEvents .idle).log = s.streamer.events.log ++ s.streamer.core.shift .idle ∧
      (s.concludeEvents .stopped).log
        = s.streamer.events.log ++ (.state .stopped :: s.streamer.core.shift .idle) := by
  unfold concludeEvents
  refine ⟨log_stateEvents s .idle, ?_⟩
  rw [if_neg (by simp), log_stateEvents]
  simp [announce, Streamer.core]

namespace Announces

/-- Nothing is announced. -/
theorem silent (log : t.streamer.events.log = s.streamer.events.log)
    (kept : s.streamer.core.Kept t.streamer.core) (state : t.streamer.state = s.streamer.state) :
    s.Announces e t :=
  ⟨[], by simp [log], .silent kept state, by simp⟩

/-- Nothing is done to the job streamer. -/
theorem still (same : t.streamer = s.streamer) : s.Announces e t :=
  .silent (by rw [same]) (by rw [same]; exact .refl _) (by rw [same])

/-- Whose turn it was before has no part in what is announced. -/
theorem reordered {s' : Session} {turns : List Nat} (announces : s.Announces e t)
    (before : s.streamer = { s'.streamer with turns }) (calls : s.calls = s'.calls)
    (link : s.link = s'.link) : s'.Announces e t := by
  obtain ⟨told, log, tells, may⟩ := announces
  rw [before] at log tells
  refine ⟨told, log, tells.reorder s'.streamer.turns t.streamer.turns, fun d member => ?_⟩
  refine (may d member).congr ?_ ?_ calls
  · rw [link]
  · rw [before]

/-- Whose turn it is afterwards has no part in what is announced. -/
theorem reorder {t' : Session} {turns : List Nat} (announces : s.Announces e t)
    (after : t'.streamer = { t.streamer with turns }) : s.Announces e t' := by
  obtain ⟨told, log, tells, may⟩ := announces
  have core : t'.streamer.core = { t.streamer.core with turns } := by
    rw [after]
    rfl
  refine ⟨told, by rw [after]; exact log, ?_, may⟩
  rw [core]
  exact tells.reorder s.streamer.turns turns

end Announces

/-! ## Host calls -/

theorem send_streamer (s : Session) (i : Nat) (p : Payload) (errand : Errand) :
    (s.send i p errand).streamer = s.streamer := by
  unfold send
  cases posted : s.post? (.call i) p with
  | none => rfl
  | some r => exact (post?_streamer posted).2.2

theorem connect_streamer (s : Session) (i : Nat) (port : String) (refusal : Option DeviceFault) :
    (s.connect i port refusal).streamer = s.streamer := by
  unfold connect
  cases s.link.connection with
  | some c => rfl
  | none => cases refusal <;> simp

theorem addPoller_streamer (s : Session) (i interval : Nat) :
    (s.addPoller i interval).streamer = s.streamer := by
  unfold addPoller
  cases s.link.connection with
  | none => rfl
  | some c =>
    dsimp only
    split <;> simp [withConnection]

theorem beginConfirmation_streamer (s : Session) (i : Nat) (id : UInt16) (value : String)
    (delay timeout : Nat) :
    (s.beginConfirmation i id value delay timeout).streamer = s.streamer := by
  unfold beginConfirmation
  dsimp only
  split
  · rfl
  · next x t posted => exact (post?_streamer posted).2.2

/-- A call gives its last result and ends its turn. -/
theorem Announces.finished {i : Nat} (announces : s.Announces e t) (r : Result) :
    s.Announces e (t.finish i r).endTurn :=
  announces.reorder (alike_endTurn _).2.2.1

/-- A call hands a realtime command over, or finds the link closed. -/
theorem sendControl_announces {i : Nat} (command : Realtime) (errand : Errand)
    {closed : Session → Session} (sent : s.Announces e t) (unsent : s.Announces e (closed t)) :
    s.Announces e (t.sendControl i command errand closed) := by
  unfold sendControl
  cases posted : t.post? (.call i) (.realtime command) with
  | none => exact unsent.finished _
  | some r => exact sent.reorder (post?_streamer posted).2.2

theorem startJob_announces (s : Session) (i : Nat) (program : String) :
    s.Announces e (s.startJob i program) := by
  have refuse (r : Result) : s.Announces e (s.finish i r).endTurn := .finished (.still rfl) r
  unfold startJob
  dsimp only
  split
  · exact refuse _
  · next free =>
    have idle : s.streamer.state = .idle := by simpa using free
    split
    · exact refuse _
    · next lines =>
      split
      · exact refuse _
      · next opened =>
        have isOpen : s.link.connection.isSome = true := by
          simpa [Option.isSome_iff_ne_none] using opened
        refine ⟨[.state .running, .started (Job.linesOf program).length], ?_, ?_,
          by simpa [Permits] using isOpen⟩
        · simp [withTask, announce, stateEvents, idle]
        · refine @StreamerCore.Tells.start _ _ (Job.linesOf program) ?_
          constructor
          · exact idle
          · exact lines
          all_goals simp [withTask, announce, Streamer.core]

theorem control_announces {i : Nat} (s : Session) (c : Control) (own : e = .act (.call i))
    {st : CallStage} (stage : s.stage? i = some st) (stops : c = .stop → st.stops = true) :
    s.Announces e (s.control i c) := by
  have refuse (r : Result) : s.Announces e (s.finish i r).endTurn := .finished (.still rfl) r
  unfold control
  cases c with
  | start program => exact startJob_announces s i program
  | pause =>
    dsimp only
    split
    · have paused : s.Announces e
          ((s.setState .paused).wakeAll (s.setState .paused).watchingTask) := by
        refine ⟨s.streamer.core.shift .paused, ?_, ?_, permits_shift (by simp)⟩
        · simp [log_stateEvents]
        · have kept : s.streamer.core.Kept ((s.setState .paused).wakeAll
              (s.setState .paused).watchingTask).streamer.core :=
            .of (by simp [Streamer.core]) (by simp [Streamer.core]) (by simp [Streamer.core])
              (.inr (by simp [Streamer.core]))
          have state : ((s.setState .paused).wakeAll
              (s.setState .paused).watchingTask).streamer.core.state = .paused := by
            simp [Streamer.core]
          have shift := Tells.shift kept (.inr state)
          rwa [state] at shift
      exact sendControl_announces _ _ paused paused
    · exact refuse _
  | resume =>
    dsimp only
    split
    · exact sendControl_announces _ _ (.still rfl) (.still rfl)
    · exact refuse _
  | stop =>
    dsimp only
    split
    · next active =>
      have notIdle : s.streamer.state ≠ .idle := by
        rcases active with running | paused
        · simp [running]
        · simp [paused]
      have dropped : s.Announces e s.dropTask :=
        .silent (by simp) (.of (by simp [Streamer.core]) (by simp [Streamer.core])
          (by simp [Streamer.core]) (.inl (by simp [Streamer.core]))) (by simp)
      have stopped : s.Announces e (s.dropTask.conclude .stopped) := by
        refine ⟨.state .stopped :: s.streamer.core.shift .idle, ?_, .stop ?_,
          permits_end ⟨i, st, own, stage, stops rfl, .inl notIdle⟩⟩
        · have log := (log_concludeEvents s.dropTask).2
          simp only [alike_conclude, log, alike_dropTask, List.append_cancel_left_eq,
            List.cons.injEq, true_and]
          exact shift_congr rfl _
        · constructor <;> simp [Streamer.core]
      exact sendControl_announces _ _ dropped stopped
    · exact refuse _

theorem beginCall_announces {i : Nat} {c : Call} (own : e = .act (.call i))
    (stage : s.stage? i = some (.begin c)) : s.Announces e (s.beginCall i c) := by
  unfold beginCall
  cases c with
  | connect port refusal => exact .still (connect_streamer s i port refusal)
  | disconnect =>
    refine .still ?_
    show s.endConnection.streamer = s.streamer
    exact congrArg Controlled.streamer (endConnection_controlled s)
  | write line => exact .still (send_streamer s i _ _)
  | writeAcked line => exact .still (send_streamer s i _ _)
  | realtime command => exact .still (send_streamer s i _ _)
  | control c =>
    dsimp only [takeTurn]
    split
    · let queued : Session := { s with streamer.turns := s.streamer.turns ++ [i] }
      have controls : queued.Announces e (queued.control i c) :=
        control_announces queued c own stage fun stop => by rw [stop]; rfl
      exact controls.reordered rfl rfl rfl
    · refine .silent rfl ?_ rfl
      exact .of rfl rfl rfl (.inr rfl)
  | wait =>
    dsimp only
    split <;> exact .still rfl
  | poll interval => exact .still (addPoller_streamer s i interval)
  | writeSetting id value delay => exact .still (send_streamer s i _ _)
  | confirmSetting id value delay timeout =>
    exact .still (beginConfirmation_streamer s i id value delay timeout)
  | _ => exact .still rfl

/-- A call that stops a job is done. -/
theorem conclude_announces {i : Nat} {st : CallStage} (own : e = .act (.call i))
    (stage : s.stage? i = some st) (stops : st.stops = true) (stop : st.errand? = some .stop)
    (streamer : t.streamer = s.streamer) : s.Announces e (t.conclude .stopped) := by
  refine ⟨.state .stopped :: s.streamer.core.shift .idle, ?_, .stop ?_,
    permits_end ⟨i, st, own, stage, stops, .inr stop⟩⟩
  · have log := (log_concludeEvents t).2
    rw [streamer] at log
    rw [(alike_conclude t .stopped).2.2.1]
    exact log
  · constructor <;> simp [Streamer.core, streamer]

theorem failErrand_announces {i x : Nat} {errand : Errand} (own : e = .act (.call i))
    (stage : s.stage? i = some (.sending x errand)) (f : LinkError) :
    s.Announces e (s.failErrand i errand f) := by
  unfold failErrand
  cases errand with
  | pause | resume => exact .finished (.still rfl) _
  | stop => exact .finished (conclude_announces own stage rfl rfl rfl) _
  | setting delay confirmation => cases confirmation <;> exact .still rfl
  | _ => exact .still rfl

theorem doErrand_announces {i x y : Nat} {errand : Errand} (own : e = .act (.call i))
    (stage : s.stage? i = some (.counting x errand)) (streamer : t.streamer = s.streamer) :
    s.Announces e (t.doErrand i y errand) := by
  unfold doErrand
  cases errand with
  | pause => exact .finished (.still streamer) _
  | resume =>
    refine .finished ⟨s.streamer.core.shift .running, ?_, ?_, permits_shift (by simp)⟩ _
    · have log := log_stateEvents t .running
      rw [streamer] at log
      simpa using log
    · have kept : s.streamer.core.Kept ((t.setState .running).wakeAll
          (t.setState .running).watchingTask).streamer.core :=
        .of (by simp [Streamer.core, streamer]) (by simp [Streamer.core, streamer])
          (by simp [Streamer.core, streamer]) (.inr (by simp [Streamer.core, streamer]))
      have state : ((t.setState .running).wakeAll
          (t.setState .running).watchingTask).streamer.core.state = .running := by
        simp [Streamer.core]
      have shift := Tells.shift kept (.inl state)
      rwa [state] at shift
  | stop => exact .finished (conclude_announces own stage rfl rfl streamer) _
  | setting delay confirmation =>
    cases confirmation with
    | none => exact .still (by simp [spawnRefresher, streamer])
    | some c => exact .still (by simp [spawnRefresher, streamer])
  | _ => exact .still streamer

theorem confirmTurn_streamer (s : Session) (i : Nat) (key : String) (sub deadline : Nat) :
    (s.confirmTurn i key sub deadline).streamer = s.streamer := by
  unfold confirmTurn
  dsimp only
  split
  · split <;> rfl
  · split
    · split <;> rfl
    · split <;> rfl

theorem callTurn_announces (s : Session) (i : Nat) :
    s.Announces (.act (.call i)) (s.callTurn i) := by
  unfold callTurn
  cases stage : s.stage? i with
  | none => exact .still rfl
  | some st =>
    cases st with
    | begin c => exact beginCall_announces rfl stage
    | turn c =>
      dsimp only
      split
      · exact control_announces s c rfl stage fun stop => by rw [stop]; rfl
      · exact .still rfl
    | sending x errand =>
      dsimp only
      cases delivery : s.link.delivery? x with
      | none => exact .still rfl
      | some d =>
        cases d with
        | sent =>
          refine .still ?_
          show (s.countErrand i x errand).streamer = s.streamer
          unfold countErrand
          dsimp only
          split
          · refine use_keeps (·.streamer) (fun h => h.2.2.1) (fun u => ?_) fun u => rfl
            exact congrArg Controlled.streamer (dropAnswers_controlled u)
          · rfl
        | failed f => exact failErrand_announces rfl stage _
        | lost => exact failErrand_announces rfl stage _
    | counting x errand =>
      dsimp only
      rcases use_cases s (.call i) .stats (·.countSent x) (·.doErrand i x errand)
        with h | ⟨u, hu, h⟩
      · exact .still h.2.2.1
      · rw [h]
        refine doErrand_announces rfl stage ?_
        rw [(alike_leave _ _).2.2.1, countSent_streamer, hu.2.2.1]
    | awaitingAnswer x =>
      dsimp only
      split <;> exact .still rfl
    | awaitingIdle =>
      dsimp only
      split <;> exact .still rfl
    | confirming key sub deadline => exact .still (confirmTurn_streamer s i key sub deadline)
    | lookingUp key =>
      exact .still (use_keeps (·.streamer) (fun h => h.2.2.1) (fun u => rfl) fun u => rfl)

/-! ## The streaming task -/

section Task

variable {k : StreamTask}

theorem conclude_ends (s : Session) (d : JobEvent) :
    s.streamer.core.Ends ((s.dropTask.announce d).conclude .idle).streamer.core ∧
      ((s.dropTask.announce d).conclude .idle).streamer.events.log
        = s.streamer.events.log ++ (d :: s.streamer.core.shift .idle) := by
  constructor
  · constructor <;> simp [Streamer.core, announce]
  · have log := (log_concludeEvents (s.dropTask.announce d)).1
    rw [(alike_conclude _ .idle).2.2.1]
    refine log.trans ?_
    simp only [announce, alike_dropTask, EventBus.publish_log, List.append_assoc,
      List.singleton_append, List.append_cancel_left_eq, List.cons.injEq, true_and]
    exact shift_congr rfl _

theorem abortJob_announces (task : s.streamer.task = some k) : s.Announces e s.abortJob := by
  obtain ⟨ends, log⟩ := conclude_ends s .aborted
  exact ⟨_, log, .abort ends task, permits_end trivial⟩

theorem failJob_announces (task : s.streamer.task = some k) (stage : StreamStage)
    (reason : String) :
    s.Announces e ((s.withTask ⟨k.job, k.cursor, stage⟩).failJob reason) := by
  refine ⟨s.streamer.core.shift .paused ++ [.failed reason], ?_, .fail ?_ ?_ reason task,
    List.forall_mem_append.mpr ⟨permits_shift (by simp), by simp [Permits]⟩⟩
  · have log := log_stateEvents (s.withTask ⟨k.job, k.cursor, stage⟩) .paused
    simp only [failJob, announce, alike_setState, EventBus.publish_log, log, List.append_assoc]
    rfl
  · refine ⟨?_, ?_, ?_, fun k' task' => ⟨k, task, ?_⟩⟩
    · simp [failJob, announce, withTask, Streamer.core]
    · simp [failJob, announce, withTask, Streamer.core]
    · simp [failJob, announce, withTask, Streamer.core]
    · simp only [failJob, announce, withTask, Streamer.core, alike_setState, Option.some.injEq]
        at task'
      rw [← task']
      exact ⟨rfl, rfl⟩
  · simp [failJob, announce, Streamer.core]

/-- The task goes on with its line. -/
theorem withTask_announces (task : s.streamer.task = some k)
    (streamer : t.streamer = { s.streamer with task := t.streamer.task }) {stage : StreamStage}
    (task' : t.streamer.task = some ⟨k.job, k.cursor, stage⟩) : s.Announces e t := by
  refine .silent (by rw [streamer]) ⟨?_, ?_, ?_, fun k' same => ⟨k, task, ?_⟩⟩ (by rw [streamer])
  · rw [streamer]; rfl
  · rw [streamer]; rfl
  · rw [streamer]; rfl
  · rw [← Option.some.inj (task'.symm.trans same)]
    exact ⟨rfl, rfl⟩

theorem taskTurn_announces (task : s.streamer.task = some k) :
    s.Announces e (s.taskTurn k) := by
  have dropped : s.Announces e s.dropTask :=
    .silent (by simp) (.of (by simp [Streamer.core]) (by simp [Streamer.core])
      (by simp [Streamer.core]) (.inl (by simp [Streamer.core]))) (by simp)
  unfold taskTurn
  dsimp only
  cases stage : k.stage with
  | ready =>
    dsimp only
    cases next : k.job.lines[k.cursor]? with
    | none =>
      obtain ⟨ends, log⟩ := conclude_ends s (.completed k.job.lines.length)
      exact ⟨_, log, .complete ends task stage (List.getElem?_eq_none_iff.mp next),
        permits_end trivial⟩
    | some line =>
      dsimp only [handOver]
      split
      · split
        · exact abortJob_announces task
        · next x t posted =>
          have sending : (t.withTask ⟨k.job, k.cursor, .sending x⟩).streamer.task
              = some ⟨k.job, k.cursor, .sending x⟩ := rfl
          refine withTask_announces task ?_ sending
          simp [withTask, (post?_streamer posted).2.2]
      · exact dropped
      · split
        · exact abortJob_announces task
        · exact .still rfl
  | sending x =>
    dsimp only
    split
    · exact .still rfl
    · rcases use_cases s (.job k.job.number) .stats (·.countSent x)
        (fun s => (s.withTask
          { k with stage := .awaiting x (s.streamer.timeout.map (s.now + ·)) }).again
            (.job k.job.number)) with h | ⟨u, hu, h⟩
      · exact .still h.2.2.1
      · rw [h]
        refine withTask_announces task ?_ rfl
        simp [withTask, countSent_streamer, hu]
    · exact abortJob_announces task
    · exact (failJob_announces task .ready _).reorder rfl
  | awaiting x deadline =>
    dsimp only
    split
    · next a _ =>
      cases a with
      | ok =>
        refine ⟨[.progress ⟨k.cursor + 1, k.job.lines.length⟩], rfl,
          .advance (k := k) ?_ none, by simp [Permits]⟩
        exact ⟨task, rfl, rfl, rfl, rfl, rfl⟩
      | error code =>
        refine ⟨[.lineError k.cursor code, .progress ⟨k.cursor + 1, k.job.lines.length⟩], ?_,
          .advance (k := k) ?_ (some code), by simp [Permits]⟩
        · simp [advanceCursor, announce, withTask]
        · exact ⟨task, rfl, rfl, rfl, rfl, rfl⟩
    · exact abortJob_announces task
    · split
      · exact dropped
      · split
        · exact failJob_announces task _ _
        · exact .still rfl

end Task

/-- A new call does nothing to the job streamer yet. -/
theorem next_call_streamer (s : Session) (i : Nat) (c : Call) :
    (s.next (.call i c)).streamer = s.streamer := by
  show Session.streamer (if _ then _ else _) = _
  split
  · rfl
  · exact (alike_wake _ _).2.2.1

/-- The device does nothing to the job streamer. -/
theorem next_device_streamer (s : Session) (i : Nat) (d : DeviceAction) :
    (s.next (.device i d)).streamer = s.streamer := by
  show Session.streamer (if _ then _ else _) = _
  split
  · rfl
  · unfold deviceAct
    split
    · rfl
    · cases d with
      | send | hangUp | failRead | unstall => exact (alike_wake _ _).2.2.1
      | _ => rfl

/-- **Every event announces what it does to the job streamer.** -/
theorem next_announces (s : Session) (e : Event) : s.Announces e (s.next e) := by
  have other (streamer : (s.next e).streamer = s.streamer) : s.Announces e (s.next e) :=
    .still streamer
  cases e with
  | act a =>
    cases a with
    | call i => exact callTurn_announces s i
    | job n =>
      show s.Announces _ (s.jobTurn n)
      unfold jobTurn
      split
      · next k found => exact taskTurn_announces (Option.filter_eq_some_iff.mp found).1
      · exact .still rfl
    | poller n => exact other (congrArg Controlled.streamer (pollerTurn_controlled s n))
    | refresher n => exact other (congrArg Controlled.streamer (refresherTurn_controlled s n))
    | writer => exact other (congrArg Controlled.streamer (writerTurn_controlled s))
    | reader => exact other (congrArg Controlled.streamer (readerTurn_controlled s))
  | call i c => exact other (next_call_streamer s i c)
  | device i d => exact other (next_device_streamer s i d)
  | observe => exact .silent (EventBus.drain_log _ 0) (.refl _) rfl
  | schedule | elapse => exact other rfl

end Session

end Cnc
