import Cnc.Proofs.Connections
import Cnc.Proofs.LinkLoss
import Cnc.Proofs.Narration
import Cnc.Proofs.Pausing
import Cnc.Proofs.Resets

/-!
# How a pause ends

A paused job is resumed, or a call stops it, or its task aborts it. The task
does so only if it waits in vain: the link is closed, or its line or the
answer to its line is lost. That is never the fault of the traffic alone.
While the job was there, the connection ended or a soft reset gave up the
answers (`Session.cutOff_of_inVain`).

One more way is open. The task looks at the state before it hands a line over,
and after the last line there is none to hand over. So a job whose last answer
comes in during a pause is completed, and the job streamer is idle while the
controller holds its feed. A run in which this does not happen keeps every
paused job resumable, and no other run does (`Session.resumable_iff`).
-/

namespace Cnc

namespace Traffic

variable {t u : Traffic} {d : Deed} {x : Nat}

/-- **A line or its answer is lost**, other than by a failure to write the line. -/
def Gone (t : Traffic) (x : Nat) : Prop :=
  t.delivery? x = some .lost ∨
    t.answer? x = some .lost ∧ ∀ f, t.delivery? x ≠ some (.failed f)

theorem Gone.known (gone : t.Gone x) : x < t.posts.length := by
  rw [← not_le]
  intro unknown
  have absent : t.posts[x]? = none := List.getElem?_eq_none_iff.mpr unknown
  rcases gone with lost | ⟨lost, -⟩
  · simp [Traffic.delivery?, absent] at lost
  · simp [Traffic.answer?, absent] at lost

/-- **The place that is given up is that of the line that was not written.** -/
theorem Move.failed_of_giveUp {y : Nat} (h : Move t (.giveUp y) u) (filed : t.Filed)
    (slotted : t.Slotted) (answered : x ∈ (Deed.giveUp y).answered t) :
    ∃ f, u.delivery? x = some (.failed f) := by
  cases h with
  | @giveUp c _ f here failed =>
    have line : t.isLine y = true := filed.line c y here (.inr ⟨f, failed⟩)
    obtain ⟨⟨before, placed⟩, none⟩ := slotted.holder c y here (by rw [failed]; rfl) line
    have own : t.slots = c.slots := by simp [Traffic.slots, here]
    have last : t.slots.getLast? = some x := by simpa [Deed.answered] using answered
    have unanswered : t.unanswered y = true := by
      by_contra answered'
      rw [own, none (by simpa using answered')] at last
      exact absurd last (by simp)
    have same : x = y := by
      rw [slotted.slots, placed, List.filter_append, List.filter_singleton, unanswered] at last
      simpa using last.symm
    have known : x < t.posts.length := filed.placed_known (by simp [placed, same])
    refine ⟨f, ?_⟩
    rw [same] at known ⊢
    simp [Traffic.delivery?, getElem?_mark, known]

/-- **Lines and answers are lost when the connection ends or the answers are given up.** -/
theorem Move.gone (h : Move t d u) (filed : t.Filed) (slotted : t.Slotted) (gone : u.Gone x) :
    t.Gone x ∨ d = .close ∨ d = .clear := by
  rcases gone with lost | ⟨lost, notFailed⟩
  · rcases h.delivered lost with before | ⟨-, ⟨sent, -⟩ | ⟨w, failed, -⟩ | ⟨-, close⟩⟩
    · exact .inl (.inl before)
    · exact absurd sent (by simp)
    · exact absurd failed (by simp)
    · exact .inr (.inl close)
  · rw [h.answer?] at lost
    split at lost
    · next answered =>
      cases d with
      | clear => exact .inr (.inr rfl)
      | close => exact .inr (.inl rfl)
      | settle a => exact absurd lost (by simp [Deed.answer])
      | giveUp y =>
        obtain ⟨f, failed⟩ := h.failed_of_giveUp filed slotted answered.1
        exact absurd failed (notFailed f)
      | _ => exact absurd answered.1 (by simp [Deed.answered])
    · exact .inl (.inr ⟨lost, fun f failed => notFailed f ((h.onward filed).told x _ failed)⟩)

/-- Moves that do neither lose nothing. -/
theorem Moves.gone {ds : List Deed} (h : Moves t ds u) (filed : t.Filed) (slotted : t.Slotted)
    (harmless : ∀ d ∈ ds, d ≠ .close ∧ d ≠ .clear) (gone : u.Gone x) : t.Gone x := by
  induction h with
  | nil => exact gone
  | cons first _ ih =>
    have before := ih (first.filed filed) (first.slotted filed slotted)
      (fun d member => harmless d (List.mem_cons_of_mem _ member)) gone
    exact (first.gone filed slotted before).resolve_right
      (not_or.mpr (harmless _ List.mem_cons_self))

end Traffic

namespace Session

open Traffic

variable {s s₀ : Session} {e : Event} {es : List Event} {j : Job}

/-! ## Being cut off -/

/-- **What cuts off the jobs of a session**: the connection ends, or the expected answers are given
up after a soft reset. -/
def Cuts (s : Session) (e : Event) : Prop :=
  s.link.connection.isSome = true ∧ (s.next e).link.connection = none ∨
    ∃ i r f, e = .act (.call i) ∧ s.Clears i r f

/-- **The job `j` was cut off** in a run from `s₀`. -/
def CutOff (s₀ : Session) (es : List Event) (j : Job) : Prop :=
  ∃ h ∈ s₀.history es, h.1.streamer.job = some j ∧ h.1.Cuts h.2

theorem CutOff.later (cut : s₀.CutOff es j) (e : Event) : s₀.CutOff (es ++ [e]) j := by
  obtain ⟨h, member, own⟩ := cut
  exact ⟨h, by rw [history_concat]; exact List.mem_append_left _ member, own⟩

theorem CutOff.now (job : (s₀.after es).streamer.job = some j) (cuts : (s₀.after es).Cuts e) :
    s₀.CutOff (es ++ [e]) j :=
  ⟨(s₀.after es, e), by rw [history_concat]; simp, job, cuts⟩

/-- A call gives up the answers because its soft reset was sent. -/
theorem cuts_of_clear (move : Move s.link.traffic .clear (s.next e).link.traffic)
    (does : s.Does e .clear) (changed : (s.next e).link.traffic ≠ s.link.traffic) : s.Cuts e := by
  have isOpen : s.link.traffic.connection.isSome = true := by
    generalize (s.next e).link.traffic = u at move
    cases move with
    | clear here => simp [here]
  cases does with
  | write own => exact absurd own (by simp [Deed.byWriter])
  | @clear i r f stage reset sent =>
    refine .inr ⟨i, r, f, rfl, stage, reset, sent, isOpen, ?_⟩
    have turn : s.next (.act (.call i)) = s.countErrand i r f := by
      show s.callTurn i = _
      simp only [callTurn, stage, sent, Delivery.error?]
    rw [turn] at changed ⊢
    unfold countErrand at changed ⊢
    rw [if_pos reset] at changed ⊢
    rcases use_cases s (.call i) .slots dropAnswers
      (fun s => (s.setStage i (.counting r f)).again (.call i)) with alike | ⟨u, alike, through⟩
    · exact absurd (congrArg Link.traffic alike.2.1) changed
    · have before : (u.dropAnswers.leave .slots).stage? i = some (.sending r f) := by
        have calls := congrArg Controlled.calls (dropAnswers_controlled u)
        rw [(alike_leave _ _).stage?, stage?_congr calls, alike.stage?, stage]
      rw [through, (alike_again _ _).stage?, stage?_setStage, if_pos rfl, before]
      rfl

/-- **A line or its answer is lost only in an event that cuts off.** -/
theorem Reachable.gone_next (reachable : s.Reachable) {x : Nat}
    (gone : (s.next e).link.traffic.Gone x) : s.link.traffic.Gone x ∨ s.Cuts e := by
  by_cases poller : ∃ n, e = .act (.poller n)
  · obtain ⟨n, rfl⟩ := poller
    obtain ⟨ds, moves, does⟩ := next_trades s (.act (.poller n))
    have harmless : ∀ d ∈ ds, d ≠ .close ∧ d ≠ .clear := by
      intro d member
      cases does d member with
      | post | poll => exact ⟨by simp, by simp⟩
    exact .inl (moves.gone reachable.filed reachable.slotted harmless gone)
  · by_cases changed : (s.next e).link.traffic = s.link.traffic
    · exact .inl (changed ▸ gone)
    rcases next_makes s (fun n own => poller ⟨n, own⟩) with same | ⟨d, move, does⟩
    · exact absurd same changed
    · refine (move.gone reachable.filed reachable.slotted gone).imp_right ?_
      rintro (rfl | rfl)
      · left
        show s.link.traffic.connection.isSome = true ∧ (s.next e).link.traffic.connection = none
        generalize (s.next e).link.traffic = u at move
        cases move with
        | close here => simp [here]
      · exact cuts_of_clear move does changed

/-- A job is started on an open link. -/
theorem open_of_started (started : (s.next e).streamer.core.started
    ≠ s.streamer.core.started) : (s.next e).link.connection ≠ none := by
  intro closed
  cases isOpen : s.link.connection with
  | none => exact started (started_of_closed isOpen e)
  | some c =>
    obtain ⟨a, rfl, closing⟩ := closing_of_closed (by simp [isOpen]) closed
    exact started (congrArg (fun m => m.core.started) closing.act.2)

/-! ## Waiting in vain -/

/-- **The task `k` waits in vain**: the link is closed, or its line or the answer to it is lost. -/
def InVain (s : Session) (k : StreamTask) : Prop :=
  match k.stage with
  | .ready => s.link.status.state = .disconnected
  | .sending x => s.link.delivery? x = some .lost
  | .awaiting x _ => s.link.answer? x = some .lost

/-- **What a task lacks, its job was cut off from.** -/
structure Traced (s₀ : Session) (es : List Event) (k : StreamTask) : Prop where
  closed : (s₀.after es).link.connection = none → s₀.CutOff es k.job
  gone : ∀ x, k.stage.ticket? = some x → (s₀.after es).link.traffic.Gone x → s₀.CutOff es k.job

/-- The task goes on waiting for the same line, or for nothing. -/
theorem Traced.next {k k' : StreamTask} (traced : s₀.Traced es k) (same : k'.job = k.job)
    (reachable : (s₀.after es).Reachable) (job : (s₀.after es).streamer.job = some k.job)
    (ticket : ∀ x, k'.stage.ticket? = some x → k.stage.ticket? = some x ∨
      ¬ (s₀.after es).link.traffic.Gone x) : s₀.Traced (es ++ [e]) k' := by
  have last : s₀.after (es ++ [e]) = (s₀.after es).next e := after_append s₀ es [e]
  constructor
  · intro closed
    rw [last] at closed
    rw [same]
    cases isOpen : (s₀.after es).link.connection with
    | none => exact (traced.closed isOpen).later e
    | some c => exact .now job (.inl ⟨by simp [isOpen], closed⟩)
  · intro x waits gone
    rw [last] at gone
    rw [same]
    rcases reachable.gone_next gone with before | cuts
    · rcases ticket x waits with own | new
      · exact (traced.gone x own before).later e
      · exact absurd before new
    · exact .now job cuts

theorem traced_after (timeout : Option Nat) (es : List Event) :
    ∀ k, ((initial timeout).after es).streamer.core.task = some k →
      (initial timeout).Traced es k := by
  induction es using List.reverseRecOn with
  | nil => simp [initial, Streamer.initial, Streamer.core]
  | append_singleton es e ih =>
    generalize initial timeout = s₀, Reachable.of_run timeout es = reachable at ih ⊢
    intro k' task'
    have last : s₀.after (es ++ [e]) = (s₀.after es).next e := after_append s₀ es [e]
    rw [last] at task'
    have goesOn {k : StreamTask} (task : (s₀.after es).streamer.core.task = some k)
        (same : k'.job = k.job) (ticket : ∀ x, k'.stage.ticket? = some x →
          k.stage.ticket? = some x ∨ ¬ (s₀.after es).link.traffic.Gone x) :
        s₀.Traced (es ++ [e]) k' :=
      (ih k task).next same reachable (reachable.governed.task k task) ticket
    have kept (core : ((s₀.after es).next e).streamer.core.task
        = (s₀.after es).streamer.core.task) : s₀.Traced (es ++ [e]) k' :=
      goesOn (core.symm.trans task') rfl fun x waits => .inl waits
    have isOpen := open_of_started (s := s₀.after es) (e := e)
    have steps := next_steps (s₀.after es) e
    generalize (s₀.after es).next e = t at steps task' kept last isOpen
    cases steps with
    | call handles =>
      rcases handles.1.jobs with ⟨program, turns, -, -, core⟩ | ⟨-, task, -⟩
      · rw [core] at task' isOpen
        obtain rfl := Option.some.inj task'
        refine ⟨fun closed => ?_, fun x waits => absurd waits (by simp [StreamStage.ticket?])⟩
        rw [last] at closed
        exact absurd closed (isOpen (by simp [started, Streamer.core]))
      · rcases task with none | same
        · exact absurd (none.symm.trans task') (by simp)
        · exact kept same
    | gone => exact kept rfl
    | begin _ _ _ _ core | aside _ _ core => exact kept (by rw [core])
    | @stream k _ task streams =>
      generalize t.link.traffic = v at streams
      generalize t.streamer.core = m at streams task' kept
      cases streams with
      | wait => exact kept rfl
      | conclude | vanish => exact absurd task' (by simp)
      | hand here ready next =>
        obtain rfl := Option.some.inj task'
        refine goesOn task rfl fun x waits => .inr fun gone => ?_
        obtain rfl := Option.some.inj waits
        exact Nat.lt_irrefl _ gone.known
      | sent deadline stage | late _ stage =>
        obtain rfl := Option.some.inj task'
        exact goesOn task rfl fun x waits => .inl (by rw [stage]; exact waits)
      | retry | advance =>
        obtain rfl := Option.some.inj task'
        exact goesOn task rfl fun x waits => absurd waits (by simp [StreamStage.ticket?])

/-- **A task that waits in vain was cut off.** -/
theorem cutOff_of_inVain (timeout : Option Nat) (es : List Event) {k : StreamTask}
    (task : ((initial timeout).after es).streamer.task = some k)
    (inVain : ((initial timeout).after es).InVain k) : (initial timeout).CutOff es k.job := by
  have traced := traced_after timeout es k task
  have reachable := Reachable.of_run timeout es
  unfold InVain at inVain
  cases stage : k.stage with
  | ready =>
    rw [stage] at inVain
    refine traced.closed (by_contra fun isOpen => ?_)
    exact (lifecycle_after timeout es).isOpen_iff.mp (by simpa [Option.isSome_iff_ne_none])
      inVain
  | sending x =>
    rw [stage] at inVain
    exact traced.gone x (by rw [stage]; rfl) (.inl inVain)
  | awaiting x deadline =>
    rw [stage] at inVain
    have sent := reachable.assigned.sent k x deadline task stage
    refine traced.gone x (by rw [stage]; rfl) (.inr ⟨inVain, fun f failed => ?_⟩)
    exact absurd (sent.symm.trans failed) (by simp)

/-! ## Leaving a pause -/

/-- **How a pause ends** in the event `e` after the run `es`. -/
inductive Leaves (s₀ : Session) (es : List Event) (e : Event) : Prop
  /-- A call resumes the job, which goes on where it was. -/
  | resumed {i : Nat} {st : CallStage} (own : e = .act (.call i))
    (stage : (s₀.after es).stage? i = some st) (resume : st.errand? = some .resume)
    (running : ((s₀.after es).next e).streamer.state = .running)
    (kept : ((s₀.after es).next e).streamer.job = (s₀.after es).streamer.job ∧
      ((s₀.after es).next e).streamer.progress = (s₀.after es).streamer.progress ∧
      ((s₀.after es).next e).streamer.task = (s₀.after es).streamer.task)
  /-- A call stops the job. -/
  | stopped {i : Nat} {st : CallStage} (own : e = .act (.call i))
    (stage : (s₀.after es).stage? i = some st) (stops : st.stops = true)
    (idle : ((s₀.after es).next e).streamer.state = .idle)
  /-- The task aborts the job because it was cut off. -/
  | aborted {j : Job} (own : e = .act (.job j.number))
    (job : (s₀.after es).streamer.job = some j) (cut : s₀.CutOff es j)
    (told : ((s₀.after es).next e).streamer.events.log
      = (s₀.after es).streamer.events.log ++ [.aborted, .state .idle])

/-- **Every pause in a run can be ended by resuming the job**: it ends only if that is done, if the
job is stopped, or if it is aborted because it was cut off. -/
def Resumable (s₀ : Session) (es : List Event) : Prop :=
  ∀ fs e, fs ++ [e] <+: es → (s₀.after fs).streamer.state = .paused →
    ((s₀.after fs).next e).streamer.state ≠ .paused → s₀.Leaves fs e

/-- **The task of a paused job has its turn when all lines are answered.** -/
def Overruns (s : Session) (e : Event) : Prop :=
  s.streamer.state = .paused ∧
    ∃ k, s.streamer.core.concluding? = some k ∧ e = .act (.job k.job.number)

/-- What the task of a paused job can do about the pause. -/
theorem taskTurn_of_paused {k : StreamTask} (paused : s.streamer.state = .paused)
    (left : (s.taskTurn k).streamer.state ≠ .paused) :
    (k.stage = .ready ∧ k.job.lines.length ≤ k.cursor) ∨
      (s.taskTurn k = s.abortJob ∧ s.InVain k) := by
  have failed (u : Session) (reason : String) : (u.failJob reason).streamer.state = .paused := by
    simp [failJob, announce]
  unfold taskTurn at left ⊢
  unfold InVain
  cases stage : k.stage with
  | ready =>
    simp only [stage] at left ⊢
    cases next : k.job.lines[k.cursor]? with
    | none => exact .inl ⟨trivial, List.getElem?_eq_none_iff.mp next⟩
    | some line =>
      simp only [next, handOver, paused] at left ⊢
      split at left
      · next closed => exact .inr ⟨if_pos closed, closed⟩
      · exact absurd paused left
  | sending x =>
    simp only [stage] at left ⊢
    cases delivery : s.link.delivery? x with
    | none =>
      simp only [delivery] at left
      exact absurd paused left
    | some d =>
      cases d with
      | lost => exact .inr ⟨rfl, rfl⟩
      | failed f =>
        simp only [delivery] at left
        exact absurd (failed _ _) left
      | sent =>
        simp only [delivery] at left
        refine absurd (Eq.trans ?_ paused) left
        exact use_keeps (·.streamer.state) (fun h => congrArg Streamer.state h.2.2.1)
          (fun u => congrArg Streamer.state (countSent_streamer u x)) fun u => rfl
  | awaiting x deadline =>
    simp only [stage] at left ⊢
    cases answer : s.link.answer? x with
    | none =>
      simp only [answer, paused] at left
      rw [if_neg (by simp)] at left
      split at left
      · exact absurd (failed _ _) left
      · exact absurd paused left
    | some a =>
      cases a with
      | lost => exact .inr ⟨rfl, rfl⟩
      | ack a =>
        simp only [answer] at left
        cases a <;> exact absurd paused left

theorem stops_of_errand {st : CallStage} (stop : st.errand? = some .stop) : st.stops = true := by
  cases st <;> simp_all [CallStage.errand?, CallStage.stops]

/-- What a host call can do about the pause. -/
theorem leaves_of_call {i : Nat} (handles : (s₀.after es).Handles i ((s₀.after es).next e))
    (own : e = .act (.call i)) (paused : (s₀.after es).streamer.state = .paused)
    (left : ((s₀.after es).next e).streamer.state ≠ .paused) : s₀.Leaves es e := by
  have controls := handles.1
  have left : ((s₀.after es).next e).streamer.core.state ≠ .paused := left
  have paused' : (s₀.after es).streamer.core.state = .paused := paused
  generalize ((s₀.after es).next e).stage? i = st at controls
  generalize core : ((s₀.after es).next e).streamer.core = m at controls left
  have idle (state : m.state = .idle) : ((s₀.after es).next e).streamer.state = .idle :=
    (congrArg StreamerCore.state core).trans state
  cases controls with
  | wait | aside | count | queue => exact absurd paused' left
  | steer turn steers =>
    cases steers with
    | refuse | resume | stop => exact absurd paused' left
    | start free => exact absurd (free.symm.trans paused) (by simp)
    | pause | pauseClosed => exact absurd rfl left
    | stopClosed =>
      rcases turn with ⟨stage, -⟩ | ⟨stage, -⟩
      · exact .stopped own stage rfl (idle rfl)
      · exact .stopped own stage rfl (idle rfl)
  | @finish st e' _ stage errand control finishes =>
    cases finishes with
    | aside => exact absurd paused' left
    | resume =>
      exact .resumed own stage errand (congrArg StreamerCore.state core)
        ⟨congrArg StreamerCore.job core, congrArg StreamerCore.progress core,
          congrArg StreamerCore.task core⟩
    | stop => exact .stopped own stage (stops_of_errand errand) (idle rfl)

/-- The turn of the task that is there. -/
theorem next_of_task {k : StreamTask} (task : s.streamer.task = some k) :
    s.next (.act (.job k.job.number)) = s.taskTurn k := by
  show s.jobTurn k.job.number = _
  rw [jobTurn, task?_number task]

/-- **A pause ends in one of these ways**, or the task of a paused job overruns it. -/
theorem leaves_of_paused (timeout : Option Nat) (es : List Event)
    (paused : ((initial timeout).after es).streamer.state = .paused)
    (left : (((initial timeout).after es).next e).streamer.state ≠ .paused) :
    (initial timeout).Leaves es e ∨ ((initial timeout).after es).Overruns e := by
  have governed := governed_after timeout es
  have steps := next_steps ((initial timeout).after es) e
  generalize next : ((initial timeout).after es).next e = t at steps left
  have still (core : t.streamer.core = ((initial timeout).after es).streamer.core) :
      t.streamer.state = .paused := (congrArg StreamerCore.state core).trans paused
  cases steps with
  | call handles => exact .inl (leaves_of_call (next ▸ handles) rfl paused (next ▸ left))
  | gone => exact absurd paused left
  | begin _ _ _ _ core | aside _ _ core => exact absurd (still core) left
  | @stream k _ task =>
    have turn := next_of_task task
    rw [← next, turn] at left
    rcases taskTurn_of_paused paused left with ⟨ready, done⟩ | ⟨aborts, inVain⟩
    · exact .inr ⟨paused, k, StreamerCore.concluding?_eq_some.mpr ⟨task, ready, done⟩, rfl⟩
    · refine .inl (.aborted rfl (governed.task k task) (cutOff_of_inVain timeout es task inVain) ?_)
      rw [turn, aborts, abortJob, (conclude_ends _ .aborted).2, StreamerCore.shift,
        show ((initial timeout).after es).streamer.core.state = .paused from paused]
      simp

/-- **What overruns a pause completes the job.** -/
theorem Overruns.completes (overruns : s.Overruns e) (reachable : s.Reachable)
    (sized : s.streamer.core.Sized) : s.streamer.progress.cursor = s.streamer.progress.total ∧
      (s.next e).streamer.state = .idle ∧ (s.next e).streamer.job = none ∧
      (s.next e).streamer.events.log
        = s.streamer.events.log ++ [.completed s.streamer.progress.total, .state .idle] := by
  obtain ⟨paused, k, concluding, rfl⟩ := overruns
  obtain ⟨task, ready, done⟩ := StreamerCore.concluding?_eq_some.mp concluding
  have progress : s.streamer.progress = _ := reachable.abreast k task
  obtain ⟨ends, log⟩ := conclude_ends s (.completed k.job.lines.length)
  rw [next_concluding concluding, completeJob, progress]
  refine ⟨Nat.le_antisymm (sized k task).1 done, ends.state, ends.job, ?_⟩
  rw [log, StreamerCore.shift, show s.streamer.core.state = .paused from paused]
  simp

/-- **Which runs keep paused jobs resumable**: those in which no task has its turn when its job is
paused and all lines are answered. Such a turn completes the job, and the job streamer is idle. -/
theorem resumable_iff (timeout : Option Nat) (es : List Event) :
    ((initial timeout).Resumable es ↔
        ∀ fs e, fs ++ [e] <+: es → ¬ ((initial timeout).after fs).Overruns e) ∧
      ∀ fs e, ((initial timeout).after fs).Overruns e →
        let s := (initial timeout).after fs
        s.streamer.progress.cursor = s.streamer.progress.total ∧
          (s.next e).streamer.state = .idle ∧ (s.next e).streamer.job = none ∧
          (s.next e).streamer.events.log
            = s.streamer.events.log ++ [.completed s.streamer.progress.total, .state .idle] := by
  have completes (fs : List Event) (e : Event)
      (overruns : ((initial timeout).after fs).Overruns e) :=
    overruns.completes (Reachable.of_run timeout fs) (sized_after timeout fs)
  refine ⟨⟨fun resumable fs e some overruns => ?_, fun none fs e some paused left => ?_⟩, completes⟩
  · obtain ⟨-, idle, -, log⟩ := completes fs e overruns
    obtain ⟨paused, k, -, own⟩ := overruns
    cases resumable fs e some paused (by simp [idle]) with
    | resumed call | stopped call => exact absurd (own.symm.trans call) (by simp)
    | aborted _ _ _ told =>
      exact absurd (List.append_cancel_left (told.symm.trans log)) (by simp)
  · exact (leaves_of_paused timeout fs paused left).resolve_right (none fs e some)

/-- A job of one line is paused while its line is on its way, and the line is answered. -/
def answeredAtLast : List Event :=
  Event.swift 0 (.connect "/dev/mock0" none) ++ Event.swift 1 (.control (.start "G1 X10")) ++
    .act (.job 0) :: List.replicate 3 (.act .writer) ++ .act (.job 0) ::
    Event.swift 2 (.control .pause) ++ List.replicate 2 (.act .writer) ++
    List.replicate 2 (.act (.call 2)) ++
    .device 3 (.send "ok\n".toUTF8.toList) :: List.replicate 6 (.act .reader) ++ [.act (.job 0)]

/-- The job is completed in the pause. The last command that went over the wire holds the feed, and
resuming is refused. -/
theorem not_resumable_answeredAtLast :
    let s := (initial none).after (answeredAtLast ++ [.act (.job 0)])
    ¬ (initial none).Resumable (answeredAtLast ++ [.act (.job 0)]) ∧
      s.link.wire.getLast?.bind s.link.payload? = some (.realtime .feedHold) ∧
      (s.after (Event.swift 4 (.control .resume))).results.getLast?
        = some (4, .jobError .notPaused) := by
  refine ⟨fun resumable => ?_, by decide +kernel, by decide +kernel⟩
  cases resumable answeredAtLast (.act (.job 0)) List.prefix_rfl (by decide +kernel)
    (by decide +kernel) with
  | resumed own | stopped own => exact absurd own (by simp)
  | aborted _ _ _ told =>
    have completed :
        (((initial none).after answeredAtLast).next (.act (.job 0))).streamer.events.log
          = ((initial none).after answeredAtLast).streamer.events.log
            ++ [.completed 1, .state .idle] := by decide +kernel
    exact absurd (List.append_cancel_left (completed.symm.trans told)) (by simp)

end Session

end Cnc
