import Cnc.Proofs.Reachable

/-!
# A pause holds the stream

While a job is paused its task hands no line over. It may still receive the
answer to the line that was on its way when the pause began, so the cursor
grows by at most one. And whenever the task hands a line over, the job is
running and the line is the one at the cursor. So the first line after a pause
follows the last one that was answered, whatever happened meanwhile
(`Session.pause_holds`).

The proof follows the task from the pause on. As long as it hands nothing
over it can only learn what became of the line that it waited for, and once it
has received the answer it waits for nothing (`Session.Trails`).
-/

namespace Cnc

/-- **The progress that is told is that of the task.** -/
def StreamerCore.Abreast (m : StreamerCore) : Prop :=
  ∀ k, m.task = some k → m.progress = ⟨k.cursor, k.job.lines.length⟩

namespace Session

open Traffic

variable {s t : Session} {e : Event}

/-! ## The progress of the task -/

theorem next_abreast (governed : Governed (s.next e).stage? (s.next e).streamer.core)
    (abreast : s.streamer.core.Abreast) : (s.next e).streamer.core.Abreast := by
  intro k own
  obtain ⟨told, -, tells, -⟩ := next_announces s e
  have kept (kept : s.streamer.core.Kept (s.next e).streamer.core) :
      (s.next e).streamer.core.progress = ⟨k.cursor, k.job.lines.length⟩ := by
    obtain ⟨k', before, job, cursor⟩ := kept.task k own
    rw [kept.progress, abreast k' before, job, cursor]
  have job := governed.task k own
  cases tells with
  | silent same | shift same | fail same => exact kept same
  | start begins =>
    obtain rfl := Option.some.inj (begins.task.symm.trans own)
    exact begins.progress
  | advance advances =>
    obtain rfl := Option.some.inj (advances.task.symm.trans own)
    exact advances.progress
  | complete ends | abort ends | stop ends => exact absurd (ends.job.symm.trans job) (by simp)

theorem Reachable.abreast (reachable : s.Reachable) : s.streamer.core.Abreast := by
  obtain ⟨timeout, es, rfl⟩ := reachable
  induction es using List.reverseRecOn with
  | nil => exact fun k own => absurd own (by simp [initial, Streamer.initial, Streamer.core])
  | append_singleton es e ih =>
    have governed := governed_after timeout (es ++ [e])
    rw [after_append, after_cons, after_nil] at governed ⊢
    exact next_abreast governed ih

/-! ## Handing a line over -/

/-- **The `n`-th job hands a line over** in an event, which gets the ticket `x`. -/
def HandsLine (s : Session) (e : Event) (n x : Nat) : Prop :=
  s.link.posts.length ≤ x ∧ (s.next e).link.traffic.sender? x = some (.job n)

/-- The task of a job that is not running hands nothing over. -/
theorem handOver_posts {k : StreamTask} {line : String} (held : s.streamer.state ≠ .running) :
    (s.handOver k line).link.posts = s.link.posts := by
  unfold handOver
  split
  · next running => exact absurd running held
  · simp
  · split
    · simp [abortJob, announce]
    · rfl

/-- **A line is handed over only while the job runs**, and it is the line at the cursor. -/
theorem HandsLine.at_cursor {n x : Nat} (hands : s.HandsLine e n x) (reachable : s.Reachable) :
    s.streamer.state = .running ∧ ∃ job line, s.streamer.job = some job ∧ job.number = n ∧
      job.lines[s.streamer.progress.cursor]? = some line ∧
      (s.next e).link.traffic.payload? x = some (.ofLine line) := by
  obtain ⟨k, line, task, rfl, ready, next, payload⟩ := hands_of_new hands.1 hands.2
  have progress : s.streamer.progress = _ := reachable.abreast k task
  refine ⟨by_contra fun held => ?_, k.job, line, reachable.governed.task k task, rfl, ?_, payload⟩
  · obtain ⟨ds, moves, does⟩ := next_trades s e
    obtain ⟨p, post⟩ := moves.post_of_new hands.1 hands.2
    obtain rfl := (does _ post).of_post
    have turn : s.next (.act (.job k.job.number)) = s.handOver k line := by
      show s.jobTurn k.job.number = _
      simp only [jobTurn, task?_number task, taskTurn, ready, next]
    have known := known_of_sender? hands.2
    rw [turn] at known
    have same : (s.handOver k line).link.traffic.posts = s.link.posts := handOver_posts held
    rw [same] at known
    exact absurd hands.1 (Nat.not_le.mpr known)
  · rw [progress]
    exact next

/-- **No job hands a line over** in a run. -/
def Silent (s : Session) (es : List Event) : Prop :=
  ∀ h ∈ s.history es, ∀ n x, ¬ h.1.HandsLine h.2 n x

theorem silent_concat {es : List Event} :
    s.Silent (es ++ [e]) ↔ s.Silent es ∧ ∀ n x, ¬ (s.after es).HandsLine e n x := by
  simp only [Silent, history_concat, List.forall_mem_append, List.forall_mem_singleton]

/-! ## What the task learns without handing anything over -/

/-- **The answer to the line on its way** in `s` was received in `t`. -/
def LineAnswered (s t : Session) : Prop :=
  ∃ k x, s.streamer.task = some k ∧ k.stage.ticket? = some x ∧ t.link.traffic.Acked x

/-- **The cursor grows by at most one**, for the line that was on its way. -/
def Gains (s t : Session) : Prop :=
  t.streamer.progress = s.streamer.progress ∨
    t.streamer.progress = ⟨s.streamer.progress.cursor + 1, s.streamer.progress.total⟩ ∧
      s.LineAnswered t

/-- **A task that has handed nothing over** since `s` waits for the line that it waited for, or for
nothing. -/
structure Trails (s t : Session) : Prop where
  gains : s.Gains t
  task : ∀ k, t.streamer.task = some k → k.stage = .ready ∨
    t.streamer.progress = s.streamer.progress ∧
      ∃ k', s.streamer.task = some k' ∧ k.stage.ticket? = k'.stage.ticket?

theorem eq_ready_of_ticket? {st : StreamStage} (none : st.ticket? = none) : st = .ready := by
  cases st with
  | ready => rfl
  | sending x | awaiting x deadline => exact absurd none (by simp [StreamStage.ticket?])

theorem Trails.refl (s : Session) : s.Trails s where
  gains := .inl rfl
  task k own := .inr ⟨rfl, k, own, rfl⟩

/-- The task goes on waiting for the same line, or for nothing. -/
theorem Trails.still {u : Session} (trails : s.Trails t)
    (progress : u.streamer.core.progress = t.streamer.core.progress)
    (acked : ∀ x, t.link.traffic.Acked x → u.link.traffic.Acked x)
    (task : ∀ k, u.streamer.core.task = some k → k.stage = .ready ∨
      ∃ k', t.streamer.core.task = some k' ∧ k.stage.ticket? = k'.stage.ticket?) :
    s.Trails u where
  gains := by
    rcases trails.gains with same | ⟨more, k, x, own, ticket, answered⟩
    · exact .inl (Eq.trans progress same)
    · exact .inr ⟨Eq.trans progress more, k, x, own, ticket, acked x answered⟩
  task k own := by
    rcases task k own with ready | ⟨k', before, ticket⟩
    · exact .inl ready
    · rcases trails.task k' before with ready | ⟨same, first⟩
      · refine .inl (eq_ready_of_ticket? ?_)
        rw [ticket, ready]
        rfl
      · exact .inr ⟨Eq.trans progress same, ticket ▸ first⟩

/-- **An event in which no line is handed over** and the job lasts. -/
theorem Trails.next (trails : s.Trails t) (reachable : t.Reachable)
    (silent : ∀ n x, ¬ t.HandsLine e n x) {j : Job} (job : t.streamer.job = some j)
    (lasts : (t.next e).streamer.job = some j) : s.Trails (t.next e) := by
  have acked (x : Nat) : t.link.traffic.Acked x → (t.next e).link.traffic.Acked x :=
    fun ⟨a, told⟩ => ⟨a, (slotted_after reachable.filed reachable.slotted [e]).2 x _ told⟩
  have steps := next_steps t e
  generalize after : t.next e = u at steps acked lasts
  have unchanged (core : u.streamer.core = t.streamer.core) : s.Trails u :=
    trails.still (by rw [core]) acked fun k own => .inr ⟨k, core ▸ own, rfl⟩
  cases steps with
  | call handles =>
    rcases handles.1.jobs with ⟨-, -, -, idle, -⟩ | ⟨-, task, gone | ⟨-, progress⟩⟩
    · exact absurd ((reachable.kempt.idle idle).symm.trans job) (by simp)
    · exact absurd (gone.symm.trans lasts) (by simp)
    · refine trails.still progress acked fun k own => ?_
      rcases task with none | same
      · exact absurd (none.symm.trans own) (by simp)
      · exact .inr ⟨k, same ▸ own, rfl⟩
  | @stream k _ task streams =>
    have own : t.streamer.core.task = some k := task
    have abreast := reachable.abreast k own
    -- the task goes on to a stage in which it waits for the same line, or for nothing
    have stage {k' : StreamTask} (core : u.streamer.core.progress = t.streamer.core.progress)
        (now : u.streamer.core.task = some k')
        (waits : k'.stage = .ready ∨ k'.stage.ticket? = k.stage.ticket?) : s.Trails u :=
      trails.still core acked fun k'' own' => by
        obtain rfl := Option.some.inj (now.symm.trans own')
        exact waits.imp_right fun same => ⟨k, own, same⟩
    generalize core : u.streamer.core = m at streams stage
    generalize traffic : u.link.traffic = v at streams
    cases streams with
    | wait => exact unchanged core
    | @hand c line here ready next =>
      refine absurd ⟨Nat.le_refl _, ?_⟩ (silent k.job.number t.link.posts.length)
      rw [after, traffic]
      simp [Traffic.sender?]
    | conclude => exact absurd ((congrArg StreamerCore.job core).symm.trans lasts) (by simp)
    | vanish =>
      refine trails.still (by rw [core]) acked fun k' own' => ?_
      rw [core] at own'
      exact absurd own' (by simp)
    | sent deadline stage' => exact stage rfl rfl (.inr (by rw [stage']; rfl))
    | retry => exact stage rfl rfl (.inl rfl)
    | late noAck stage' => exact stage rfl rfl (.inr (by rw [stage']; rfl))
    | @advance x deadline a awaiting answered =>
      have progress : u.streamer.progress = ⟨k.cursor + 1, k.job.lines.length⟩ :=
        congrArg StreamerCore.progress core
      have before : t.streamer.progress = ⟨k.cursor, k.job.lines.length⟩ := abreast
      rcases trails.task k task with ready | ⟨same, k', first, ticket⟩
      · exact absurd (awaiting.symm.trans ready) (by simp)
      · refine ⟨.inr ⟨?_, k', x, first, ?_, acked x ⟨a, answered⟩⟩, fun k'' own' => .inl ?_⟩
        · rw [progress, ← same, before]
        · rw [← ticket, awaiting]
          rfl
        · have own'' : u.streamer.core.task = some k'' := own'
          rw [core] at own''
          obtain rfl := Option.some.inj own''
          rfl
  | gone => exact unchanged rfl
  | begin _ _ _ _ core | aside _ _ core => exact unchanged core

/-- **A run in which nothing is handed over** and the job lasts. -/
theorem trails_after (reachable : s.Reachable) {es : List Event} (silent : s.Silent es) {j : Job}
    (lasts : ∀ fs, fs <+: es → (s.after fs).streamer.job = some j) : s.Trails (s.after es) := by
  induction es using List.reverseRecOn with
  | nil => exact .refl s
  | append_singleton es e ih =>
    obtain ⟨before, now⟩ := silent_concat.mp silent
    have first := ih before fun fs some => lasts fs (some.trans (List.prefix_append _ _))
    have job := lasts es (List.prefix_append _ _)
    have job' := lasts (es ++ [e]) List.prefix_rfl
    rw [after_append, after_cons, after_nil] at job' ⊢
    exact first.next (reachable.after es) now job job'

/-! ## While the job is paused -/

/-- **The state is paused** all along a run. -/
def StaysPaused (s : Session) (es : List Event) : Prop :=
  ∀ fs, fs <+: es → (s.after fs).streamer.state = .paused

theorem StaysPaused.init {es : List Event} (paused : s.StaysPaused (es ++ [e])) :
    s.StaysPaused es :=
  fun fs some => paused fs (some.trans (List.prefix_append _ _))

theorem StaysPaused.silent {es : List Event} (reachable : s.Reachable) (paused : s.StaysPaused es) :
    s.Silent es := by
  induction es using List.reverseRecOn with
  | nil => simp [Silent]
  | append_singleton es e ih =>
    refine silent_concat.mpr ⟨ih paused.init, fun n x hands => ?_⟩
    have running := (hands.at_cursor (reachable.after es)).1
    exact absurd (running.symm.trans (paused es (List.prefix_append _ _))) (by simp)

/-- The job stays as long as the state stays paused. -/
theorem next_job (paused : s.streamer.state = .paused)
    (paused' : (s.next e).streamer.state = .paused) :
    (s.next e).streamer.job = s.streamer.job := by
  obtain ⟨told, -, tells, -⟩ := next_announces s e
  cases tells with
  | silent kept | shift kept | fail kept => exact kept.job
  | start begins => exact absurd (paused.symm.trans begins.idle) (by simp)
  | advance advances => exact advances.job
  | complete ends | abort ends | stop ends => exact absurd (paused'.symm.trans ends.state) (by simp)

theorem StaysPaused.job {es : List Event} (paused : s.StaysPaused es) :
    (s.after es).streamer.job = s.streamer.job := by
  induction es using List.reverseRecOn with
  | nil => rfl
  | append_singleton es e ih =>
    have now := paused es (List.prefix_append _ _)
    have then' := paused (es ++ [e]) List.prefix_rfl
    rw [after_append, after_cons, after_nil] at then' ⊢
    exact (next_job now then').trans (ih paused.init)

theorem StaysPaused.gains {es : List Event} (reachable : s.Reachable) (paused : s.StaysPaused es) :
    s.Gains (s.after es) := by
  cases job : s.streamer.job with
  | none =>
    have none (t : Session) (reachable : t.Reachable) (job : t.streamer.job = none) :
        t.streamer.progress = .none := reachable.kempt.none job
    have after := none _ (reachable.after es) (paused.job.trans job)
    exact .inl (after.trans (none s reachable job).symm)
  | some j =>
    refine (trails_after reachable (paused.silent reachable) (j := j) fun fs some => ?_).gains
    exact (StaysPaused.job fun gs first => paused gs (first.trans some)).trans job

/-! ## A pause holds the stream -/

/-- **What a pause does** to the stream, in a run from a session on. -/
structure Pauses (s : Session) (es : List Event) : Prop where
  /-- As long as the state stays paused no line is handed over, the job stays, and the cursor grows
  by at most one, for the answer to the line that was on its way. -/
  held : s.StaysPaused es →
    s.Silent es ∧ (s.after es).streamer.job = s.streamer.job ∧ s.Gains (s.after es)
  /-- The first line that the job hands over then is the one at the cursor, which still has grown by
  at most one, and the job runs again. -/
  resumed : ∀ j, (∀ fs, fs <+: es → (s.after fs).streamer.job = some j) → s.Silent es →
    ∀ e n x, (s.after es).HandsLine e n x →
      n = j.number ∧ (s.after es).streamer.state = .running ∧ s.Gains (s.after es) ∧
        ∃ line, j.lines[(s.after es).streamer.progress.cursor]? = some line ∧
          ((s.after es).next e).link.traffic.payload? x = some (.ofLine line)

/-- **A pause holds the stream**, however it came about and whatever happens meanwhile. -/
theorem pause_holds (timeout : Option Nat) (es fs : List Event) :
    ((initial timeout).after es).Pauses fs := by
  have reachable := Reachable.of_run timeout es
  refine ⟨fun paused => ⟨paused.silent reachable, paused.job, paused.gains reachable⟩, ?_⟩
  intro j lasts silent e n x hands
  obtain ⟨running, job, line, present, rfl, next, payload⟩ := hands.at_cursor (reachable.after fs)
  obtain rfl := Option.some.inj (present.symm.trans (lasts fs List.prefix_rfl))
  exact ⟨rfl, running, (trails_after reachable silent lasts).gains, line, next, payload⟩

/-- A job of two lines is paused while its first line is on its way. -/
def pausedOnTheWay : List Event :=
  Event.swift 0 (.connect "/dev/mock0" none) ++
    Event.swift 1 (.control (.start "G1 X10\nG1 X20")) ++
    .act (.job 0) :: List.replicate 3 (.act .writer) ++ .act (.job 0) ::
    Event.swift 2 (.control .pause) ++ List.replicate 2 (.act .writer) ++
    List.replicate 2 (.act (.call 2))

/-- The line is answered, a foreign one is written, and the task has turns in vain. -/
def answeredInPause : List Event :=
  .device 3 (.send "ok\n".toUTF8.toList) :: List.replicate 6 (.act .reader) ++
    Event.swift 4 (.write "M5") ++ List.replicate 3 (.act .writer) ++
    List.replicate 3 (.act (.job 0))

/-- The job is resumed. -/
def resumedThen : List Event :=
  Event.swift 5 (.control .resume) ++ List.replicate 2 (.act .writer) ++
    List.replicate 2 (.act (.call 5))

-- In the pause the cursor goes on to the second line, which is handed over once the job runs.
example :
    let s := (initial none).after pausedOnTheWay
    let t := s.after answeredInPause
    let u := t.after resumedThen
    (s.streamer.state, s.streamer.progress.cursor) = (.paused, 0) ∧
      (t.streamer.state, t.streamer.progress.cursor) = (.paused, 1) ∧
      (u.streamer.state, u.streamer.progress.cursor) = (.running, 1) ∧
      u.link.posts.length = 4 ∧
      (u.next (.act (.job 0))).link.traffic.sender? 4 = some (.job 0) ∧
      (u.next (.act (.job 0))).link.traffic.payload? 4 = some (.ofLine "G1 X20") := by
  decide +kernel

end Session

end Cnc
