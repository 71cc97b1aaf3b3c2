import Mathlib.Data.List.Induction
import Cnc.Proofs.Announcements
import Cnc.Proofs.Prompt

/-!
# What is told of a job from its start to its end

Whoever listens to the job streamer can follow each job from what is told:
the start with the number of lines, then the progress line by line, each
rejection right before the progress past its line, and at last the
completion right after the progress past the last line, or an abortion, or
nothing more. A `Tale` is what may be told of one job after its start, and
what is told in a run is one tale after the other
(`Session.tales_in_order`).

The events that only tell of a state are left out here.
-/

namespace Cnc

namespace JobEvent

/-- Whether an event only tells of a state of the job streamer. -/
def isState : JobEvent → Bool
  | .state _ => true
  | _ => false

/-- The progress that is told. -/
def progress? : JobEvent → Option JobProgress
  | .progress p => some p
  | _ => none

end JobEvent

/-- What is told of jobs, apart from the states of the job streamer. -/
def jobNews (log : List JobEvent) : List JobEvent := log.filter fun d => !d.isState

theorem jobNews_append (log more : List JobEvent) :
    jobNews (log ++ more) = jobNews log ++ jobNews more := List.filter_append _ _

/-- **What may be told of a job with `total` lines** after its start. -/
structure Tale (total : Nat) (body : List JobEvent) : Prop where
  /-- No other job is started meanwhile. -/
  single : ∀ n, .started n ∉ body
  /-- The progress is told line by line. -/
  counted : ∃ cursor ≤ total,
    body.filterMap JobEvent.progress? = (List.range' 1 cursor).map (⟨·, total⟩)
  /-- A rejection is told right before the progress past the line. -/
  rejected : ∀ i line code, body[i]? = some (.lineError line code) →
    body[i + 1]? = some (.progress ⟨line + 1, total⟩)
  /-- The completion is told right after the progress past the last line. -/
  completes : ∀ i, body[i]? = some (.progress ⟨total, total⟩) →
    body[i + 1]? = some (.completed total)
  /-- It is told at no other time, and of all lines. -/
  completed : ∀ i n, body[i]? = some (.completed n) →
    n = total ∧ ∃ j, i = j + 1 ∧ body[j]? = some (.progress ⟨total, total⟩)
  /-- Nothing is told after the completion or an abortion, so there is at most one of these. -/
  ended : ∀ i d, body[i]? = some d → d.isTerminal = true → body.length = i + 1

/-! ## How a tale is told -/

/-- What stands in a list stays there when more is added. -/
theorem getElem?_kept {α : Type*} {xs : List α} {i : Nat} {d : α} (at_ : xs[i]? = some d)
    (more : List α) :
    (xs ++ more)[i]? = some d := by
  obtain ⟨bound, -⟩ := List.getElem?_eq_some_iff.mp at_
  rwa [List.getElem?_append_left bound]

/-- What stands in a list with one more member. -/
theorem getElem?_concat_cases {α : Type*} {xs : List α} {x d : α} {i : Nat}
    (at_ : (xs ++ [x])[i]? = some d) : xs[i]? = some d ∨ i = xs.length ∧ d = x := by
  rw [List.getElem?_append] at at_
  split at at_
  · exact .inl at_
  · next beyond =>
    obtain ⟨zero, rfl⟩ := List.getElem?_eq_some_iff.mp at_
    simp only [List.length_singleton] at zero
    exact .inr ⟨by omega, by simp⟩

/-- **What has been told of a job** of which `cursor` lines were answered. -/
inductive Telling (total : Nat) : Nat → List JobEvent → Prop
  | start : Telling total 0 []
  | answer {cursor : Nat} {body : List JobEvent} (told : Telling total cursor body)
      (left : cursor < total) (rejection : Option UInt16) :
    Telling total (cursor + 1)
      (body ++ (rejection.map (JobEvent.lineError cursor)).toList
        ++ [.progress ⟨cursor + 1, total⟩])
  | fail {cursor : Nat} {body : List JobEvent} (told : Telling total cursor body)
      (left : cursor < total) (reason : String) : Telling total cursor (body ++ [.failed reason])

/-- **How a tale may end** when `cursor` lines were answered. -/
inductive TaleEnd (total cursor : Nat) : List JobEvent → Prop
  | broken (left : cursor < total) : TaleEnd total cursor []
  | aborted (left : cursor < total) : TaleEnd total cursor [.aborted]
  | completed (done : cursor = total) (some_ : 0 < total) :
    TaleEnd total cursor [.completed total]

namespace Telling

variable {total cursor : Nat} {body ending : List JobEvent}

/-- While a job is told of, its end is not told. -/
theorem open_ (telling : Telling total cursor body) :
    ∀ d ∈ body, d.isTerminal = false ∧ ∀ n, d ≠ .started n := by
  induction telling with
  | start => simp
  | answer _ _ rejection ih =>
    intro d member
    rcases List.mem_append.mp member with before | last
    · rcases List.mem_append.mp before with early | rejected
      · exact ih d early
      · obtain ⟨code, -, rfl⟩ : ∃ code, rejection = some code ∧ JobEvent.lineError _ code = d := by
          simpa using rejected
        exact ⟨rfl, by simp⟩
    · rw [List.mem_singleton.mp last]
      exact ⟨rfl, by simp⟩
  | fail _ _ reason ih =>
    intro d member
    rcases List.mem_append.mp member with early | last
    · exact ih d early
    · rw [List.mem_singleton.mp last]
      exact ⟨rfl, by simp⟩

/-- The progress that was told, in order. -/
theorem progress (telling : Telling total cursor body) : cursor ≤ total ∧
    body.filterMap JobEvent.progress? = (List.range' 1 cursor).map (⟨·, total⟩) := by
  induction telling with
  | start => exact ⟨Nat.zero_le _, rfl⟩
  | answer _ left rejection ih =>
    refine ⟨left, ?_⟩
    have quiet (line : Nat) :
        (rejection.map (JobEvent.lineError line)).toList.filterMap JobEvent.progress? = [] := by
      cases rejection <;> rfl
    rw [List.filterMap_append, List.filterMap_append, ih.2, quiet, List.append_nil,
      List.range'_concat, List.map_append, Nat.one_mul, Nat.add_comm 1]
    rfl
  | fail _ left reason ih =>
    refine ⟨Nat.le_of_lt left, ?_⟩
    rw [List.filterMap_append, ih.2]
    exact List.append_nil _

/-- Rejections are told right before the progress. -/
theorem rejected (telling : Telling total cursor body) :
    ∀ i line code, body[i]? = some (.lineError line code) →
      body[i + 1]? = some (.progress ⟨line + 1, total⟩) := by
  induction telling with
  | start => simp
  | @answer cursor body _ _ rejection ih =>
    intro i line code at_
    rcases getElem?_concat_cases at_ with before | ⟨-, other⟩
    · cases rejection with
      | none =>
        rw [Option.map_none, Option.toList_none, List.append_nil] at before ⊢
        exact getElem?_kept (ih i line code before) _
      | some code' =>
        rcases getElem?_concat_cases before with early | ⟨rfl, same⟩
        · exact getElem?_kept (getElem?_kept (ih i line code early) _) _
        · obtain ⟨rfl, -⟩ := JobEvent.lineError.inj same
          simp
    · exact absurd other (by simp)
  | fail _ _ reason ih =>
    intro i line code at_
    rcases getElem?_concat_cases at_ with early | ⟨-, other⟩
    · exact getElem?_kept (ih i line code early) _
    · exact absurd other (by simp)

/-- The progress past the last line is told last. -/
theorem past_last (telling : Telling total cursor body) :
    ∀ i, body[i]? = some (.progress ⟨total, total⟩) → cursor = total ∧ body.length = i + 1 := by
  induction telling with
  | start => simp
  | @answer cursor body _ left rejection ih =>
    intro i at_
    rcases getElem?_concat_cases at_ with before | ⟨rfl, same⟩
    · -- the progress told before is not that far
      have early : body[i]? = some (.progress ⟨total, total⟩) := by
        cases rejection with
        | none => simpa using before
        | some code => exact (getElem?_concat_cases before).resolve_right fun h => by simp at h
      exact absurd (ih i early).1 (Nat.ne_of_lt left)
    · refine ⟨?_, by rw [List.length_append]; rfl⟩
      have far := congrArg JobProgress.cursor (JobEvent.progress.inj same)
      exact far.symm
  | fail _ left reason ih =>
    intro i at_
    rcases getElem?_concat_cases at_ with early | ⟨-, other⟩
    · exact absurd (ih i early).1 (Nat.ne_of_lt left)
    · exact absurd other (by simp)

/-- When all lines were answered, the progress past the last line was told last. -/
theorem last_of_done (telling : Telling total cursor body) (done : cursor = total)
    (some_ : 0 < total) : ∃ before, body = before ++ [.progress ⟨total, total⟩] := by
  cases telling with
  | start => exact absurd done (Nat.ne_of_lt some_)
  | answer _ _ rejection => exact ⟨_, by rw [done]⟩
  | fail _ left => exact absurd done (Nat.ne_of_lt left)

/-- **What has been told, with an end, is a tale.** -/
theorem tale (telling : Telling total cursor body) (ends : TaleEnd total cursor ending) :
    Tale total (body ++ ending) := by
  have going {i : Nat} {d : JobEvent} (at_ : body[i]? = some d) : d.isTerminal = false :=
    (telling.open_ d (List.mem_of_getElem? at_)).1
  -- what stands in a tale was told while the job was told of, or is the end
  have cases_at {i : Nat} {d : JobEvent} (at_ : (body ++ ending)[i]? = some d) :
      body[i]? = some d ∨ i = body.length ∧ ending = [d] := by
    cases ends with
    | broken => exact .inl (by rwa [List.append_nil] at at_)
    | aborted | completed =>
      exact (getElem?_concat_cases at_).imp_right fun ⟨last, same⟩ => ⟨last, by rw [same]⟩
  constructor
  case single =>
    intro n member
    rcases List.mem_append.mp member with early | last
    · exact (telling.open_ _ early).2 n rfl
    · cases ends <;> simp at last
  case counted =>
    have quiet : ending.filterMap JobEvent.progress? = [] := by cases ends <;> rfl
    refine ⟨cursor, telling.progress.1, ?_⟩
    rw [List.filterMap_append, telling.progress.2, quiet, List.append_nil]
  case rejected =>
    intro i line code at_
    rcases cases_at at_ with early | ⟨-, rfl⟩
    · exact getElem?_kept (telling.rejected i line code early) _
    · cases ends
  case completes =>
    intro i at_
    rcases cases_at at_ with early | ⟨-, rfl⟩
    · obtain ⟨done, length⟩ := telling.past_last i early
      cases ends with
      | broken left | aborted left => exact absurd done (Nat.ne_of_lt left)
      | completed => simp [← length]
    · cases ends
  case completed =>
    intro i n at_
    rcases cases_at at_ with early | ⟨last, rfl⟩
    · exact absurd (going early) (by simp [JobEvent.isTerminal])
    · cases ends with
      | completed done some_ =>
        obtain ⟨before, parts⟩ := telling.last_of_done done some_
        exact ⟨rfl, before.length, by simp [last, parts], by simp [parts]⟩
  case ended =>
    intro i d at_ terminal
    rcases cases_at at_ with early | ⟨last, rfl⟩
    · exact absurd (going early) (by simp [terminal])
    · simp [last]

end Telling

/-! ## One tale after the other -/

/-- What is told of jobs with these numbers of lines, in order. -/
def narrate (jobs : List (Nat × List JobEvent)) : List JobEvent :=
  jobs.flatMap fun j => .started j.1 :: j.2

theorem narrate_concat (jobs : List (Nat × List JobEvent)) (total : Nat) (body : List JobEvent) :
    narrate (jobs ++ [(total, body)]) = narrate jobs ++ .started total :: body := by
  simp [narrate]

namespace StreamerCore

variable {m m' : StreamerCore} {told new : List JobEvent}

/-- **What has been told** when the job streamer is at `m`: one tale after the other, and what there
is to tell so far of the job that is streamed. -/
inductive Narrated (m : StreamerCore) (told : List JobEvent) : Prop
  | between (none : m.task = none) (jobs : List (Nat × List JobEvent))
      (parts : told = narrate jobs) (tales : ∀ j ∈ jobs, Tale j.1 j.2)
  | during {k : StreamTask} (task : m.task = some k) (lines : k.job.lines ≠ [])
      (jobs : List (Nat × List JobEvent)) (body : List JobEvent)
      (parts : told = narrate jobs ++ .started k.job.lines.length :: body)
      (tales : ∀ j ∈ jobs, Tale j.1 j.2) (telling : Telling k.job.lines.length k.cursor body)

/-- The completion that the streaming task is about to tell. -/
def toTell (m : StreamerCore) : List JobEvent :=
  (m.concluding?.map fun k => .completed k.job.lines.length).toList

/-- A state that is set is no news. -/
theorem jobNews_shift (m : StreamerCore) (state : JobState) : jobNews (m.shift state) = [] := by
  unfold shift
  split <;> rfl

/-- What was told of the job that is streamed is a tale, if it ends here. -/
theorem Narrated.tales {k : StreamTask} (narrated : m.Narrated told) (task : m.task = some k)
    {ending : List JobEvent} (ends : TaleEnd k.job.lines.length k.cursor ending) :
    ∃ jobs, told ++ ending = narrate jobs ∧ ∀ j ∈ jobs, Tale j.1 j.2 := by
  cases narrated with
  | between none => exact absurd (none.symm.trans task) (by simp)
  | during task' _ jobs body parts tales telling =>
    cases Option.some.inj (task'.symm.trans task)
    refine ⟨jobs ++ [(k.job.lines.length, body ++ ending)], ?_, fun j member => ?_⟩
    · rw [narrate_concat, parts]
      simp
    · rcases List.mem_append.mp member with before | last
      · exact tales j before
      · obtain rfl := List.mem_singleton.mp last
        exact telling.tale ends

/-- The job that is streamed has lines. -/
theorem Narrated.lines {k : StreamTask} (narrated : m.Narrated told) (task : m.task = some k) :
    0 < k.job.lines.length := by
  cases narrated with
  | between none => exact absurd (none.symm.trans task) (by simp)
  | during task' lines =>
    cases Option.some.inj (task'.symm.trans task)
    exact List.length_pos_iff.mpr lines

/-- How far the job that is streamed has come, its tale may end here. -/
theorem Narrated.ends {k : StreamTask} (narrated : m.Narrated told) (sized : m.Sized)
    (task : m.task = some k) : TaleEnd k.job.lines.length k.cursor m.toTell := by
  unfold toTell
  cases concluding : m.concluding? with
  | none => exact .broken (sized.lt_of_not_concluding task concluding)
  | some k' =>
    obtain ⟨task', -, done⟩ := concluding?_eq_some.mp concluding
    cases Option.some.inj (task'.symm.trans task)
    exact .completed (Nat.le_antisymm (sized k task).1 done) (narrated.lines task)

/-- What was told, with what is just being told, is one tale after the other. -/
theorem Narrated.all (narrated : m.Narrated told) (sized : m.Sized) :
    ∃ jobs, told ++ m.toTell = narrate jobs ∧ ∀ j ∈ jobs, Tale j.1 j.2 := by
  cases task : m.task with
  | some k => exact narrated.tales task (narrated.ends sized task)
  | none =>
    cases narrated with
    | between _ jobs parts tales => exact ⟨jobs, by simp [parts, toTell, concluding?, task], tales⟩
    | during task' => exact absurd (task.symm.trans task') (by simp)

/-- The task is gone when what there was to tell of its job was told. -/
theorem Narrated.close {k : StreamTask} (narrated : m.Narrated told) (task : m.task = some k)
    {ending : List JobEvent} (ends : TaleEnd k.job.lines.length k.cursor ending)
    (gone : m'.task = none) : m'.Narrated (told ++ ending) := by
  obtain ⟨jobs, parts, tales⟩ := narrated.tales task ends
  exact .between gone jobs parts tales

/-- A failure is told while the job is told of. -/
theorem Narrated.fail {k : StreamTask} (narrated : m.Narrated told) (task : m.task = some k)
    (left : k.cursor < k.job.lines.length) (reason : String) :
    m.Narrated (told ++ [.failed reason]) := by
  cases narrated with
  | between none => exact absurd (none.symm.trans task) (by simp)
  | during task' lines jobs body parts tales telling =>
    cases Option.some.inj (task'.symm.trans task)
    exact .during task lines jobs _ (by rw [parts]; simp) tales (telling.fail left reason)

/-- Nothing is told while the task stays with its line, or ends. -/
theorem Narrated.keep (narrated : m.Narrated told)
    (left : ∀ k, m.task = some k → k.cursor < k.job.lines.length)
    (task : ∀ k', m'.task = some k' →
      ∃ k, m.task = some k ∧ k'.job = k.job ∧ k'.cursor = k.cursor) :
    m'.Narrated told := by
  cases now : m'.task with
  | none =>
    cases before : m.task with
    | none =>
      cases narrated with
      | between _ jobs parts tales => exact .between now jobs parts tales
      | during task' => exact absurd (before.symm.trans task') (by simp)
    | some k =>
      have closed := narrated.close before (.broken (left k before)) now
      rwa [List.append_nil] at closed
  | some k' =>
    obtain ⟨k, before, job, cursor⟩ := task k' now
    cases narrated with
    | between none => exact absurd (none.symm.trans before) (by simp)
    | during task' lines jobs body parts tales telling =>
      obtain rfl := Option.some.inj (task'.symm.trans before)
      rw [← job] at lines parts
      rw [← job, ← cursor] at telling
      exact .during now lines jobs body parts tales telling

/-- **What a step tells** goes on with the tales, unless the task is about to conclude. -/
theorem Tells.narrated (tells : m.Tells m' new) (narrated : m.Narrated told) (sized : m.Sized)
    (open_ : m.concluding? = none) (idle : m.state = .idle → m.task = none)
    (idle' : m'.state = .idle → m'.task = none) : m'.Narrated (told ++ jobNews new) := by
  have left (k : StreamTask) (task : m.task = some k) : k.cursor < k.job.lines.length :=
    sized.lt_of_not_concluding task open_
  have quiet (state : JobState) : told ++ jobNews (m.shift state) = told := by
    rw [jobNews_shift, List.append_nil]
  cases tells with
  | silent kept => exact (List.append_nil told).symm ▸ narrated.keep left kept.task
  | shift kept => exact (quiet _).symm ▸ narrated.keep left kept.task
  | fail kept _ reason task =>
    rw [jobNews_append, jobNews_shift]
    exact (narrated.fail task (left _ task) reason).keep left kept.task
  | start begins =>
    have none := idle begins.idle
    cases narrated with
    | during task => exact absurd (none.symm.trans task) (by simp)
    | between _ jobs parts tales =>
      exact .during begins.task begins.nonempty jobs [] (by rw [parts]; rfl) tales .start
  | @advance k advances rejection =>
    have news : jobNews ((rejection.map (JobEvent.lineError k.cursor)).toList
        ++ [.progress ⟨k.cursor + 1, k.job.lines.length⟩])
        = (rejection.map (JobEvent.lineError k.cursor)).toList
          ++ [.progress ⟨k.cursor + 1, k.job.lines.length⟩] := by
      cases rejection <;> rfl
    rw [news]
    cases narrated with
    | between none => exact absurd (none.symm.trans advances.before) (by simp)
    | during task' lines jobs body parts tales telling =>
      cases Option.some.inj (task'.symm.trans advances.before)
      refine .during advances.task lines jobs _ ?_ tales
        (telling.answer (left k advances.before) rejection)
      rw [parts]
      simp
  | complete ends task ready done =>
    have concluding := concluding?_eq_some.mpr ⟨task, ready, done⟩
    exact absurd (open_.symm.trans concluding) (by simp)
  | abort ends task =>
    have news : jobNews (.aborted :: m.shift .idle) = [.aborted] :=
      congrArg (List.cons _) (m.jobNews_shift _)
    rw [news]
    exact narrated.close task (.aborted (left _ task)) (idle' ends.state)
  | stop ends =>
    have news : jobNews (.state .stopped :: m.shift .idle) = [] := m.jobNews_shift _
    rw [news, List.append_nil]
    exact narrated.keep left fun k' now => absurd ((idle' ends.state).symm.trans now) (by simp)

end StreamerCore

namespace Session

open StreamerCore

variable {s : Session} {e : Event}

/-- **What has been told of jobs** in a session, apart from states. -/
def jobsTold (s : Session) : List JobEvent := jobNews s.streamer.events.log

/-- What is told later comes after what was told. -/
theorem jobsTold_next (s : Session) (e : Event) :
    ∃ new, s.streamer.core.Tells (s.next e).streamer.core new ∧
      (s.next e).jobsTold = s.jobsTold ++ jobNews new := by
  obtain ⟨new, log, tells, -⟩ := next_announces s e
  exact ⟨new, tells, by rw [jobsTold, log, jobNews_append, jobsTold]⟩

/-- What is no turn tells nothing of jobs. -/
theorem streamer_of_aside (aside : e.actor? = none) :
    (s.next e).streamer.core = s.streamer.core ∧ (s.next e).jobsTold = s.jobsTold := by
  have same (streamer : (s.next e).streamer = s.streamer) :
      (s.next e).streamer.core = s.streamer.core ∧ (s.next e).jobsTold = s.jobsTold := by
    rw [jobsTold, streamer, jobsTold]
    exact ⟨rfl, rfl⟩
  cases e with
  | act a => exact absurd aside (by simp [Event.actor?])
  | call i c => exact same (next_call_streamer s i c)
  | device i d => exact same (next_device_streamer s i d)
  | observe => exact ⟨rfl, congrArg jobNews (EventBus.drain_log _ 0)⟩
  | schedule | elapse => exact same rfl

/-- **Every event of a prompt run goes on with the tales.** -/
theorem next_narrated (governed : Governed s.stage? s.streamer.core)
    (sized : s.streamer.core.Sized) (narrated : s.streamer.core.Narrated s.jobsTold)
    (prompt : ∀ k ∈ s.streamer.core.concluding?, ∀ a ∈ e.actor?, a = .job k.job.number) :
    (s.next e).streamer.core.Narrated (s.next e).jobsTold := by
  cases concluding : s.streamer.core.concluding? with
  | none =>
    obtain ⟨new, tells, told⟩ := jobsTold_next s e
    rw [told]
    exact tells.narrated narrated sized concluding governed.idle (next_governed governed e).idle
  | some k =>
    cases turn : e.actor? with
    | none =>
      obtain ⟨core, told⟩ := streamer_of_aside (s := s) turn
      rwa [core, told]
    | some a =>
      obtain rfl := prompt k concluding a turn
      obtain rfl : e = .act (.job k.job.number) := by
        cases e with
        | act a => rw [Option.some.inj turn]
        | _ => exact absurd turn (by simp [Event.actor?])
      have task := (concluding?_eq_some.mp concluding).1
      have log := (conclude_ends s (.completed k.job.lines.length)).2
      have told : (s.next (.act (.job k.job.number))).jobsTold
          = s.jobsTold ++ s.streamer.core.toTell := by
        rw [next_concluding concluding, jobsTold, completeJob, log, jobNews_append, toTell,
          concluding]
        exact congrArg _ (congrArg (List.cons _) (jobNews_shift _ _))
      rw [told]
      refine narrated.close task (narrated.ends sized task) ?_
      rw [next_concluding concluding]
      exact completeJob_task s k

theorem sized_after (timeout : Option Nat) (es : List Event) :
    ((initial timeout).after es).streamer.core.Sized :=
  after_induction (P := fun s => s.streamer.core.Sized)
    (fun k task => absurd task (by simp [initial, Streamer.initial, Streamer.core]))
    (fun _ e sized => next_sized sized e) es

/-- **What was told in a prompt run** is one tale after the other. -/
theorem narrated_after (timeout : Option Nat) {es : List Event}
    (prompt : (initial timeout).Prompt es) :
    ((initial timeout).after es).streamer.core.Narrated ((initial timeout).after es).jobsTold := by
  induction es using List.reverseRecOn with
  | nil => exact .between rfl [] rfl (by simp)
  | append_singleton es e ih =>
    obtain ⟨before, last⟩ := prompt_concat.mp prompt
    rw [after_append, after_cons, after_nil]
    exact next_narrated (governed_after timeout es) (sized_after timeout es) (ih before) last

/-! ## A stop -/

/-- **The call `i` is a stop that finds the job active**: it has its turn, and the job streamer is
running or paused. -/
structure FindsActive (s : Session) (i : Nat) : Prop where
  turn : ∃ turns, s.HasTurn i .stop turns
  active : s.streamer.state = .running ∨ s.streamer.state = .paused

theorem control_stop {i : Nat} (active : s.streamer.state = .running ∨ s.streamer.state = .paused) :
    (s.control i .stop).streamer.core.task = none ∧ (s.control i .stop).jobsTold = s.jobsTold := by
  simp only [control, if_pos active]
  unfold sendControl
  cases posted : s.dropTask.post? (.call i) (.realtime .softReset) with
  | none =>
    constructor
    · simp [Streamer.core]
    · have log := (log_concludeEvents s.dropTask).2
      have told : (((s.dropTask.conclude .stopped).finish i
          (.jobError (.link .notConnected))).endTurn).streamer.events.log
          = s.streamer.events.log ++ (.state .stopped :: s.dropTask.streamer.core.shift .idle) := by
        simp [log]
      rw [jobsTold, told, jobNews_append]
      exact (congrArg _ (jobNews_shift s.dropTask.streamer.core _)).trans (List.append_nil _)
  | some r =>
    have streamer : (r.2.setStage i (.sending r.1 .stop)).streamer = s.dropTask.streamer :=
      (post?_streamer posted).2.2
    constructor
    · rw [streamer]
      simp [Streamer.core]
    · rw [jobsTold, streamer]
      simp [jobsTold]

/-- **A stop that finds the job active ends the task** and tells nothing but states. -/
theorem FindsActive.stops {i : Nat} (finds : s.FindsActive i) :
    (s.next (.act (.call i))).streamer.core.task = none ∧
      (s.next (.act (.call i))).jobsTold = s.jobsTold := by
  obtain ⟨turns, ⟨stage, free, -⟩ | ⟨stage, head, -⟩⟩ := finds.turn
  · have queued : s.next (.act (.call i))
        = ({ s with streamer.turns := s.streamer.turns ++ [i] } : Session).control i .stop := by
      show s.callTurn i = _
      simp only [callTurn, stage, beginCall, takeTurn, free, if_true]
    rw [queued]
    exact control_stop finds.active
  · have turn : s.next (.act (.call i)) = s.control i .stop := by
      show s.callTurn i = _
      simp only [callTurn, stage, head, if_true]
    rw [turn]
    exact control_stop finds.active

/-- What is told later comes after what was told. -/
theorem jobsTold_after (s : Session) (es : List Event) :
    ∃ later, (s.after es).jobsTold = s.jobsTold ++ later := by
  induction es generalizing s with
  | nil => exact ⟨[], (List.append_nil _).symm⟩
  | cons e es ih =>
    obtain ⟨new, -, told⟩ := jobsTold_next s e
    obtain ⟨later, rest⟩ := ih (s.next e)
    exact ⟨jobNews new ++ later, by rw [after_cons, rest, told, List.append_assoc]⟩

/-- **While nothing is streamed**, the next that is told is that a job is started. -/
theorem jobsTold_of_no_task (none : s.streamer.core.task = none) (es : List Event) :
    ∃ later, (s.after es).jobsTold = s.jobsTold ++ later ∧
      ∀ d ∈ later.head?, ∃ total, d = .started total := by
  induction es generalizing s with
  | nil => exact ⟨[], (List.append_nil _).symm, by simp⟩
  | cons e es ih =>
    obtain ⟨new, tells, told⟩ := jobsTold_next s e
    have still (gone : (s.next e).streamer.core.task = .none) (silent : jobNews new = []) :
        ∃ later, (s.after (e :: es)).jobsTold = s.jobsTold ++ later ∧
          ∀ d ∈ later.head?, ∃ total, d = .started total := by
      obtain ⟨later, rest, first⟩ := ih gone
      exact ⟨later, by rw [after_cons, rest, told, silent, List.append_nil], first⟩
    have keeps (kept : s.streamer.core.Kept (s.next e).streamer.core) :
        (s.next e).streamer.core.task = .none := by
      by_contra some_
      obtain ⟨k', task'⟩ := Option.ne_none_iff_exists'.mp some_
      obtain ⟨k, task, -⟩ := kept.task k' task'
      exact absurd (none.symm.trans task) (by simp)
    have absent {k : StreamTask} (task : s.streamer.core.task = some k) : False :=
      absurd (none.symm.trans task) (by simp)
    cases tells with
    | silent kept => exact still (keeps kept) rfl
    | shift kept => exact still (keeps kept) (jobNews_shift _ _)
    | @start lines =>
      obtain ⟨later, rest⟩ := jobsTold_after (s.next e) es
      refine ⟨.started lines.length :: later, ?_, by simp⟩
      rw [after_cons, rest, told, List.append_assoc]
      rfl
    | fail _ _ _ task => exact (absent task).elim
    | advance advances => exact (absent advances.before).elim
    | complete _ task | abort _ task => exact (absent task).elim
    | stop ends =>
      refine still (ends.task.elim id fun same => same.trans none) ?_
      exact jobNews_shift _ _

/-- **Jobs are told of one after the other**, each with a tale of its own: this is what is told in
every prompt run, together with the completion that is just being told. And after a stop that found
the job active, whatever it returns, nothing is told before the next job is started. -/
theorem tales_in_order (timeout : Option Nat) (es : List Event)
    (prompt : (initial timeout).Prompt es) :
    let s := (initial timeout).after es
    (∃ jobs, s.jobsTold ++ s.streamer.core.toTell = narrate jobs ∧ ∀ j ∈ jobs, Tale j.1 j.2) ∧
      ∀ fs i gs, es = fs ++ .act (.call i) :: gs → ((initial timeout).after fs).FindsActive i →
        ∃ later, s.jobsTold = ((initial timeout).after fs).jobsTold ++ later ∧
          ∀ d ∈ later.head?, ∃ total, d = .started total := by
  intro s
  constructor
  · exact (narrated_after timeout prompt).all (sized_after timeout es)
  · rintro fs i gs rfl finds
    obtain ⟨gone, silent⟩ := finds.stops
    obtain ⟨later, told, first⟩ := jobsTold_of_no_task gone gs
    refine ⟨later, ?_, first⟩
    rw [← silent, ← told]
    simp [s]

/-- Of two programs the first is streamed to its end, and the second is stopped. -/
def stoppedProgram : List Event := twoPrograms ++ Event.swift 3 (.control .stop)

/-- The first job is told of to its completion. The second one was told of up to the stop. -/
theorem tales_in_order_stoppedProgram :
    (initial none).Prompt stoppedProgram ∧
      ((initial none).after (twoPrograms ++ [.call 3 (.control .stop)])).FindsActive 3 ∧
      ((initial none).after stoppedProgram).jobsTold
        = [.started 2, .progress ⟨1, 2⟩, .progress ⟨2, 2⟩, .completed 2,
            .started 2, .progress ⟨1, 2⟩] ∧
      (∃ jobs, ((initial none).after stoppedProgram).jobsTold = narrate jobs ∧
        ∀ j ∈ jobs, Tale j.1 j.2) ∧
      ∃ later, ((initial none).after stoppedProgram).jobsTold
          = ((initial none).after (twoPrograms ++ [.call 3 (.control .stop)])).jobsTold ++ later ∧
        ∀ d ∈ later.head?, ∃ total, d = .started total := by
  have prompt : (initial none).Prompt stoppedProgram := by decide +kernel
  have finds :
      ((initial none).after (twoPrograms ++ [.call 3 (.control .stop)])).FindsActive 3 :=
    ⟨⟨[3], .inl ⟨by decide +kernel, by decide +kernel, rfl⟩⟩, .inl (by decide +kernel)⟩
  have nothing : ((initial none).after stoppedProgram).streamer.core.toTell = [] := by
    decide +kernel
  have parts : stoppedProgram
      = (twoPrograms ++ [.call 3 (.control .stop)]) ++ .act (.call 3) :: [] := by
    simp [stoppedProgram, Event.swift]
  obtain ⟨tales, stops⟩ := tales_in_order none stoppedProgram prompt
  rw [nothing, List.append_nil] at tales
  exact ⟨prompt, finds, by decide +kernel, tales, stops _ 3 [] parts finds⟩

end Session

end Cnc
