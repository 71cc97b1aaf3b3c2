import Cnc.Proofs.Streaming

/-!
# Who controls the job streamer

A call whose realtime command is on its way keeps its turn, so nobody else
starts, pauses, resumes or stops a job meanwhile (`Governed.turn`). A stop
ends the streaming task before its reset is sent, and no other task begins
until the job is dropped. This is why an idle job streamer has no task
(`Governed.idle`), and why a job never starts while another is streamed.
-/

namespace Cnc

/-- **The state of the job streamer fits what the calls are doing.** -/
structure Governed (stage? : Nat → Option CallStage) (m : StreamerCore) : Prop where
  /-- A call whose command is on its way has its turn. -/
  turn : ∀ i st, stage? i = some st → st.controls = true → m.turns.head? = some i
  /-- While a stop is on its way, nothing is streamed. -/
  stopped : ∀ i st, stage? i = some st → st.errand? = some .stop → m.task = none
  /-- An idle job streamer has no task. -/
  idle : m.state = .idle → m.task = none
  /-- The job that is streamed is the present one. -/
  task : ∀ k, m.task = some k → m.job = some k.job
  /-- The present job is the one that was started last. -/
  job : ∀ j, m.job = some j → j.number + 1 = m.started

theorem CallStage.controls_of_stop {st : CallStage} (stop : st.errand? = some .stop) :
    st.controls = true := by
  rw [CallStage.controls, stop]
  rfl

namespace Governed

variable {stage? : Nat → Option CallStage} {m : StreamerCore}

/-- Only one call at a time controls a job. -/
theorem alone (governed : Governed stage? m) {i j : Nat} (first : m.turns.head? = some i)
    {st : CallStage} (stage : stage? j = some st) (controls : st.controls = true) : j = i :=
  Option.some.inj ((governed.turn j st stage controls).symm.trans first)

/-- Calls of which none controls a job ask nothing of the job streamer. -/
theorem of_quiet (quiet : ∀ i st, stage? i = some st → st.controls = false)
    (idle : m.state = .idle → m.task = none) (task : ∀ k, m.task = some k → m.job = some k.job)
    (job : ∀ j, m.job = some j → j.number + 1 = m.started) : Governed stage? m where
  turn i st stage controls := absurd controls (by simp [quiet i st stage])
  stopped i st stage stop :=
    absurd (CallStage.controls_of_stop stop) (by simp [quiet i st stage])
  idle := idle
  task := task
  job := job

/-- Calls that carry no errands but the present ones may come and go, and others may join the order
of turns. -/
theorem weaken (governed : Governed stage? m) {stage?' : Nat → Option CallStage} {turns : List Nat}
    (before : ∀ j st, stage?' j = some st → st.controls = true →
      ∃ st', stage? j = some st' ∧ st'.errand? = st.errand?)
    (head : ∀ j, m.turns.head? = some j → turns.head? = some j) :
    Governed stage?' { m with turns } where
  turn j st stage controls := by
    obtain ⟨st', earlier, errand⟩ := before j st stage controls
    exact head j (governed.turn j st' earlier (by rwa [CallStage.controls, errand]))
  stopped j st stage stop := by
    obtain ⟨st', earlier, errand⟩ := before j st stage (CallStage.controls_of_stop stop)
    exact governed.stopped j st' earlier (errand.trans stop)
  idle := governed.idle
  task := governed.task
  job := governed.job

end Governed

namespace Session

variable {s : Session}

/-- A call that has its turn is the only one that controls a job. -/
theorem HasTurn.alone {i : Nat} {c : Control} {turns : List Nat} (turn : s.HasTurn i c turns)
    (governed : Governed s.stage? s.streamer.core) {j : Nat} {st : CallStage}
    (stage : s.stage? j = some st) : st.controls = false := by
  by_contra controls
  have controls : st.controls = true := by simpa using controls
  have first := governed.turn j st stage controls
  rcases turn with ⟨-, none, -⟩ | ⟨own, head, -⟩
  · have empty : s.streamer.core.turns = [] := none
    rw [empty] at first
    exact absurd first (by simp)
  · obtain rfl := governed.alone head stage controls
    obtain rfl := Option.some.inj (stage.symm.trans own)
    exact absurd controls (by simp [CallStage.controls, CallStage.errand?])

/-- The first in the order of turns, once a call has its turn. -/
theorem HasTurn.head? {i : Nat} {c : Control} {turns : List Nat} (turn : s.HasTurn i c turns) :
    turns.head? = some i := by
  rcases turn with ⟨-, -, rfl⟩ | ⟨-, head, rfl⟩
  · rfl
  · exact head

/-- What a call that has its turn does. -/
theorem Steers.governed {i : Nat} {c : Control} {turns : List Nat}
    {stage?' : Nat → Option CallStage} {st : Option CallStage} {m : StreamerCore}
    (steers : s.Steers turns c st m) (turn : s.HasTurn i c turns)
    (governed : Governed s.stage? s.streamer.core) (own : stage?' i = st)
    (others : ∀ j, j ≠ i → stage?' j = s.stage? j) : Governed stage?' m := by
  have apart (j : Nat) (other : j ≠ i) (st : CallStage) (stage : stage?' j = some st) :
      st.controls = false := turn.alone governed ((others j other).symm.trans stage)
  have quiet (gone : stage?' i = none) (j : Nat) (st : CallStage) (stage : stage?' j = some st) :
      st.controls = false := by
    refine apart j (fun same => ?_) st stage
    rw [same, gone] at stage
    exact absurd stage (by simp)
  -- the call itself has handed its command over
  have handed {x : Nat} {e : Errand} (notStop : e = .stop → m.task = none)
      (sending : stage?' i = some (.sending x e)) (head : m.turns.head? = some i)
      (idle : m.state = .idle → m.task = none) (task : ∀ k, m.task = some k → m.job = some k.job)
      (job : ∀ j, m.job = some j → j.number + 1 = m.started) : Governed stage?' m := by
    refine ⟨fun j st stage controls => ?_, fun j st stage stop => ?_, idle, task, job⟩
    · by_cases same : j = i
      · rw [same, head]
      · exact absurd controls (by simp [apart j same st stage])
    · by_cases same : j = i
      · rw [same, sending] at stage
        obtain rfl := Option.some.inj stage
        exact notStop (Option.some.inj stop)
      · exact absurd (CallStage.controls_of_stop stop) (by simp [apart j same st stage])
  cases steers with
  | refuse => exact .of_quiet (quiet own) governed.idle governed.task governed.job
  | start idle lines =>
    exact .of_quiet (quiet own) (by simp [started]) (by simp [started]) (by simp [started])
  | pause running =>
    exact handed (by simp) own turn.head? (by simp) governed.task governed.job
  | pauseClosed running => exact .of_quiet (quiet own) (by simp) governed.task governed.job
  | resume paused => exact handed (by simp) own turn.head? governed.idle governed.task governed.job
  | stop active => exact handed (fun _ => rfl) own turn.head? (fun _ => rfl) (by simp) governed.job
  | stopClosed active => exact .of_quiet (quiet own) (fun _ => rfl) (by simp) (by simp)

/-- What a call that controls a job does when it finishes. -/
theorem Finishes.governed {i : Nat} {e : Errand} {stage?' : Nat → Option CallStage} {st : CallStage}
    {m : StreamerCore} (finishes : s.Finishes e m) (governed : Governed s.stage? s.streamer.core)
    (stage : s.stage? i = some st) (errand : st.errand? = some e) (control : e.isControl = true)
    (gone : stage?' i = none) (others : ∀ j, j ≠ i → stage?' j = s.stage? j) :
    Governed stage?' m := by
  have controls : st.controls = true := by
    rw [CallStage.controls, errand]
    exact control
  have quiet (j : Nat) (st' : CallStage) (stage' : stage?' j = some st') :
      st'.controls = false := by
    by_cases same : j = i
    · rw [same, gone] at stage'
      exact absurd stage' (by simp)
    · by_contra busy
      rw [others j same] at stage'
      exact same (governed.alone (governed.turn i st stage controls) stage' (by simpa using busy))
  cases finishes with
  | aside other => exact .of_quiet quiet governed.idle governed.task governed.job
  | resume => exact .of_quiet quiet (by simp) governed.task governed.job
  | stop =>
    -- the task ended when the stop began
    have none := governed.stopped i st stage errand
    exact .of_quiet quiet (fun _ => none) (fun k task => absurd (none.symm.trans task) (by simp))
      (by simp)

/-- **What the turn of a host call keeps.** -/
theorem Handles.governed {i : Nat} {t : Session} (handles : s.Handles i t)
    (governed : Governed s.stage? s.streamer.core) : Governed t.stage? t.streamer.core := by
  obtain ⟨controls, others⟩ := handles
  -- a call that is or gets out of the way of the job streamer
  have before {st : Option CallStage} (own : t.stage? i = st)
      (after : st.any CallStage.controls = false) (j : Nat) (st' : CallStage)
      (stage : t.stage? j = some st') (busy : st'.controls = true) :
      ∃ st'', s.stage? j = some st'' ∧ st''.errand? = st'.errand? := by
    by_cases same : j = i
    · rw [same, own] at stage
      rw [stage, Option.any_some, busy] at after
      exact absurd after (by simp)
    · exact ⟨st', by rwa [others j same] at stage, rfl⟩
  generalize own : t.stage? i = st at controls
  generalize t.streamer.core = m at controls
  cases controls with
  | wait =>
    have same : t.stage? = s.stage? := by
      funext j
      by_cases h : j = i
      · rw [h, own]
      · exact others j h
    exact same ▸ governed
  | aside _ after => exact governed.weaken (before own after) fun _ head => head
  | @count x e stage sent =>
    refine governed.weaken (fun j st' stage' _ => ?_) fun _ head => head
    by_cases same : j = i
    · rw [same, own] at stage'
      obtain rfl := Option.some.inj stage'
      exact ⟨.sending x e, by rw [same, stage], rfl⟩
    · exact ⟨st', by rwa [others j same] at stage', rfl⟩
  | queue stage taken =>
    refine governed.weaken (before own rfl) fun j head => ?_
    rw [List.head?_append]
    simp [show s.streamer.turns.head? = some j from head]
  | steer turn steers => exact steers.governed turn governed own others
  | finish stage errand control finishes =>
    exact finishes.governed governed stage errand control own others

/-- What the turn of the streaming task keeps. -/
theorem Streams.governed {k : StreamTask} {t : Traffic} {m : StreamerCore}
    (streams : s.Streams k t m) (task : s.streamer.task = some k)
    (governed : Governed s.stage? s.streamer.core) :
    Governed s.stage? m := by
  have own : s.streamer.core.task = some k := task
  have notIdle : s.streamer.core.state ≠ .idle := fun idle => by
    rw [governed.idle idle] at own
    exact absurd own (by simp)
  -- while there is a task, no stop is on its way
  have notStopped (j : Nat) (st : CallStage) (stage : s.stage? j = some st) :
      st.errand? ≠ some .stop := fun stop => by
    rw [governed.stopped j st stage stop] at own
    exact absurd own (by simp)
  have keeps {m : StreamerCore} (turns : m.turns = s.streamer.core.turns)
      (idle : m.state = .idle → m.task = none) (task : ∀ k, m.task = some k → m.job = some k.job)
      (job : ∀ j, m.job = some j → j.number + 1 = m.started) : Governed s.stage? m :=
    { turn := fun j st stage busy => by rw [turns]; exact governed.turn j st stage busy
      stopped := fun j st stage stop => absurd stop (notStopped j st stage)
      idle := idle
      task := task
      job := job }
  have present (k' : StreamTask) (same : k'.job = k.job) :
      s.streamer.core.job = some k'.job := by
    rw [governed.task k own, same]
  cases streams with
  | wait => exact governed
  | hand | sent | advance =>
    refine keeps rfl (fun idle => absurd idle notIdle) ?_ governed.job
    intro k' new
    obtain rfl := Option.some.inj new
    exact present _ rfl
  | conclude => exact keeps rfl (fun _ => rfl) (by simp) (by simp)
  | vanish => exact keeps rfl (fun _ => rfl) (by simp) governed.job
  | retry | late =>
    refine keeps rfl (by simp) ?_ governed.job
    intro k' new
    obtain rfl := Option.some.inj new
    exact present _ rfl

/-- **Every event leaves the job streamer governed.** -/
theorem next_governed (governed : Governed s.stage? s.streamer.core) (e : Event) :
    Governed (s.next e).stage? (s.next e).streamer.core := by
  have steps := next_steps s e
  generalize s.next e = t at steps
  cases steps with
  | call handles => exact handles.governed governed
  | stream task streams calls =>
    rw [show t.stage? = s.stage? from funext (stage?_congr calls)]
    exact streams.governed task governed
  | gone => exact governed
  | @begin i c _ new begun others link core =>
    rw [core]
    refine governed.weaken (fun j st stage busy => ?_) fun _ head => head
    by_cases same : j = i
    · rw [same, begun] at stage
      obtain rfl := Option.some.inj stage
      exact absurd busy (by simp [CallStage.controls, CallStage.errand?])
    · exact ⟨st, by rwa [others j same] at stage, rfl⟩
  | aside notJob calls core =>
    rw [core, show t.stage? = s.stage? from funext (stage?_congr calls)]
    exact governed

theorem governed_initial (timeout : Option Nat) :
    Governed (initial timeout).stage? (initial timeout).streamer.core := by
  constructor <;> simp [initial, Streamer.initial, Streamer.core, stage?]

/-- **In every session that can be reached, the job streamer is governed.** -/
theorem governed_after (timeout : Option Nat) (es : List Event) :
    Governed ((initial timeout).after es).stage? ((initial timeout).after es).streamer.core :=
  after_induction (P := fun s => Governed s.stage? s.streamer.core) (governed_initial timeout)
    (fun _ e governed => next_governed governed e) es

end Session

end Cnc
