import Mathlib.Data.List.Induction
import Cnc.Proofs.Consignments

/-!
# Streaming a job, line by line

Jobs are numbered in the order in which they are started, and `launched` are
their programs. As long as a write that fails has sent nothing, the lines of
every job go over the wire in order, each at most once and each handed over
only after the one before was answered; the reported cursor counts the
answers that the streaming task has received; and no line of an earlier job
follows one of a later job (`Session.jobs_in_order`).
-/

namespace Cnc

open Traffic

namespace Session

/-- The program that a call starts in an event. -/
def launch? (s : Session) (e : Event) : Option String :=
  match e with
  | .act (.call i) =>
    if (s.next e).streamer.started = s.streamer.started then none
    else match s.stage? i with
      | some (.begin (.control (.start program))) => some program
      | some (.turn (.start program)) => some program
      | _ => none
  | _ => none

/-- **The programs that are started** in a run, in order. -/
def launched (s : Session) (es : List Event) : List String :=
  (s.history es).filterMap fun h => h.1.launch? h.2

/-- The line of the `n`-th job whose acknowledgement the task of the job receives in an event. -/
def taken? (s : Session) (n : Nat) (e : Event) : Option Nat :=
  if e = .act (.job n) then
    (s.task? n).bind fun k =>
      match k.stage with
      | .awaiting x _ => (s.ackFor? k).map fun _ => x
      | _ => none
  else none

/-- **The lines of the `n`-th job whose acknowledgements its task receives** in a run, in order. -/
def taken (s : Session) (es : List Event) (n : Nat) : List Nat :=
  (s.history es).filterMap fun h => h.1.taken? n h.2

theorem launched_concat (s : Session) (es : List Event) (e : Event) :
    s.launched (es ++ [e]) = s.launched es ++ ((s.after es).launch? e).toList := by
  rw [launched, history_concat, List.filterMap_append, launched]
  cases h : (s.after es).launch? e <;> simp [h]

theorem taken_concat (s : Session) (es : List Event) (e : Event) (n : Nat) :
    s.taken (es ++ [e]) n = s.taken es n ++ ((s.after es).taken? n e).toList := by
  rw [taken, history_concat, List.filterMap_append, taken]
  cases h : (s.after es).taken? n e <;> simp [h]

/-- **What is known of jobs and their progress**, when some programs were started and the
acknowledgements of some lines were taken. -/
structure Paced (s : Session) (programs : List String) (taken : Nat → List Nat) : Prop where
  governed : Governed s.stage? s.streamer.core
  tracked : s.link.traffic.Tracked (programs.map Job.linesOf) s.streamer.core.task
  count : programs.length = s.streamer.core.started
  job : ∀ j, s.streamer.core.job = some j →
    (programs.map Job.linesOf)[j.number]? = some j.lines ∧
      s.streamer.core.progress = ⟨(taken j.number).length, j.lines.length⟩ ∧
      (taken j.number).length ≤ j.lines.length
  cursor : ∀ k, s.streamer.core.task = some k → k.cursor = (taken k.job.number).length
  first : ∀ n, taken n <+: s.link.traffic.sentBy (.job n)

variable {s : Session} {programs : List String} {taken : Nat → List Nat}

/-- Only a payload's sender hands it over. -/
theorem Does.of_post {e : Event} {a : Actor} {p : Payload} (does : s.Does e (.post a p)) :
    e = .act a := by
  cases does with
  | post => rfl
  | write own => exact absurd own (by simp [Deed.byWriter])

/-- What the device does is an event of its own. -/
theorem Does.of_device {e : Event} {d : DeviceAction} (does : s.Does e (.device d)) :
    ∃ i, e = .device i d := by
  cases does with
  | device i => exact ⟨i, rfl⟩
  | write own => exact absurd own (by simp [Deed.byWriter])

/-- **What does not come from the streaming task** leaves the lines of jobs as they go. -/
theorem next_tracked {lines : List (List String)} {task : Option StreamTask}
    (tracked : s.link.traffic.Tracked lines task) {e : Event} (notJob : ∀ n, e ≠ .act (.job n))
    (whole : ∀ i n, e ≠ .device i (.failFlushes (n + 1))) :
    (s.next e).link.traffic.Tracked lines task := by
  obtain ⟨ds, moves, does⟩ := next_trades s e
  refine moves.tracked tracked ?_ ?_
  · rintro d hd n p rfl
    exact notJob n (does _ hd).of_post
  · rintro d hd n rfl
    obtain ⟨i, rfl⟩ := (does _ hd).of_device
    cases n with
    | zero => rfl
    | succ n => exact absurd rfl (whole i n)

/-- **What neither starts a job nor takes an acknowledgement** keeps what is known of jobs. -/
theorem Paced.still {t : Session} (paced : s.Paced programs taken)
    (governed : Governed t.stage? t.streamer.core)
    (tracked : t.link.traffic.Tracked (programs.map Job.linesOf) t.streamer.core.task)
    (started : t.streamer.core.started = s.streamer.core.started)
    (job : ∀ j, t.streamer.core.job = some j →
      s.streamer.core.job = some j ∧ t.streamer.core.progress = s.streamer.core.progress)
    (cursor : ∀ k, t.streamer.core.task = some k →
      ∃ k', s.streamer.core.task = some k' ∧ k.job = k'.job ∧ k.cursor = k'.cursor)
    (grown : ∀ n, s.link.traffic.sentBy (.job n) <+: t.link.traffic.sentBy (.job n)) :
    t.Paced programs taken where
  governed := governed
  tracked := tracked
  count := by rw [started, paced.count]
  job j now := by
    obtain ⟨before, progress⟩ := job j now
    rw [progress]
    exact paced.job j before
  cursor k now := by
    obtain ⟨k', before, same, cursor⟩ := cursor k now
    rw [same, cursor]
    exact paced.cursor k' before
  first n := (paced.first n).trans (grown n)

/-! ## Taking an acknowledgement -/

/-- The streaming task is the task of its job. -/
theorem task?_number {k : StreamTask} (task : s.streamer.task = some k) :
    s.task? k.job.number = some k := by
  rw [task?, task, Option.filter_some]
  simp

/-- A streaming task that finds no acknowledgement takes none. -/
theorem taken?_of_noAck {k : StreamTask} (task : s.streamer.task = some k)
    (noAck : s.ackFor? k = none) (n : Nat) : s.taken? n (.act (.job k.job.number)) = none := by
  unfold taken?
  split
  · next same =>
    obtain rfl : k.job.number = n := by simpa using same
    rw [task?_number task, Option.bind_some]
    split
    · rw [noAck, Option.map_none]
    · rfl
  · rfl

/-- A streaming task that finds an acknowledgement takes it. -/
theorem taken?_of_ack {k : StreamTask} {x : Nat} {deadline : Option Nat} {a : Ack}
    (task : s.streamer.task = some k) (awaiting : k.stage = .awaiting x deadline)
    (answered : s.link.answer? x = some (.ack a)) (n : Nat) :
    s.taken? n (.act (.job k.job.number)) = if n = k.job.number then some x else none := by
  have ack : s.ackFor? k = some a := by simp only [ackFor?, awaiting, answered]
  unfold taken?
  by_cases same : n = k.job.number
  · subst same
    simp [task?_number task, awaiting, ack]
  · simp [same, Ne.symm same]

/-- **Taking an acknowledgement** advances the cursor past the line that it belongs to. -/
theorem Paced.advance {t : Session} {k : StreamTask} {x : Nat} {deadline : Option Nat} {a : Ack}
    (paced : s.Paced programs taken) (task : s.streamer.core.task = some k)
    (awaiting : k.stage = .awaiting x deadline) (answered : s.link.answer? x = some (.ack a))
    (governed : Governed t.stage? t.streamer.core) (traffic : t.link.traffic = s.link.traffic)
    (core : t.streamer.core = { s.streamer.core with
      progress := ⟨k.cursor + 1, k.job.lines.length⟩
      task := some { k with cursor := k.cursor + 1, stage := .ready } }) :
    t.Paced programs fun n => taken n ++ (if n = k.job.number then some x else none).toList := by
  have tracked := paced.tracked
  rw [task] at tracked
  have expects := tracked.expects awaiting
  have present : s.streamer.core.job = some k.job := paced.governed.task k task
  obtain ⟨program, -, -⟩ := paced.job _ present
  have bound := expects.lt_length tracked.consigned program
  have cursor : k.cursor = (taken k.job.number).length := paced.cursor k task
  have count : (taken k.job.number ++ (some x).toList).length = k.cursor + 1 := by
    rw [List.length_append, cursor]
    rfl
  constructor
  case governed => exact governed
  case tracked =>
    rw [core, traffic]
    exact tracked.advance awaiting ⟨a, answered⟩
  case count =>
    rw [core]
    exact paced.count
  case job =>
    rw [core]
    intro j now
    obtain rfl := Option.some.inj (present.symm.trans now)
    rw [if_pos rfl, count]
    exact ⟨program, rfl, bound⟩
  case cursor =>
    rw [core]
    intro k' same
    obtain rfl := Option.some.inj same
    rw [if_pos rfl, count]
  case first =>
    intro n
    rw [traffic]
    split
    · next same =>
      -- the line is the one after those that were taken before
      subst same
      obtain ⟨⟨before, parts, length, -⟩, -⟩ := expects
      obtain ⟨rest, first⟩ := paced.first k.job.number
      rw [parts] at first
      have equal := List.append_inj first (by rw [length, cursor])
      exact ⟨[], by rw [equal.1, List.append_nil, parts]; rfl⟩
    · rw [Option.toList_none, List.append_nil]
      exact paced.first n

/-- **A turn of the streaming task** keeps what is known of jobs, and takes an acknowledgement if
there is one for its line. -/
theorem Streams.paced {t : Session} {k : StreamTask} (paced : s.Paced programs taken)
    (task : s.streamer.task = some k) (streams : s.Streams k t.link.traffic t.streamer.core)
    (calls : t.calls = s.calls)
    (grown : ∀ n, s.link.traffic.sentBy (.job n) <+: t.link.traffic.sentBy (.job n)) :
    t.Paced programs fun n => taken n ++ (s.taken? n (.act (.job k.job.number))).toList := by
  have own : s.streamer.core.task = some k := task
  have present : s.streamer.core.job = some k.job := paced.governed.task k own
  have last : k.job.number + 1 = (programs.map Job.linesOf).length := by
    rw [List.length_map, paced.count, paced.governed.job _ present]
  have governed : Governed t.stage? t.streamer.core := by
    rw [show t.stage? = s.stage? from funext (stage?_congr calls)]
    exact streams.governed task paced.governed
  have tracked := paced.tracked
  rw [own] at tracked
  generalize core : t.streamer.core = m at streams
  generalize traffic : t.link.traffic = u at streams
  have still (noAck : s.ackFor? k = none)
      (tracked : u.Tracked (programs.map Job.linesOf) m.task)
      (started : m.started = s.streamer.core.started)
      (job : ∀ j, m.job = some j →
        s.streamer.core.job = some j ∧ m.progress = s.streamer.core.progress)
      (cursor : ∀ k', m.task = some k' → k'.job = k.job ∧ k'.cursor = k.cursor) :
      t.Paced programs fun n => taken n ++ (s.taken? n (.act (.job k.job.number))).toList := by
    subst core traffic
    simp only [taken?_of_noAck task noAck, Option.toList_none, List.append_nil]
    exact paced.still governed tracked started job (fun k' now => ⟨k, own, cursor k' now⟩) grown
  -- the task only goes on to another stage
  have stage {k' : StreamTask} (same : k'.job = k.job ∧ k'.cursor = k.cursor) (k'' : StreamTask)
      (now : some k' = some k'') : k''.job = k.job ∧ k''.cursor = k.cursor :=
    Option.some.inj now ▸ same
  cases streams with
  | wait noAck =>
    exact still noAck (by rw [own]; exact tracked) rfl (fun j now => ⟨now, rfl⟩)
      (by rw [own]; exact stage ⟨rfl, rfl⟩)
  | @hand c line here ready next =>
    have move := Move.post (t := s.link.traffic) (.job k.job.number) (.ofLine line) here
    exact still (by rw [ackFor?, ready])
      (tracked.hand move ready last (paced.job _ present).1 next) rfl (fun j now => ⟨now, rfl⟩)
      (stage ⟨rfl, rfl⟩)
  | conclude noAck => exact still noAck (tracked.retask (by simp)) rfl (by simp) (by simp)
  | vanish noAck idle =>
    exact still noAck (tracked.retask (by simp)) rfl (fun j now => ⟨now, rfl⟩) (by simp)
  | sent deadline sending sent =>
    exact still (by rw [ackFor?, sending]) (tracked.sent deadline sending sent) rfl
      (fun j now => ⟨now, rfl⟩) (stage ⟨rfl, rfl⟩)
  | retry sending failed =>
    exact still (by rw [ackFor?, sending]) (tracked.retry sending failed) rfl
      (fun j now => ⟨now, rfl⟩) (stage ⟨rfl, rfl⟩)
  | @late x deadline noAck awaiting =>
    refine still noAck (tracked.retask ?_) rfl (fun j now => ⟨now, rfl⟩) (stage ⟨rfl, rfl⟩)
    rintro k' same
    obtain rfl := Option.some.inj same
    exact .awaiting (tracked.expects awaiting)
  | advance awaiting answered =>
    simp only [taken?_of_ack task awaiting answered]
    exact paced.advance own awaiting answered governed traffic core

/-! ## Starting a job -/

/-- **The turn of a host call starts a job**, or leaves the present job as it is, or ends it. -/
theorem Controls.jobs {i : Nat} {st : Option CallStage} {m : StreamerCore}
    (controls : s.Controls i st m) :
    (∃ program turns, s.HasTurn i (.start program) turns ∧ s.streamer.state = .idle ∧
        m = s.started program turns.tail) ∨
      m.started = s.streamer.core.started ∧
      (m.task = none ∨ m.task = s.streamer.core.task) ∧
      (m.job = none ∨
        m.job = s.streamer.core.job ∧ m.progress = s.streamer.core.progress) := by
  cases controls with
  | wait | aside | count | queue => exact .inr ⟨rfl, .inr rfl, .inr ⟨rfl, rfl⟩⟩
  | steer turn steers =>
    cases steers with
    | start idle lines => exact .inl ⟨_, _, turn, idle, rfl⟩
    | refuse | pause | pauseClosed | resume => exact .inr ⟨rfl, .inr rfl, .inr ⟨rfl, rfl⟩⟩
    | stop => exact .inr ⟨rfl, .inl rfl, .inr ⟨rfl, rfl⟩⟩
    | stopClosed => exact .inr ⟨rfl, .inl rfl, .inl rfl⟩
  | finish stage errand control finishes =>
    cases finishes with
    | aside | resume => exact .inr ⟨rfl, .inr rfl, .inr ⟨rfl, rfl⟩⟩
    | stop => exact .inr ⟨rfl, .inr rfl, .inl rfl⟩

/-- Nothing is started while the number of jobs stays the same. -/
theorem launch?_of_started {e : Event}
    (same : (s.next e).streamer.core.started = s.streamer.core.started) : s.launch? e = none := by
  have same : (s.next e).streamer.started = s.streamer.started := same
  unfold launch?
  split
  · rw [if_pos same]
  · rfl

/-- The program of a call that has its turn is the one that is started. -/
theorem launch?_of_turn {i : Nat} {program : String} {turns rest : List Nat}
    (turn : s.HasTurn i (.start program) turns)
    (core : (s.next (.act (.call i))).streamer.core = s.started program rest) :
    s.launch? (.act (.call i)) = some program := by
  have grown : (s.next (.act (.call i))).streamer.started = s.streamer.started + 1 :=
    congrArg StreamerCore.started core
  simp only [launch?, grown]
  rw [if_neg (by omega)]
  rcases turn with ⟨stage, -⟩ | ⟨stage, -⟩
  · rw [stage]
  · rw [stage]

/-- **Starting a job** adds its program, of which nothing was sent yet. -/
theorem Paced.launch {t : Session} {program : String} {turns : List Nat}
    (paced : s.Paced programs taken) (governed : Governed t.stage? t.streamer.core)
    (tracked : t.link.traffic.Tracked (programs.map Job.linesOf) s.streamer.core.task)
    (core : t.streamer.core = s.started program turns)
    (grown : ∀ n, s.link.traffic.sentBy (.job n) <+: t.link.traffic.sentBy (.job n)) :
    t.Paced (programs ++ [program]) taken := by
  have number : s.streamer.started = (programs.map Job.linesOf).length := by
    rw [List.length_map, paced.count]
    rfl
  have none : (taken s.streamer.started).length = 0 := by
    obtain ⟨rest, first⟩ := paced.first s.streamer.started
    by_contra some
    obtain ⟨x, hx⟩ := List.exists_mem_of_length_pos (Nat.pos_of_ne_zero some)
    have sent := (mem_sentBy.mp (first ▸ List.mem_append_left rest hx)).2
    have := (paced.tracked.consigned.known x _ sent).1
    omega
  constructor
  case governed => exact governed
  case tracked =>
    have launched := tracked.launch (Job.linesOf program)
    rw [← number] at launched
    rw [core, List.map_append]
    exact launched
  case count =>
    rw [core, List.length_append, paced.count]
    rfl
  case job =>
    rw [core]
    intro j now
    obtain rfl := Option.some.inj now
    refine ⟨?_, ?_, ?_⟩
    · rw [List.map_append, number]
      exact List.getElem?_concat_length
    · rw [none]
      rfl
    · rw [none]
      exact Nat.zero_le _
  case cursor =>
    rw [core]
    intro k now
    obtain rfl := Option.some.inj now
    exact none.symm
  case first => exact fun n => (paced.first n).trans (grown n)

/-- **The turn of a host call** keeps what is known of jobs, and may start one. -/
theorem Handles.paced {i : Nat} (paced : s.Paced programs taken)
    (handles : s.Handles i (s.next (.act (.call i)))) :
    (s.next (.act (.call i))).Paced (programs ++ (s.launch? (.act (.call i))).toList) taken := by
  have tracked := next_tracked paced.tracked (e := .act (.call i)) (by simp) (by simp)
  have governed := handles.governed paced.governed
  have onward := (onward_next paced.tracked.filed (.act (.call i))).2
  have grown (n : Nat) := onward.sentBy paced.tracked.filed (.job n)
  rcases handles.1.jobs with ⟨program, turns, turn, -, core⟩ | ⟨started, task, job⟩
  · rw [launch?_of_turn turn core, Option.toList_some]
    exact paced.launch governed tracked core grown
  · rw [launch?_of_started started, Option.toList_none, List.append_nil]
    refine paced.still governed (tracked.retask fun k now => ?_) started (fun j now => ?_)
      (fun k now => ?_) grown
    · rcases task with gone | same
      · exact absurd (gone.symm.trans now) (by simp)
      · exact tracked.stands k (same ▸ now)
    · rcases job with gone | ⟨same, progress⟩
      · exact absurd (gone.symm.trans now) (by simp)
      · exact ⟨same ▸ now, progress⟩
    · rcases task with gone | same
      · exact absurd (gone.symm.trans now) (by simp)
      · exact ⟨k, same ▸ now, rfl, rfl⟩

/-- **Every event keeps what is known of jobs.** -/
theorem next_paced (paced : s.Paced programs taken) {e : Event}
    (whole : ∀ i n, e ≠ .device i (.failFlushes (n + 1))) :
    (s.next e).Paced (programs ++ (s.launch? e).toList) fun n =>
      taken n ++ (s.taken? n e).toList := by
  have governed := next_governed paced.governed e
  have tracked (notJob : ∀ n, e ≠ .act (.job n)) := next_tracked paced.tracked notJob whole
  have onward := (onward_next paced.tracked.filed e).2
  have grown (n : Nat) := onward.sentBy paced.tracked.filed (.job n)
  -- nothing that matters happens to the job streamer
  have aside (notJob : ∀ n, e ≠ .act (.job n))
      (core : (s.next e).streamer.core = s.streamer.core) :
      (s.next e).Paced (programs ++ (s.launch? e).toList) fun n =>
        taken n ++ (s.taken? n e).toList := by
    have none (n : Nat) : s.taken? n e = none := if_neg (notJob n)
    simp only [none, launch?_of_started (congrArg StreamerCore.started core), Option.toList_none,
      List.append_nil]
    refine paced.still governed ?_ (by rw [core]) (fun j now => ?_) (fun k now => ?_) grown
    · rw [core]
      exact tracked notJob
    · rw [core] at now ⊢
      exact ⟨now, rfl⟩
    · rw [core] at now
      exact ⟨k, now, rfl, rfl⟩
  have steps := next_steps s e
  generalize after : s.next e = t at steps
  cases steps with
  | @call i _ handles =>
    subst after
    have none (n : Nat) : s.taken? n (.act (.call i)) = none := if_neg (by simp)
    simp only [none, Option.toList_none, List.append_nil]
    exact handles.paced paced
  | @stream k _ task streams calls =>
    subst after
    have none : s.launch? (.act (.job k.job.number)) = none := rfl
    rw [none, Option.toList_none, List.append_nil]
    exact streams.paced paced task calls grown
  | @gone n none =>
    have taken (m : Nat) : s.taken? m (.act (.job n)) = .none := by
      unfold taken?
      split
      · next same =>
        obtain rfl : n = m := by simpa using same
        rw [none]
        rfl
      · rfl
    simp only [taken, show s.launch? (.act (.job n)) = .none from rfl, Option.toList_none,
      List.append_nil]
    exact paced
  | begin new begun others link core => exact after ▸ aside (by simp) (after ▸ core)
  | aside notJob calls core => exact after ▸ aside notJob (after ▸ core)

theorem paced_initial (timeout : Option Nat) : (initial timeout).Paced [] fun _ => [] where
  governed := governed_initial timeout
  tracked :=
    { filed := filed_initial timeout
      slotted := slotted_initial timeout
      steady := by simp [Traffic.Steady, initial, Link.traffic, Link.initial]
      consigned := by
        constructor <;> simp [initial, Link.traffic, Link.initial, Traffic.sender?, Traffic.sentBy,
          Traffic.OnWay]
      stands := by simp [initial, Streamer.initial, Streamer.core] }
  count := rfl
  job := by simp [initial, Streamer.initial, Streamer.core]
  cursor := by simp [initial, Streamer.initial, Streamer.core]
  first n := List.nil_prefix

/-- **What is known of jobs after a run** in which no write that fails has sent anything. -/
theorem paced_after (timeout : Option Nat) {es : List Event}
    (whole : ∀ i n, .device i (.failFlushes (n + 1)) ∉ es) :
    ((initial timeout).after es).Paced ((initial timeout).launched es)
      ((initial timeout).taken es) := by
  induction es using List.reverseRecOn with
  | nil => exact paced_initial timeout
  | append_singleton es e ih =>
    rw [launched_concat, funext (taken_concat _ es e), after_append]
    refine next_paced (ih fun i n there => whole i n (by simp [there])) ?_
    rintro i n rfl
    exact whole i n (by simp)

/-! ## Jobs in order -/

/-- **The jobs of a session are streamed in order**, when some programs were started and the
acknowledgements of some lines were taken. -/
structure InOrder (s : Session) (programs : List String) (taken : Nat → List Nat) : Prop where
  /-- Only what was started is streamed. -/
  started : ∀ n, programs.length ≤ n → s.link.traffic.sentBy (.job n) = []
  /-- The lines of a job that went over the wire are its first lines, each once. -/
  sent : ∀ (n : Nat) program, programs[n]? = some program →
    (s.link.traffic.sentBy (.job n)).map s.link.traffic.payload?
      <+: (Job.linesOf program).map fun line => some (.ofLine line)
  /-- What a job hands over next is the line after those that went over the wire. All of these are
  answered, no other line of the job is on its way, and no other job was started since. -/
  handed : ∀ e n x, s.link.posts.length ≤ x →
    (s.next e).link.traffic.sender? x = some (.job n) →
    n + 1 = programs.length ∧
      (∀ y ∈ s.link.traffic.sentBy (.job n), s.link.traffic.Acked y) ∧
      (∀ y, ¬ s.link.traffic.OnWay (.job n) y) ∧
      ∃ program line, programs[n]? = some program ∧
        (Job.linesOf program)[(s.link.traffic.sentBy (.job n)).length]? = some line ∧
        (s.next e).link.traffic.payload? x = some (.ofLine line)
  /-- The acknowledgements that a job has taken are those of its first lines. -/
  first : ∀ n, taken n <+: s.link.traffic.sentBy (.job n)
  /-- The cursor of the present job counts them. -/
  progress : ∀ job, s.streamer.job = some job →
    ∃ program, programs[job.number]? = some program ∧ job.lines = Job.linesOf program ∧
      s.streamer.progress = ⟨(taken job.number).length, job.lines.length⟩ ∧
      (taken job.number).length ≤ job.lines.length
  /-- A program is started only while no other is streamed. -/
  alone : ∀ e program, s.launch? e = some program → s.streamer.task = none
  /-- Nothing of a job goes over the wire after something of a later job. -/
  ordered : (s.link.traffic.wire.filterMap s.link.traffic.job?).Pairwise (· ≤ ·)

/-- **Only the streaming task hands a line of a job over**, and that is the line at its cursor. -/
theorem hands_of_new {e : Event} {n x : Nat} (new : s.link.posts.length ≤ x)
    (sender : (s.next e).link.traffic.sender? x = some (.job n)) :
    ∃ k line, s.streamer.task = some k ∧ k.job.number = n ∧ k.stage = .ready ∧
      k.job.lines[k.cursor]? = some line ∧
      (s.next e).link.traffic.payload? x = some (.ofLine line) := by
  obtain ⟨ds, moves, does⟩ := next_trades s e
  obtain ⟨p, post⟩ := moves.post_of_new new sender
  obtain rfl := (does _ post).of_post
  -- without a new post there is nothing to show
  have grown : s.link.traffic.posts.length < (s.next (.act (.job n))).link.traffic.posts.length :=
    Nat.lt_of_le_of_lt new (known_of_sender? sender)
  have steps := next_steps s (.act (.job n))
  generalize s.next (.act (.job n)) = t at steps sender grown
  cases steps with
  | gone => exact absurd grown (Nat.lt_irrefl _)
  | aside notJob => exact absurd rfl (notJob n)
  | @stream k _ task streams calls =>
    generalize t.streamer.core = m at streams
    generalize t.link.traffic = u at streams sender grown
    cases streams with
    | @hand c line here ready next =>
      refine ⟨k, line, task, rfl, ready, next, ?_⟩
      obtain rfl : x = s.link.posts.length := by
        have := known_of_sender? sender
        simp only [List.length_append, List.length_singleton] at this
        exact Nat.le_antisymm (Nat.lt_succ_iff.mp this) new
      simp [Traffic.payload?]
    | _ => exact absurd grown (Nat.lt_irrefl _)

/-- What a job hands over next. -/
theorem Paced.handed (paced : s.Paced programs taken) {e : Event} {n x : Nat}
    (new : s.link.posts.length ≤ x)
    (sender : (s.next e).link.traffic.sender? x = some (.job n)) :
    n + 1 = programs.length ∧
      (∀ y ∈ s.link.traffic.sentBy (.job n), s.link.traffic.Acked y) ∧
      (∀ y, ¬ s.link.traffic.OnWay (.job n) y) ∧
      ∃ program line, programs[n]? = some program ∧
        (Job.linesOf program)[(s.link.traffic.sentBy (.job n)).length]? = some line ∧
        (s.next e).link.traffic.payload? x = some (.ofLine line) := by
  obtain ⟨k, line, task, rfl, ready, next, payload⟩ := hands_of_new new sender
  have own : s.streamer.core.task = some k := task
  have present := paced.governed.task k own
  have last := paced.governed.job _ present
  obtain ⟨found, -, -⟩ := paced.job _ present
  rw [List.getElem?_map] at found
  obtain ⟨program, program?, lines⟩ := Option.map_eq_some_iff.mp found
  have stands := paced.tracked.stands k own
  rw [ready] at stands
  cases stands with
  | ready rests =>
    refine ⟨by rw [last, paced.count], rests.acked, rests.free, program, line, program?, ?_,
      payload⟩
    rw [rests.sent, lines]
    exact next

theorem Paced.inOrder (paced : s.Paced programs taken) : s.InOrder programs taken where
  started n beyond := by
    refine List.filter_eq_nil_iff.mpr fun x _ sender => ?_
    have known := (paced.tracked.consigned.known x n (by simpa using sender)).1
    rw [List.length_map] at known
    omega
  sent n program own := by
    exact paced.tracked.consigned.first_lines (by rw [List.getElem?_map, own, Option.map_some])
  handed e n x new sender := paced.handed new sender
  first := paced.first
  progress job now := by
    obtain ⟨found, progress, bound⟩ := paced.job job now
    rw [List.getElem?_map] at found
    obtain ⟨program, program?, lines⟩ := Option.map_eq_some_iff.mp found
    exact ⟨program, program?, lines.symm, progress, bound⟩
  alone e program launch := by
    have steps := next_steps s e
    have unchanged (core : (s.next e).streamer.core = s.streamer.core) :
        s.streamer.task = none := by
      rw [launch?_of_started (congrArg StreamerCore.started core)] at launch
      exact absurd launch (by simp)
    generalize after : s.next e = t at steps unchanged
    cases steps with
    | call handles =>
      rcases handles.1.jobs with ⟨_, _, -, idle, -⟩ | ⟨started, -⟩
      · exact paced.governed.idle idle
      · rw [launch?_of_started (after ▸ started)] at launch
        exact absurd launch (by simp)
    | stream | gone => exact absurd launch (by simp [launch?])
    | begin _ _ _ _ core | aside _ _ core => exact unchanged core
  ordered := paced.tracked.consigned.ordered paced.tracked.filed

/-- **Jobs are streamed in order**, in every run in which no write that fails has sent anything. -/
theorem jobs_in_order (timeout : Option Nat) (es : List Event)
    (whole : ∀ i n, .device i (.failFlushes (n + 1)) ∉ es) :
    ((initial timeout).after es).InOrder ((initial timeout).launched es)
      ((initial timeout).taken es) :=
  (paced_after timeout whole).inOrder

/-- A line of the `n`-th job is handed over, written and answered. -/
def oneLine (n : Nat) : List Event :=
  .act (.job n) :: List.replicate 3 (.act .writer) ++ .act (.job n) ::
    .device 0 (.send "ok\n".toUTF8.toList) :: List.replicate 6 (.act .reader) ++ [.act (.job n)]

/-- One program is streamed to its end, and of another one line. -/
def twoPrograms : List Event :=
  Event.swift 0 (.connect "/dev/mock0" none) ++
    Event.swift 1 (.control (.start "G1 X10\n; edge\nG1 X20")) ++ oneLine 0 ++ oneLine 0 ++
    .act (.job 0) :: Event.swift 2 (.control (.start "M5\n M30")) ++ oneLine 1

/-- The two lines of the first program and one of the second went over the wire and were
answered. -/
theorem jobs_in_order_twoPrograms :
    (∀ i n, .device i (.failFlushes (n + 1)) ∉ twoPrograms) ∧
      ((initial none).after twoPrograms).InOrder ["G1 X10\n; edge\nG1 X20", "M5\n M30"]
        ((initial none).taken twoPrograms) ∧
      ((initial none).after twoPrograms).link.wire = [0, 1, 2] ∧
      (initial none).taken twoPrograms 0 = [0, 1] ∧ (initial none).taken twoPrograms 1 = [2] := by
  have whole : ∀ i n, .device i (.failFlushes (n + 1)) ∉ twoPrograms := by
    simp [twoPrograms, oneLine, Event.swift]
  have launched : (initial none).launched twoPrograms
      = ["G1 X10\n; edge\nG1 X20", "M5\n M30"] := by decide +kernel
  refine ⟨whole, ?_, by decide +kernel, by decide +kernel, by decide +kernel⟩
  rw [← launched]
  exact jobs_in_order none twoPrograms whole

end Session

end Cnc
