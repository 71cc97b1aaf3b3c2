import Cnc.Proofs.Stages

/-!
# What the streaming task does to the job streamer

`Session.Streams` lists what the turn of the streaming task can do to the
traffic and to the job streamer. Apart from that turn and the turns of the
host calls, nothing that happens touches the job streamer, and only a new
call is added (`Session.next_steps`).
-/

namespace Cnc

open Traffic

namespace Session

attribute [local simp] withConnection announce unsubscribe Streamer.core

/-- The acknowledgement that the streaming task `t` receives when it has its turn. -/
def ackFor? (s : Session) (t : StreamTask) : Option Ack :=
  match t.stage with
  | .awaiting x _ => match s.link.answer? x with
    | some (.ack a) => some a
    | _ => none
  | _ => none

/-- **What the turn of the streaming task `t` can do** to the traffic and to the job streamer. -/
inductive Streams (s : Session) (t : StreamTask) : Traffic → StreamerCore → Prop
  | wait (noAck : s.ackFor? t = none) : Streams s t s.link.traffic s.streamer.core
  /-- The line at the cursor is handed over. -/
  | hand {c : Connection} {line : String} (here : s.link.connection = some c)
      (ready : t.stage = .ready) (next : t.job.lines[t.cursor]? = some line) :
    Streams s t
      { s.link.traffic with
        posts := s.link.posts
          ++ [⟨c.number, .job t.job.number, .ofLine line, none, none⟩]
        connection := some (c.enqueue (.ofLine line) s.link.posts.length) }
      { s.streamer.core with task := some { t with stage := .sending s.link.posts.length } }
  /-- The job is complete, or cannot go on. -/
  | conclude (noAck : s.ackFor? t = none) :
    Streams s t s.link.traffic
      { s.streamer.core with state := .idle, progress := .none, job := none, task := none }
  /-- There is no job any more. -/
  | vanish (noAck : s.ackFor? t = none) (idle : s.streamer.state = .idle) :
    Streams s t s.link.traffic { s.streamer.core with task := none }
  | sent {x : Nat} (deadline : Option Nat) (stage : t.stage = .sending x)
      (sent : s.link.delivery? x = some .sent) :
    Streams s t s.link.traffic
      { s.streamer.core with task := some { t with stage := .awaiting x deadline } }
  /-- The line was not written, and is to be handed over again. -/
  | retry {x : Nat} {f : WriteFault} (stage : t.stage = .sending x)
      (failed : s.link.delivery? x = some (.failed f)) :
    Streams s t s.link.traffic
      { s.streamer.core with state := .paused, task := some { t with stage := .ready } }
  /-- The line at the cursor was answered. -/
  | advance {x : Nat} {deadline : Option Nat} {a : Ack} (stage : t.stage = .awaiting x deadline)
      (answered : s.link.answer? x = some (.ack a)) :
    Streams s t s.link.traffic
      { s.streamer.core with
        progress := ⟨t.cursor + 1, t.job.lines.length⟩
        task := some { t with cursor := t.cursor + 1, stage := .ready } }
  /-- The answer is late. -/
  | late {x : Nat} {deadline : Option Nat} (noAck : s.ackFor? t = none)
      (stage : t.stage = .awaiting x deadline) :
    Streams s t s.link.traffic
      { s.streamer.core with state := .paused, task := some { t with stage := .awaiting x none } }

/-- The calls, the job streamer and the results of a session. -/
structure Controlled where
  calls : List (Nat × CallStage)
  streamer : Streamer
  results : List (Nat × Result)

/-- The calls, the job streamer and the results of a session. -/
def controlled (s : Session) : Controlled := ⟨s.calls, s.streamer, s.results⟩

theorem Alike.controlled {s t : Session} (h : s.Alike t) : s.controlled = t.controlled := by
  simp [Session.controlled, h]

theorem post?_controlled {s t : Session} {a : Actor} {p : Payload} {x : Nat}
    (posted : s.post? a p = some (x, t)) : t.controlled = s.controlled := by
  obtain ⟨c, -, made⟩ := Option.map_eq_some_iff.mp posted
  obtain ⟨-, rfl⟩ := Prod.mk.inj made
  exact (alike_wakeAll _ _).controlled

theorem countSent_controlled (s : Session) (x : Nat) :
    (s.countSent x).controlled = s.controlled := by
  unfold countSent
  split <;> rfl

theorem countSent_streamer (s : Session) (x : Nat) : (s.countSent x).streamer = s.streamer :=
  congrArg Controlled.streamer (countSent_controlled s x)

attribute [local simp] withTask completeJob abortJob failJob

theorem abortJob_streams {s : Session} {t : StreamTask} (noAck : s.ackFor? t = none) :
    s.Streams t s.abortJob.link.traffic s.abortJob.streamer.core := by
  simpa [Link.traffic] using Streams.conclude noAck

theorem handOver_streams {s : Session} {t : StreamTask} {line : String}
    (ready : t.stage = .ready) (next : t.job.lines[t.cursor]? = some line) :
    s.Streams t (s.handOver t line).link.traffic (s.handOver t line).streamer.core := by
  have noAck : s.ackFor? t = none := by rw [ackFor?, ready]
  unfold handOver
  cases state : s.streamer.state with
  | running =>
    dsimp only
    cases here : s.link.connection with
    | none =>
      rw [post?_of_closed here]
      exact abortJob_streams noAck
    | some c =>
      obtain ⟨u, posted, alike⟩ := post?_of_open here (.job t.job.number) (.ofLine line)
      rw [posted]
      have hands := Streams.hand (s := s) here ready next
      simpa [Link.traffic, alike] using hands
  | idle =>
    have vanish := Streams.vanish noAck state
    simpa [Link.traffic] using vanish
  | paused =>
    dsimp only
    split
    · exact abortJob_streams noAck
    · exact .wait noAck
  | stopped =>
    dsimp only
    split
    · exact abortJob_streams noAck
    · exact .wait noAck

theorem taskTurn_streams (s : Session) (t : StreamTask) :
    s.Streams t (s.taskTurn t).link.traffic (s.taskTurn t).streamer.core := by
  unfold taskTurn
  dsimp only
  cases stage : t.stage with
  | ready =>
    have noAck : s.ackFor? t = none := by rw [ackFor?, stage]
    dsimp only
    cases next : t.job.lines[t.cursor]? with
    | none => simpa [Link.traffic] using Streams.conclude noAck
    | some line => exact handOver_streams stage next
  | sending x =>
    have noAck : s.ackFor? t = none := by rw [ackFor?, stage]
    dsimp only
    cases delivery : s.link.delivery? x with
    | none => exact .wait noAck
    | some d =>
      cases d with
      | sent =>
        dsimp only
        rcases use_cases s (.job t.job.number) .stats (·.countSent x)
          (fun s => (s.withTask
            { t with stage := .awaiting x (s.streamer.timeout.map (s.now + ·)) }).again
              (.job t.job.number)) with h | ⟨u, hu, h⟩
        · rw [congrArg Link.traffic h.2.1, h.2.2.1]
          exact .wait noAck
        · have sends := Streams.sent (s := s) (s.streamer.timeout.map (s.now + ·)) stage delivery
          have now : (u.countSent x).now = u.now := by
            unfold countSent
            split <;> rfl
          rw [h]
          have traffic : (u.countSent x).link.traffic = s.link.traffic := by
            rw [countSent_traffic, hu.2.1]
          simpa [traffic, countSent_streamer, hu, now] using sends
      | failed f =>
        simpa [Link.traffic] using Streams.retry (s := s) stage delivery
      | lost => exact abortJob_streams noAck
  | awaiting x deadline =>
    dsimp only
    cases answer : s.link.answer? x with
    | none =>
      have noAck : s.ackFor? t = none := by simp only [ackFor?, stage, answer]
      dsimp only
      split
      · next idle => simpa [Link.traffic] using Streams.vanish noAck idle
      · split
        · simpa [Link.traffic] using Streams.late noAck stage
        · exact .wait noAck
    | some a =>
      cases a with
      | ack a =>
        have advances := Streams.advance (s := s) stage answer
        cases a <;> simpa [Link.traffic, advanceCursor] using advances
      | lost => exact abortJob_streams (by simp only [ackFor?, stage, answer])

/-- The streaming task does nothing to a call, and gives no result. -/
theorem taskTurn_aside (s : Session) (t : StreamTask) :
    (s.taskTurn t).calls = s.calls ∧ (s.taskTurn t).results = s.results := by
  unfold taskTurn
  dsimp only
  cases t.stage with
  | ready =>
    dsimp only
    split
    · simp
    · unfold handOver
      split
      · split
        · simp
        · next x u posted =>
          have kept := post?_controlled posted
          exact ⟨congrArg Controlled.calls kept, congrArg Controlled.results kept⟩
      · simp
      · split <;> simp
  | sending x =>
    dsimp only
    split
    · exact ⟨rfl, rfl⟩
    · refine Prod.mk.inj (use_keeps (fun s => (s.calls, s.results)) (fun h => ?_) (fun u => ?_)
        fun u => rfl)
      · rw [h.2.2.2.1, h.2.2.2.2.2.2]
      · exact congrArg (fun c : Controlled => (c.calls, c.results)) (countSent_controlled u x)
    · simp
    · simp
  | awaiting x deadline =>
    dsimp only
    split
    · next a _ => cases a <;> simp [advanceCursor]
    · simp
    · split
      · simp
      · split
        · simp
        · exact ⟨rfl, rfl⟩

/-! ## Everything else -/

/-- **What an event that leads from `s` to `t` does to the job streamer and the calls.** -/
inductive Steps (s : Session) : Event → Session → Prop
  | call {i : Nat} {t : Session} (handles : s.Handles i t) : Steps s (.act (.call i)) t
  | stream {k : StreamTask} {t : Session} (task : s.streamer.task = some k)
      (streams : s.Streams k t.link.traffic t.streamer.core) (calls : t.calls = s.calls) :
    Steps s (.act (.job k.job.number)) t
  /-- The streaming task is gone. -/
  | gone {n : Nat} (none : s.task? n = none) : Steps s (.act (.job n)) s
  | begin {i : Nat} {c : Call} {t : Session} (new : s.stage? i = none)
      (begun : t.stage? i = some (.begin c)) (others : ∀ j, j ≠ i → t.stage? j = s.stage? j)
      (link : t.link = s.link) (core : t.streamer.core = s.streamer.core) :
    Steps s (.call i c) t
  | aside {e : Event} {t : Session} (notJob : ∀ n, e ≠ .act (.job n)) (calls : t.calls = s.calls)
      (core : t.streamer.core = s.streamer.core) : Steps s e t

theorem writerTurn_controlled (s : Session) : s.writerTurn.controlled = s.controlled := by
  have deliver (u : Session) (x : Nat) (d : Delivery) : (u.deliver x d).controlled = u.controlled :=
    (alike_deliver u x d).controlled
  have fail (u : Session) (c : Connection) (x : Nat) (f : WriteFault) :
      (u.failWrite c x f).controlled = u.controlled := by
    unfold failWrite
    split
    · rfl
    · exact deliver _ _ _
  unfold writerTurn
  split
  · rfl
  · split
    · split
      · rfl
      · unfold takePayload
        split <;> rfl
    · exact use_keeps controlled Alike.controlled (fun u => rfl) (fun u => rfl)
    · split
      · rfl
      · unfold attemptWrite
        dsimp only
        split
        · exact fail _ _ _ _
        · split
          · exact fail _ _ _ _
          · exact deliver _ _ _
    · refine use_keeps controlled Alike.controlled (fun u => ?_) (fun u => deliver _ _ _)
      unfold giveUpSlot
      split
      · rfl
      · exact (alike_answer _ _ _).controlled

theorem endConnection_controlled (s : Session) : s.endConnection.controlled = s.controlled := by
  cases here : s.link.connection with
  | none => simp [endConnection, here]
  | some c => exact (alike_endConnection here).controlled

theorem dropAnswers_controlled (s : Session) : s.dropAnswers.controlled = s.controlled := by
  cases here : s.link.connection with
  | none => simp [dropAnswers, here]
  | some c => exact (alike_dropAnswers here).controlled

theorem doChore_controlled (s : Session) (chore : Chore) :
    (s.doChore chore).controlled = s.controlled := by
  cases chore with
  | setStatus status => exact (alike_setStatus s status).controlled
  | publish e => exact (alike_publish s e).controlled
  | settle a =>
    show (s.settleAnswer a).controlled = _
    unfold settleAnswer
    split
    · rfl
    · split
      · rfl
      · exact (alike_answer _ _ _).controlled
  | _ => rfl

theorem readerTurn_controlled (s : Session) : s.readerTurn.controlled = s.controlled := by
  unfold readerTurn
  split
  · rfl
  · split
    · unfold readerChore
      dsimp only
      split
      · exact use_keeps controlled Alike.controlled (fun u => doChore_controlled _ _) (fun u => rfl)
      · exact doChore_controlled _ _
    · rfl
    · rfl
    · exact endConnection_controlled s
    · rfl
    · exact endConnection_controlled s

theorem pollerTurn_controlled (s : Session) (n : Nat) :
    (s.pollerTurn n).controlled = s.controlled := by
  have note (u : Session) (p : Poller) : (u.setPoller p).controlled = u.controlled := by
    unfold setPoller
    split <;> rfl
  unfold pollerTurn
  split
  · rfl
  · split
    · split
      · split
        · rfl
        · next x t posted => exact (note _ _).trans (post?_controlled posted)
      · rfl
    · split
      · rfl
      · dsimp only
        split
        · exact use_keeps controlled Alike.controlled (fun u => countSent_controlled u _)
            (fun u => note _ _)
        · exact note _ _

theorem refresherTurn_controlled (s : Session) (n : Nat) :
    (s.refresherTurn n).controlled = s.controlled := by
  unfold refresherTurn
  split
  · rfl
  · split
    · split
      · split
        · rfl
        · next x t posted => exact (post?_controlled posted :)
      · rfl
    · split
      · rfl
      · split
        · exact use_keeps controlled Alike.controlled (fun u => countSent_controlled u _)
            (fun u => rfl)
        · rfl

theorem Steps.of_controlled {s t : Session} {e : Event} (notJob : ∀ n, e ≠ .act (.job n))
    (h : t.controlled = s.controlled) : s.Steps e t :=
  .aside notJob (congrArg Controlled.calls h) (congrArg (Streamer.core ∘ Controlled.streamer) h)

/-- **Whatever happens next, only a host call and the streaming task do anything to the job
streamer.** -/
theorem next_steps (s : Session) (e : Event) : s.Steps e (s.next e) := by
  cases e with
  | act a =>
    cases a with
    | call i => exact .call (callTurn_handles s i)
    | job n =>
      show s.Steps _ (s.jobTurn n)
      unfold jobTurn
      split
      · next k found =>
        obtain ⟨task, own⟩ := Option.filter_eq_some_iff.mp found
        obtain rfl : k.job.number = n := by simpa using own
        exact .stream task (taskTurn_streams s k) (taskTurn_aside s k).1
      · next none => exact .gone none
    | poller n => exact .of_controlled (by simp) (pollerTurn_controlled s n)
    | refresher n => exact .of_controlled (by simp) (refresherTurn_controlled s n)
    | writer => exact .of_controlled (by simp) (writerTurn_controlled s)
    | reader => exact .of_controlled (by simp) (readerTurn_controlled s)
  | call i c =>
    show s.Steps _ (if _ then _ else _)
    split
    · exact .aside (by simp) rfl rfl
    · next new =>
      have absent : s.stage? i = none := by simpa using new
      have added (j : Nat) : (s.begin i (.call c)).stage? j
          = if j = i then some (.begin c) else s.stage? j :=
        (stage?_congr (alike_wake _ _).2.2.2.1 j).trans (stage?_added absent c j)
      refine .begin absent ?_ (fun j other => ?_) (alike_wake _ _).2.1
        (congrArg Streamer.core (alike_wake _ _).2.2.1)
      · rw [added, if_pos rfl]
      · rw [added, if_neg other]
  | device i d =>
    show s.Steps _ (if _ then _ else _)
    split
    · exact .aside (by simp) rfl rfl
    · refine .of_controlled (by simp) ?_
      unfold deviceAct
      split
      · rfl
      · cases d with
        | send | hangUp | failRead | unstall => exact (alike_wake _ _).controlled
        | _ => rfl
  | schedule => exact .aside (by simp) rfl rfl
  | elapse time => exact .aside (by simp) rfl rfl
  | observe => exact .aside (by simp) rfl rfl

end Session

end Cnc
