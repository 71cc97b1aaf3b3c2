import Cnc.Proofs.Patience
import Cnc.Proofs.Refreshing
import Cnc.Proofs.Tending

/-!
# How a turn ends

When an actor has had its turn, it goes on, or has nothing to do, or waits in
line for a lock, or has given way; and nobody else is left out
(`Session.TurnEnd`). This module follows the reader, the writer, the streaming
task, the pollers and the refreshers to the end of their turns.
-/

namespace Cnc.Session

open Traffic

variable {s t u : Session} {a b : Actor} {cast : Finset Actor}

/-! ## How a turn ends -/

/-- **How a turn of `a` ends**: it goes on, or has nothing to do, or waits for a lock, or has given
way. -/
inductive TurnEnd (cast : Finset Actor) (a : Actor) (t : Session) : Prop
  | goesOn (tended : t.Tended cast a) (acting : t.acting = some a)
  | waits (tended : t.Tended cast a) (waits : t.Waits a)
  | inLine (tended : t.Tended cast a) (attended : t.Attended a)
  | yields {u : Session} (tended : u.Tended cast a) (acting : u.acting = none)
      (same : t = u.giveWay a)

theorem Tended.spend (tended : s.Tended cast a) : s.spend.Tended cast a :=
  tended.quiet (by rfl) (fun _ there => there) rfl fun b _ waits => by cases b <;> exact waits

theorem Tended.act_again (tended : s.Tended cast a) : (s.again a).Tended cast a := by
  refine ⟨.inr rfl, tended.self, tended.present, tended.turns, tended.locks, tended.queue,
    tended.twice, fun b other => ?_⟩
  refine (tended.minded b other).imp (fun atEase => ⟨?_, atEase.2⟩) id
  exact atEase.1.of_alike (alike_again s a)

theorem Tended.again (tended : s.Tended cast a) : TurnEnd cast a (s.again a) :=
  .goesOn tended.act_again rfl

theorem acting_deliver (s : Session) (x : Nat) (d : Delivery) :
    (s.deliver x d).acting = s.acting := by
  unfold deliver
  split
  · rfl
  · dsimp only
    split
    · exact acting_wakeAll _ [_]
    · rfl

/-- **An actor that uses a guarded part** gets through, waits for the lock, or gives way. -/
theorem Tended.use (tended : s.Tended cast a) (acting : s.acting = none) {g : Guarded}
    {inside after : Session → Session}
    (through : ∀ u : Session, u.Alike s → u.Tended cast a →
      TurnEnd cast a (after ((inside u).leave g))) : TurnEnd cast a (s.use a g inside after) := by
  have asked := tended.request g
  unfold Session.use
  dsimp only
  split
  · next hasNot =>
    refine .inLine asked (attended_iff.mpr (.inr ⟨g, ?_⟩))
    rw [Locks.get_set_self]
    exact Lock.mem_line_of_request hasNot
  · split
    · exact .yields asked acting rfl
    · exact through _ ⟨rfl, rfl, rfl, rfl, rfl, rfl, rfl⟩ asked.spend

theorem Owned.withConnection {c : Connection} (owned : s.Owned)
    (here : s.link.connection = some c) (c' : Connection) (pollers : c'.pollers = c.pollers) :
    (s.withConnection c').Owned :=
  owned.of_same rfl rfl rfl
    (fun n p found => by simpa [poller?, Session.withConnection, here, pollers] using found) rfl

/-! ## The reader -/

/-- What is counted or stored concerns nobody. -/
theorem Tended.countSent (tended : s.Tended cast a) (x : Nat) : (s.countSent x).Tended cast a := by
  unfold Session.countSent
  split
  iterate 2
    exact tended.quiet (by rfl) (fun _ there => there) rfl
      fun b _ waits => by cases b <;> exact waits
  · exact tended

theorem Tended.doChore (tended : s.Tended cast a) (owned : s.Owned) (chore : Chore) :
    (s.doChore chore).Tended cast a := by
  cases chore with
  | setStatus status => exact tended.setStatus status
  | publish e => exact tended.publish e
  | settle r =>
    show (s.settleAnswer r).Tended cast a
    unfold settleAnswer
    cases here : s.link.connection with
    | none => exact tended
    | some c =>
      dsimp only
      split
      · exact tended
      · next x rest _ =>
        have there : (s.withConnection { c with slots := rest }).Tended cast a :=
          tended.withConnection here rfl (fun _ => ⟨rfl, rfl, rfl, rfl⟩) fun _ => ⟨rfl, rfl⟩
        exact there.answer (owned.withConnection here _ rfl) x _
  | _ =>
    exact tended.quiet (by rfl) (fun _ there => there) rfl
      fun b _ waits => by cases b <;> exact waits

/-- **The reader** leaves nobody out. -/
theorem readerTurn_ends (tended : s.Tended cast .reader) (acting : s.acting = none)
    (owned : s.Owned) : TurnEnd cast .reader s.readerTurn := by
  have ends : TurnEnd cast .reader s.endConnection :=
    .waits (tended.endConnection owned) (by simp [Waits, endConnection_connection])
  unfold readerTurn
  cases here : s.link.connection with
  | none => exact .waits tended (by simp [Waits, here])
  | some c =>
    dsimp only
    -- what the reader does to its own part of the connection
    have reads {v : Session} (tended : v.Tended cast .reader) (here : v.link.connection = some c)
        (inbox : List Incoming) (splitter : FrameSplitter) (chores : List Chore) :
        (v.withConnection { c with inbox, splitter, chores }).Tended cast .reader :=
      tended.withConnection here rfl (fun _ => ⟨rfl, rfl, rfl, rfl⟩) fun notOwn => absurd rfl notOwn
    cases chores : c.chores with
    | cons chore rest =>
      have acts (v : Session) (alike : v.Alike s) (tended : v.Tended cast .reader) :
          ((v.withConnection { c with chores := rest }).doChore chore).Tended cast .reader := by
        have there : v.link.connection = some c := alike.2.1 ▸ here
        exact (reads tended there c.inbox c.splitter rest).doChore
          ((owned.of_alike alike).withConnection there _ rfl) chore
      dsimp only [readerChore]
      split
      · exact tended.use acting fun v alike tended => ((acts v alike tended).leave _).again
      · exact (acts s (.refl s) tended).again
    | nil =>
      cases inbox : c.inbox with
      | nil => exact .waits tended (by simp [Waits, here, chores, inbox])
      | cons first rest =>
        cases first with
        | bytes bs => exact (reads tended here _ _ _).again
        | eof => exact ends
        | fault f =>
          cases f with
          | timedOut => exact (reads tended here rest c.splitter []).again
          | _ => exact ends

/-! ## The writer -/

section Writer

variable {c : Connection}

/-- What the writer does to its own part of the connection. -/
theorem Tended.writes (tended : s.Tended cast .writer) (here : s.link.connection = some c)
    (c' : Connection) (pollers : c'.pollers = c.pollers)
    (reader : c'.chores = c.chores ∧ c'.inbox = c.inbox) :
    (s.withConnection c').Tended cast .writer :=
  tended.withConnection here pollers (fun notOwn => absurd rfl notOwn) fun _ => reader

/-- The writer goes on when it has told what became of a payload. -/
theorem told_ends (tended : s.Tended cast .writer) (owned : s.Owned)
    (here : s.link.connection = some c) (c' : Connection) (pollers : c'.pollers = c.pollers)
    (reader : c'.chores = c.chores ∧ c'.inbox = c.inbox) (x : Nat) (d : Delivery) :
    TurnEnd cast .writer ((s.withWriter c' .idle).deliver x d) := by
  have tended' : (s.withWriter c' .idle).Tended cast .writer :=
    (tended.writes here { c' with writer := .idle } pollers reader).act_again
  have owned' : (s.withWriter c' .idle).Owned :=
    (owned.withConnection here { c' with writer := .idle } pollers).of_alike
      (alike_again _ _)
  exact .goesOn (tended'.deliver owned' x d) (acting_deliver _ _ _)

theorem failWrite_ends (tended : s.Tended cast .writer) (owned : s.Owned)
    (here : s.link.connection = some c) (c' : Connection) (pollers : c'.pollers = c.pollers)
    (reader : c'.chores = c.chores ∧ c'.inbox = c.inbox) (x : Nat) (f : WriteFault) :
    TurnEnd cast .writer (s.failWrite c' x f) := by
  unfold failWrite
  split
  · exact (tended.writes here { c' with writer := .failed x f } pollers reader).again
  · exact told_ends tended owned here c' pollers reader x _

theorem attemptWrite_ends (tended : s.Tended cast .writer) (owned : s.Owned)
    (here : s.link.connection = some c) (x : Nat) : TurnEnd cast .writer (s.attemptWrite c x) := by
  let sent : Session := { s with link.wire := s.link.wire ++ [x] }
  have tended' : sent.Tended cast .writer :=
    tended.quiet (by rfl) (fun _ there => there) rfl fun b _ waits => by cases b <;> exact waits
  have owned' : sent.Owned := owned.of_same rfl rfl rfl (fun _ _ found => found) rfl
  unfold attemptWrite
  dsimp only
  split
  · exact failWrite_ends tended owned here { c with writeFaults := c.writeFaults - 1 } rfl
      ⟨rfl, rfl⟩ x _
  · split
    · exact failWrite_ends tended' owned' here { c with flushFaults := c.flushFaults - 1 } rfl
        ⟨rfl, rfl⟩ x _
    · exact told_ends tended' owned' here c rfl ⟨rfl, rfl⟩ x _

theorem Tended.giveUpSlot (tended : s.Tended cast .writer) (owned : s.Owned)
    (here : s.link.connection = some c) : (s.giveUpSlot c).Tended cast .writer := by
  unfold Session.giveUpSlot
  split
  · exact tended.writes here _ rfl ⟨rfl, rfl⟩
  · have there : (s.withConnection { c with slots := c.slots.dropLast, writer := .idle }).Tended
        cast .writer := tended.writes here _ rfl ⟨rfl, rfl⟩
    exact there.answer (owned.withConnection here _ rfl) _ _

theorem Owned.giveUpSlot (owned : s.Owned) (here : s.link.connection = some c) :
    (s.giveUpSlot c).Owned := by
  unfold Session.giveUpSlot
  split
  · exact owned.withConnection here _ rfl
  · exact (owned.withConnection here { c with slots := c.slots.dropLast, writer := .idle }
      rfl).answer _ _

/-- **The writer** leaves nobody out. -/
theorem writerTurn_ends (tended : s.Tended cast .writer) (acting : s.acting = none)
    (owned : s.Owned) : TurnEnd cast .writer s.writerTurn := by
  unfold writerTurn
  cases here : s.link.connection with
  | none => exact .waits tended (by simp [Waits, here])
  | some c =>
    dsimp only
    cases stage : c.writer with
    | idle =>
      dsimp only
      split
      · exact .yields tended acting rfl
      · unfold takePayload
        split
        · next x rest _ =>
          exact (tended.spend.writes here { c with realtime := rest, writer := .writing x } rfl
            ⟨rfl, rfl⟩).again
        · next x rest _ _ =>
          exact (tended.spend.writes here { c with lines := rest, writer := .taken x } rfl
            ⟨rfl, rfl⟩).again
        · next realtime lines => exact .waits tended (by simp [Waits, here, stage, realtime, lines])
    | taken x =>
      refine tended.use acting fun u alike tended => (Tended.leave ?_ _).again
      have there : u.link.connection = some c := alike.2.1 ▸ here
      exact tended.writes there _ rfl ⟨rfl, rfl⟩
    | writing x =>
      dsimp only
      split
      · next stalled => exact .waits tended (by simp [Waits, here, stage, stalled])
      · exact attemptWrite_ends tended owned here x
    | failed x f =>
      refine tended.use acting fun u alike tended => ?_
      have there : u.link.connection = some c := alike.2.1 ▸ here
      have owned' := (owned.of_alike alike).giveUpSlot there
      exact (((tended.giveUpSlot (owned.of_alike alike) there).leave .slots).deliver
        (owned'.of_alike (alike_leave _ _)) x _).again

end Writer

/-! ## The streaming task -/

/-- Nobody knows yet what becomes of a payload that was just handed over. -/
theorem post?_delivery? {p : Payload} {x : Nat} (posted : s.post? b p = some (x, t)) :
    t.link.delivery? x = none := by
  cases here : s.link.connection with
  | none =>
    rw [post?_of_closed here] at posted
    exact absurd posted (by simp)
  | some c =>
    obtain ⟨u, open_, alike⟩ := post?_of_open here b p
    obtain ⟨rfl, rfl⟩ := Prod.mk.inj (Option.some.inj (open_.symm.trans posted))
    simp [Link.delivery?, alike.2.1]

section Task

variable {k : StreamTask}

/-- What the streaming task does to itself concerns no other. -/
theorem Tended.withTask (tended : s.Tended cast (.job k.job.number))
    (task : s.streamer.task = some k) (cursor : Nat) (stage : StreamStage) :
    (s.withTask { k with cursor, stage }).Tended cast (.job k.job.number) := by
  have others {n : Nat} (other : n ≠ k.job.number) :
      (s.withTask { k with cursor, stage }).task? n = none := by
    simp [task?, Session.withTask, Ne.symm other]
  refine tended.quiet (by rfl) (fun b there => ?_) rfl fun b other waits => ?_
  · cases b with
    | job n =>
      by_cases own : n = k.job.number
      · subst own
        simp [Present, task?_number task]
      · exact absurd (others own) there
    | _ => exact there
  · cases b with
    | job n => exact waits_of_no_task? (others fun own => other (congrArg Actor.job own))
    | _ => exact waits

theorem dropTask_task (s : Session) : s.dropTask.streamer.task = none := by
  rw [(alike_dropTask s).2.2.1]

theorem conclude_task (s : Session) (reason : JobState) :
    (s.conclude reason).streamer.task = s.streamer.task := by
  rw [(alike_conclude s reason).2.2.1]

theorem Tended.drops (tended : s.Tended cast (.job k.job.number)) :
    TurnEnd cast (.job k.job.number) s.dropTask :=
  .waits tended.dropTask (waits_of_no_task (dropTask_task s) _)

/-- A task that ends its job is gone. -/
theorem Tended.concludes (tended : s.Tended cast (.job k.job.number)) (e : JobEvent) :
    TurnEnd cast (.job k.job.number) ((s.dropTask.announce e).conclude .idle) :=
  have none : (s.dropTask.announce e).streamer.task = none := dropTask_task s
  .waits ((tended.dropTask.announce e).conclude none .idle)
    (waits_of_no_task ((conclude_task _ _).trans none) _)

theorem Tended.failJob (tended : s.Tended cast a) (reason : String) :
    (s.failJob reason).Tended cast a :=
  (tended.setState fun other => absurd rfl other).announce _

theorem handOver_ends (tended : s.Tended cast (.job k.job.number)) (writer : .writer ∈ cast)
    (task : s.streamer.task = some k) (stage : k.stage = .ready) {line : String}
    (next : k.job.lines[k.cursor]? = some line) :
    TurnEnd cast (.job k.job.number) (s.handOver k line) := by
  unfold handOver
  split
  · cases posted : s.post? (.job k.job.number) (.ofLine line) with
    | none => exact tended.concludes _
    | some r =>
      obtain ⟨x, u⟩ := r
      have there : u.streamer.task = some k :=
        (congrArg (·.streamer.task) (post?_controlled posted)).trans task
      have handed := (tended.post? writer posted).withTask there k.cursor (.sending x)
      have own : (u.withTask { k with stage := .sending x }).task? k.job.number
          = some { k with stage := .sending x } := by simp [task?, Session.withTask]
      have unknown : u.link.delivery? x = none := post?_delivery? posted
      exact .waits handed ((waits_job_iff own).mpr unknown)
  · exact tended.drops
  · next notRunning notIdle =>
    split
    · exact tended.concludes _
    · next linked =>
      refine .waits tended ((waits_job_iff (task?_number task)).mpr ?_)
      simp only [TaskWaits, stage, next]
      exact ⟨by simp, notRunning, notIdle, linked⟩

theorem Tended.advanceCursor (tended : s.Tended cast (.job k.job.number))
    (task : s.streamer.task = some k) (r : Ack) :
    (s.advanceCursor k r).Tended cast (.job k.job.number) := by
  have counts {v : Session} (tended : v.Tended cast (.job k.job.number))
      (there : v.streamer.task = some k) :
      ((Session.announce { v with streamer.progress := ⟨k.cursor + 1, k.job.lines.length⟩ }
        (.progress ⟨k.cursor + 1, k.job.lines.length⟩)).withTask
          { k with cursor := k.cursor + 1, stage := .ready }).Tended cast (.job k.job.number) := by
    have counted : ({ v with streamer.progress := ⟨k.cursor + 1, k.job.lines.length⟩ } :
        Session).Tended cast (.job k.job.number) :=
      tended.quiet (by rfl) (fun _ there => there) rfl fun b _ waits => by cases b <;> exact waits
    exact (counted.announce _).withTask there _ _
  cases r with
  | ok => exact counts tended task
  | error code => exact counts (tended.announce _) task

/-- **The streaming task** leaves nobody out. -/
theorem taskTurn_ends (tended : s.Tended cast (.job k.job.number)) (acting : s.acting = none)
    (writer : .writer ∈ cast) (task : s.streamer.task = some k) :
    TurnEnd cast (.job k.job.number) (s.taskTurn k) := by
  unfold taskTurn
  dsimp only
  cases stage : k.stage with
  | ready =>
    dsimp only
    split
    · exact tended.concludes _
    · next line next => exact handOver_ends tended writer task stage next
  | sending x =>
    dsimp only
    split
    · next unknown =>
      refine .waits tended ((waits_job_iff (task?_number task)).mpr ?_)
      simpa only [TaskWaits, stage] using unknown
    · refine tended.use acting fun u alike tended => ?_
      have there : ((u.countSent x).leave .stats).streamer.task = some k := by
        have counted := countSent_streamer u x
        rw [(alike_leave _ _).2.2.1, counted, alike.2.2.1, task]
      exact (((tended.countSent x).leave .stats).withTask there _ _).again
    · exact tended.concludes _
    · exact ((tended.withTask task k.cursor .ready).failJob _).again
  | awaiting x deadline =>
    dsimp only
    split
    · next r _ => exact (tended.advanceCursor task r).again
    · exact tended.concludes _
    · next unanswered =>
      split
      · exact tended.drops
      · next notIdle =>
        split
        · let late := s.withTask { k with stage := .awaiting x none }
          have told (reason : String) : TurnEnd cast (.job k.job.number) (late.failJob reason) := by
            have own : (late.failJob reason).task? k.job.number
                = some { k with stage := .awaiting x none } := by
              rw [task?, failJob_task]
              simp
            have link : (late.failJob reason).link = s.link := (alike_setState late .paused).2.1
            refine .waits ((tended.withTask task k.cursor (.awaiting x none)).failJob reason)
              ((waits_job_iff own).mpr ⟨by rw [link, unanswered], ?_, rfl⟩)
            simp [Session.failJob, announce]
          exact told _
        · next early =>
          refine .waits tended ((waits_job_iff (task?_number task)).mpr ?_)
          simp only [TaskWaits, stage]
          exact ⟨unanswered, notIdle, by simpa using early⟩

end Task

/-! ## Pollers and refreshers -/

/-- What a poller notes concerns no other. -/
theorem Tended.setPoller {p q : Poller} (tended : s.Tended cast (.poller p.number))
    (found : s.poller? p.number = some q) : (s.setPoller p).Tended cast (.poller p.number) := by
  obtain ⟨c, here, -⟩ := Option.bind_eq_some_iff.mp found
  have same : s.setPoller p = s.withConnection { c with pollers := c.pollers.map fun q =>
      if q.number = p.number then p else q } := by
    simp only [Session.setPoller, here]
  refine tended.quiet (by rw [same]; rfl) (fun b there => ?_) (by rw [same]; rfl)
    fun b other waits => ?_
  · cases b with
    | poller n =>
      by_cases own : p.number = n
      · simp [Present, ← own, found]
      · simpa only [Present, poller?_setPoller_ne own] using there
    | _ =>
      rw [same] at there
      exact there
  · cases b with
    | poller n =>
      have apart : p.number ≠ n := fun own => other (by rw [own])
      exact waits.poller_stays (poller?_setPoller_ne apart) fun q _ own => by
        rw [same]
        exact own
    | writer | reader =>
      rw [same]
      simpa [Waits, Session.withConnection, here] using waits
    | _ =>
      rw [same]
      exact waits

/-- **A poller** leaves nobody out. -/
theorem pollerTurn_ends {n : Nat} (tended : s.Tended cast (.poller n)) (acting : s.acting = none)
    (writer : .writer ∈ cast) : TurnEnd cast (.poller n) (s.pollerTurn n) := by
  unfold pollerTurn
  cases found : s.poller? n with
  | none => exact .waits tended (by simp [Waits, found])
  | some p =>
    obtain rfl : p.number = n := number_of_poller? found
    -- the poller has taken its query off its mind
    have goes (v : Session) (tended : v.Tended cast (.poller p.number))
        (same : v.link.connection = s.link.connection) :
        TurnEnd cast (.poller p.number)
          ((v.setPoller { p with sending := none }).again (.poller p.number)) := by
      have there : v.poller? p.number = some p := by rw [poller?, same]; exact found
      exact (Tended.setPoller (p := { p with sending := none }) tended there).again
    dsimp only
    cases sending : p.sending with
    | none =>
      dsimp only
      split
      · split
        · next none =>
          obtain ⟨c, here, -⟩ := Option.bind_eq_some_iff.mp found
          obtain ⟨v, posted, -⟩ := post?_of_open here (.poller p.number) (.realtime .statusQuery)
          exact absurd (none.symm.trans posted) (by simp)
        · next x v posted =>
          let asked : Poller := { p with due := p.next s.now, sending := some x }
          have there : v.poller? asked.number = some p := (post?_pollers posted _).trans found
          have noted : (v.setPoller asked).poller? p.number = some asked :=
            poller?_setPoller there rfl
          have unknown : (v.setPoller asked).link.delivery? x = none :=
            (congrArg (Traffic.delivery? · x) (setPoller_traffic v asked)).trans
              (post?_delivery? posted)
          exact .waits (Tended.setPoller (p := asked) (tended.post? writer posted) there)
            ((waits_poller_iff noted).mpr unknown)
      · next early =>
        refine .waits tended ((waits_poller_iff found).mpr ?_)
        rw [sending]
        exact Nat.lt_of_not_le early
    | some x =>
      dsimp only
      split
      · next unknown =>
        refine .waits tended ((waits_poller_iff found).mpr ?_)
        rw [sending]
        exact unknown
      · split
        · refine tended.use acting fun v alike tended => ?_
          refine goes _ ((tended.countSent x).leave _) ?_
          have counted := congrArg Traffic.connection (countSent_traffic v x)
          rw [(alike_leave _ _).2.1]
          exact counted.trans (congrArg Link.connection alike.2.1)
        · exact goes s tended rfl

/-- What a refresher does to itself concerns no other. -/
theorem Tended.setRefresher {n : Nat} (tended : s.Tended cast (.refresher n))
    {refreshers : List Refresher}
    (present : refreshers.find? (·.number = n) ≠ none → s.refresher? n ≠ none)
    (others : ∀ m, m ≠ n → refreshers.find? (·.number = m) = s.refresher? m) :
    ({ s with refreshers } : Session).Tended cast (.refresher n) := by
  refine tended.quiet (by rfl) (fun b there => ?_) rfl fun b other waits => ?_
  · cases b with
    | refresher m =>
      by_cases own : m = n
      · subst own
        exact present there
      · exact fun gone => there ((others m own).trans gone)
    | _ => exact there
  · cases b with
    | refresher m =>
      exact waits.refresher_stays (others m fun own => other (by rw [own])) fun r _ own => own
    | _ => exact waits

theorem Tended.dropRefresher {n : Nat} (tended : s.Tended cast (.refresher n)) :
    TurnEnd cast (.refresher n) (s.dropRefresher n) := by
  have gone := refresher?_dropRefresher_self s n
  refine .waits (tended.setRefresher (fun there => absurd gone there) fun m other =>
    refresher?_dropRefresher (Ne.symm other)) ?_
  simp only [Waits, gone]

/-- **A refresher** leaves nobody out. -/
theorem refresherTurn_ends {n : Nat} (tended : s.Tended cast (.refresher n))
    (acting : s.acting = none) (writer : .writer ∈ cast) :
    TurnEnd cast (.refresher n) (s.refresherTurn n) := by
  unfold refresherTurn
  cases found : s.refresher? n with
  | none => exact .waits tended (by simp [Waits, found])
  | some r =>
    dsimp only
    cases sending : r.sending with
    | none =>
      dsimp only
      split
      · split
        · exact tended.dropRefresher
        · next x v posted =>
          have same : v.refreshers = s.refreshers :=
            congrArg Ledger.refreshers (post?_ledger posted)
          have noted : ({ v with refreshers := v.refreshers.map fun q =>
              if q.number = n then { q with sending := some x } else q } : Session).refresher? n
              = some { r with sending := some x } := refresher?_noted (some x) same found
          have unknown := post?_delivery? posted
          have handed := tended.post? writer posted
          refine .waits (handed.setRefresher (fun _ => ?_) fun m other => ?_)
            ((waits_refresher_iff noted).mpr unknown)
          · simp [refresher?, same, show s.refreshers.find? _ = _ from found]
          · exact find?_replace Refresher.number (fun q => { q with sending := some x }) other
              (fun _ own => own) v.refreshers
      · next early =>
        refine .waits tended ((waits_refresher_iff found).mpr ?_)
        rw [sending]
        exact Nat.lt_of_not_le early
    | some x =>
      dsimp only
      split
      · next unknown =>
        refine .waits tended ((waits_refresher_iff found).mpr ?_)
        rw [sending]
        exact unknown
      · split
        · exact tended.use acting fun v alike tended =>
            ((tended.countSent x).leave _).dropRefresher
        · exact tended.dropRefresher

end Cnc.Session
