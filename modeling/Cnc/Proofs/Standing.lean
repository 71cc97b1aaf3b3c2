import Cnc.Proofs.Locking

/-!
# What operations leave of where the actors stand

An actor stands where it stands by what it needs next. Most operations move
nobody (`Session.Still`), those of a call move the call alone
(`Session.Alone`), and those that end a task or a connection take those who
end with it away from the locks and leave the others (`Session.Spares`).
-/

namespace Cnc.Session

variable {s t u : Session} {a : Actor}

/-! ## Operations that move nobody -/

/-- **Nobody is moved** from `s` to `t`, and the locks stay as they are. -/
def Still (s t : Session) : Prop := t.locks = s.locks ∧ ∀ b, t.need? b = s.need? b

theorem Still.alone (h : s.Still t) (a : Actor) : s.Alone a t := ⟨h.1, fun b _ => h.2 b⟩

theorem Still.trans (h : s.Still t) (k : t.Still u) : s.Still u :=
  ⟨k.1.trans h.1, fun b => (k.2 b).trans (h.2 b)⟩

theorem Still.refl (s : Session) : s.Still s := ⟨rfl, fun _ => rfl⟩

/-- A change to none of what decides where an actor is. -/
theorem Still.of (locks : t.locks = s.locks) (calls : t.calls = s.calls)
    (task : t.streamer.task = s.streamer.task) (refreshers : t.refreshers = s.refreshers)
    (connection : t.link.connection = s.link.connection) : s.Still t :=
  ⟨locks, need?_congr calls task refreshers connection⟩

theorem Still.of_alike (alike : t.Alike u) (locks : t.locks = s.locks)
    (calls : u.calls = s.calls) (task : u.streamer.task = s.streamer.task)
    (refreshers : u.refreshers = s.refreshers)
    (connection : u.link.connection = s.link.connection) : s.Still t :=
  ⟨locks, fun b => (alike.need? b).trans (need?_congr calls task refreshers connection b)⟩

/-- A change to the open connection that concerns nobody. -/
theorem Still.withConnection {c c' : Connection} (here : s.link.connection = some c)
    (there : t.link.connection = some c') (locks : t.locks = s.locks) (calls : t.calls = s.calls)
    (task : t.streamer.task = s.streamer.task) (refreshers : t.refreshers = s.refreshers)
    (pollers : c'.pollers = c.pollers) (writer : c'.writer = c.writer)
    (chores : c'.chores = c.chores) : s.Still t := by
  refine ⟨locks, fun b => ?_⟩
  cases b with
  | call i => simp only [need?, stage?_congr calls i]
  | job n => simp only [need?, task?, task]
  | poller n => simp [need?, poller?, here, there, pollers]
  | refresher n => simp only [need?, refresher?, refreshers]
  | writer => simp [need?, here, there, writer]
  | reader => simp [need?, here, there, chores]

section Still

variable (s)

theorem still_wake (a : Actor) : s.Still (s.wake a) :=
  .of_alike (alike_wake s a) (locks_wake s a) rfl rfl rfl rfl

theorem still_wakeAll (as : List Actor) : s.Still (s.wakeAll as) :=
  .of_alike (alike_wakeAll s as) (locks_wakeAll s as) rfl rfl rfl rfl

theorem still_publish (e : LinkEvent) : s.Still (s.publish e) :=
  .of_alike (alike_publish s e) (locks_publish s e) rfl rfl rfl rfl

theorem still_setStatus (status : MachineStatus) : s.Still (s.setStatus status) :=
  .of_alike (alike_setStatus s status) (locks_setStatus s status) rfl rfl rfl rfl

theorem still_setState (state : JobState) : s.Still (s.setState state) :=
  .of_alike (alike_setState s state) (locks_setState s state) rfl rfl rfl rfl

theorem still_announce (e : JobEvent) : s.Still (s.announce e) := .of rfl rfl rfl rfl rfl

theorem still_endTurn : s.Still s.endTurn :=
  .of_alike (alike_endTurn s) (locks_endTurn s) rfl rfl rfl rfl

theorem still_conclude (reason : JobState) : s.Still (s.conclude reason) :=
  .of_alike (alike_conclude s reason) (locks_conclude s reason) rfl rfl rfl rfl

theorem still_deliver (x : Nat) (d : Delivery) : s.Still (s.deliver x d) :=
  .of_alike (alike_deliver s x d) (locks_deliver s x d) rfl rfl rfl rfl

theorem still_answer (x : Nat) (a : Answer) : s.Still (s.answer x a) :=
  .of_alike (alike_answer s x a) (locks_answer s x a) rfl rfl rfl rfl

theorem still_countSent (x : Nat) : s.Still (s.countSent x) := by
  have counted := countSent_controlled s x
  refine .of (locks_countSent s x) (congrArg Controlled.calls counted)
    (congrArg (·.streamer.task) counted) ?_ ?_
  · unfold countSent
    split <;> rfl
  · unfold countSent
    split <;> rfl

theorem still_dropAnswers : s.Still s.dropAnswers := by
  cases here : s.link.connection with
  | none =>
    have same : s.dropAnswers = s := by simp [dropAnswers, here]
    rw [same]
    exact .refl s
  | some c =>
    have dropped := alike_dropAnswers here
    exact .withConnection here (congrArg Link.connection dropped.2.1) (locks_dropAnswers s)
      dropped.2.2.2.1 (congrArg Streamer.task dropped.2.2.1) dropped.2.2.2.2.1 rfl rfl rfl

end Still

/-! ## Calls -/

theorem setStage_alone (s : Session) (i : Nat) (st : CallStage) :
    s.Alone (.call i) (s.setStage i st) := by
  refine ⟨rfl, fun b other => ?_⟩
  cases b with
  | call j =>
    have apart : j ≠ i := fun same => other (congrArg Actor.call same)
    simp only [need?, stage?_setStage, if_neg apart]
  | _ => rfl

theorem finish_alone (s : Session) (i : Nat) (r : Result) :
    s.Alone (.call i) (s.finish i r) := by
  refine ⟨rfl, fun b other => ?_⟩
  cases b with
  | call j =>
    have apart : j ≠ i := fun same => other (congrArg Actor.call same)
    simp only [need?, stage?_finish, if_neg apart]
  | _ => rfl

/-- A call goes on at another stage. -/
theorem goOn_alone (s : Session) (i : Nat) (st : CallStage) :
    s.Alone (.call i) ((s.setStage i st).again (.call i)) :=
  (setStage_alone s i st).trans (.quiet rfl rfl rfl rfl rfl)

/-- A call hands a payload over and waits to know what became of it. -/
theorem post?_setStage_alone {i x : Nat} {p : Payload} (st : CallStage)
    (posted : s.post? (.call i) p = some (x, t)) : s.Alone (.call i) (t.setStage i st) :=
  (post?_alone posted).trans (setStage_alone t i st)

/-- A call gives its last result and ends its turn. -/
theorem leave_alone (h : s.Still t) (i : Nat) (r : Result) :
    s.Alone (.call i) (t.finish i r).endTurn :=
  ((h.alone _).trans (finish_alone t i r)).trans ((still_endTurn _).alone _)

theorem send_alone (s : Session) (i : Nat) (p : Payload) (errand : Errand) :
    s.Alone (.call i) (s.send i p errand) := by
  unfold send
  cases posted : s.post? (.call i) p with
  | none => exact finish_alone s i _
  | some r => exact post?_setStage_alone _ posted

theorem sendControl_alone {i : Nat} (command : Realtime) (errand : Errand)
    {closed : Session → Session} (still : s.Still (closed s)) :
    s.Alone (.call i) (s.sendControl i command errand closed) := by
  unfold sendControl
  cases posted : s.post? (.call i) (.realtime command) with
  | none => exact leave_alone still i _
  | some r => exact post?_setStage_alone _ posted

theorem connect_alone (s : Session) (i : Nat) (port : String) (refusal : Option DeviceFault) :
    s.Alone (.call i) (s.connect i port refusal) := by
  unfold connect
  cases here : s.link.connection with
  | some c => exact finish_alone s i _
  | none =>
    cases refusal with
    | some f => exact ((still_setStatus s _).alone _).trans (finish_alone _ i _)
    | none =>
      -- on a connection that has just been opened nobody needs anything
      have opened (u : Session) (closed : u.link.connection = none) : u.Still { u with
          link.connection := some (.fresh s.link.opened port)
          link.opened := s.link.opened + 1 } := by
        refine ⟨rfl, fun b => ?_⟩
        cases b with
        | poller n | writer | reader => simp [need?, poller?, closed, Connection.fresh]
        | _ => rfl
      have closed : (s.setStatus .connecting).link.connection = none := by
        rw [(alike_setStatus s .connecting).2.1]
        exact here
      have opened := (still_setStatus s .connecting).trans (opened _ closed)
      exact ((opened.trans (still_publish _ _)).alone _).trans (finish_alone _ i _)

theorem addPoller_alone (s : Session) (i interval : Nat) :
    s.Alone (.call i) (s.addPoller i interval) := by
  unfold addPoller
  cases here : s.link.connection with
  | none => exact finish_alone s i _
  | some c =>
    dsimp only
    split
    · exact finish_alone s i _
    · refine Alone.trans ?_ (finish_alone _ i _)
      refine Alone.trans ?_ ((still_wake _ (.poller s.spawned)).alone _)
      refine ⟨rfl, fun b _ => ?_⟩
      cases b with
      | poller n =>
        -- the new poller sends nothing yet
        simp only [need?, poller?, withConnection, here, Option.bind_some, List.find?_append]
        cases found : c.pollers.find? (·.number = n) with
        | some p => simp
        | none => by_cases same : s.spawned = n <;> simp [same]
      | writer => simp [need?, withConnection, here]
      | reader => simp [need?, withConnection, here]
      | _ => rfl

theorem beginConfirmation_alone (s : Session) (i : Nat) (id : UInt16) (value : String)
    (delay timeout : Nat) :
    s.Alone (.call i) (s.beginConfirmation i id value delay timeout) := by
  have listening : s.Alone (.call i) { s with link.events := s.link.events.subscribe } :=
    .quiet rfl rfl rfl rfl rfl
  unfold beginConfirmation
  dsimp only
  split
  · exact (listening.trans (.quiet rfl rfl rfl rfl rfl)).trans (finish_alone _ i _)
  · next x t posted => exact listening.trans (post?_setStage_alone _ posted)

/-- A new task is about to hand its first line over. -/
theorem withTask_still {k : StreamTask} (none : s.streamer.task = none) (ready : k.stage = .ready) :
    s.Still (s.withTask k) := by
  refine ⟨rfl, fun b => ?_⟩
  cases b with
  | job n => by_cases same : k.job.number = n <;> simp [need?, task?, withTask, none, same, ready]
  | _ => rfl

theorem startJob_alone (s : Session) (i : Nat) (program : String)
    (idle : s.streamer.state = .idle → s.streamer.task = none) :
    s.Alone (.call i) (s.startJob i program) := by
  have refuse (r : Result) : s.Alone (.call i) (s.finish i r).endTurn := leave_alone (.refl s) i r
  unfold startJob
  dsimp only
  split
  · exact refuse _
  · next free =>
    split
    · exact refuse _
    · split
      · exact refuse _
      · have none := idle (by simpa using free)
        have running (u : Session) (still : s.Still u) (task : u.streamer.task = Option.none)
            (total : Nat) (k : StreamTask) (ready : k.stage = .ready) :
            s.Still (((u.setState .running).announce (.started total)).withTask k) := by
          have announced := (still_setState u .running).trans (still_announce _ (.started total))
          refine (still.trans announced).trans (withTask_still ?_ ready)
          exact (congrArg Streamer.task (alike_setState u .running).2.2.1).trans task
        refine Alone.trans ?_ (finish_alone _ i _)
        refine Still.alone (Still.trans ?_ (still_endTurn _)) _
        refine Still.trans ?_ (still_wake _ (.job s.streamer.started))
        refine running _ ?_ ?_ _ _ ?_
        · exact .of rfl rfl rfl rfl rfl
        · exact none
        · rfl

theorem dropTask_spares (s : Session) (a : Actor) : s.Spares a s.dropTask := by
  unfold dropTask
  cases task : s.streamer.task with
  | none => exact (Alone.refl s a).spares
  | some k =>
    intro g orderly
    rw [get_locks_forget]
    refine ⟨orderly.forget _, fun b there => ?_⟩
    obtain ⟨before, other⟩ := orderly.mem_forget.mp there
    refine ⟨before, fun _ => ?_⟩
    have alike := alike_forget { s with streamer.task := none } (.job k.job.number)
    rw [alike.need? b]
    cases b with
    | job m =>
      have apart : k.job.number ≠ m := fun same => other (by rw [same])
      simp [need?, task?, task, Option.filter, apart]
    | _ => rfl

theorem control_spares (s : Session) (i : Nat) (c : Control)
    (idle : s.streamer.state = .idle → s.streamer.task = none) :
    s.Spares (.call i) (s.control i c) := by
  have refuse (r : Result) : s.Spares (.call i) (s.finish i r).endTurn :=
    (leave_alone (.refl s) i r).spares
  unfold control
  cases c with
  | start program => exact (startJob_alone s i program idle).spares
  | pause =>
    dsimp only
    split
    · have paused : s.Still ((s.setState .paused).wakeAll (s.setState .paused).watchingTask) :=
        (still_setState _ _).trans (still_wakeAll _ _)
      exact ((paused.alone _).trans (sendControl_alone _ _ (.refl _))).spares
    · exact refuse _
  | resume =>
    dsimp only
    split
    · exact (sendControl_alone _ _ (.refl _)).spares
    · exact refuse _
  | stop =>
    dsimp only
    split
    · exact (dropTask_spares s _).trans (sendControl_alone _ _ (still_conclude _ _)).spares
    · exact refuse _

/-! ## The end of a connection -/

theorem get_locks_forgetAll (s : Session) (as : List Actor) (g : Guarded) :
    ((as.foldl forget s).locks.get g) = as.foldl Lock.forget (s.locks.get g) := by
  induction as generalizing s with
  | nil => rfl
  | cons a as ih => rw [List.foldl_cons, ih, get_locks_forget, List.foldl_cons]

/-- Those who end with a connection. -/
def company (c : Connection) : List Actor :=
  .reader :: .writer :: c.pollers.map fun p => .poller p.number

theorem locks_endConnection {c : Connection} (here : s.link.connection = some c) (g : Guarded) :
    s.endConnection.locks.get g = (company c).foldl Lock.forget (s.locks.get g) := by
  unfold endConnection
  rw [here]
  dsimp only
  rw [locks_deliverAll]
  refine (get_locks_forgetAll _ (company c) g).trans ?_
  rw [locks_publish, locks_setStatus, locks_answerAll]

/-- **The end of the connection** takes those who end with it away from the locks. -/
theorem endConnection_spares (s : Session) (a : Actor) : s.Spares a s.endConnection := by
  cases here : s.link.connection with
  | none =>
    have same : s.endConnection = s := by simp [endConnection, here]
    rw [same]
    exact (Alone.refl s a).spares
  | some c =>
    intro g orderly
    rw [locks_endConnection here]
    obtain ⟨last, among⟩ := orderly.forgetAll (company c)
    refine ⟨last, fun b there => ?_⟩
    obtain ⟨before, apart⟩ := among b there
    refine ⟨before, fun _ => ?_⟩
    have alike := alike_endConnection here
    rw [alike.need? b]
    cases b with
    | call i => rfl
    | job n => rfl
    | refresher n => rfl
    | poller n =>
      have absent : c.pollers.find? (·.number = n) = none := by
        refine List.find?_eq_none.mpr fun p member same => apart ?_
        have number : p.number = n := by simpa using same
        simp only [company, List.mem_cons, List.mem_map]
        exact .inr (.inr ⟨p, member, by rw [number]⟩)
      simp [need?, poller?, here, absent]
    | writer => exact absurd (by simp [company]) apart
    | reader => exact absurd (by simp [company]) apart

/-! ## What calls do when they begin and when they go on -/

theorem beginCall_spares (s : Session) (i : Nat) (c : Call)
    (idle : s.streamer.state = .idle → s.streamer.task = none) :
    s.Spares (.call i) (s.beginCall i c) := by
  have done (r : Result) : s.Alone (.call i) (s.finish i r) := finish_alone s i r
  unfold beginCall
  cases c with
  | connect port refusal => exact (connect_alone s i port refusal).spares
  | disconnect => exact (endConnection_spares s _).trans (finish_alone _ i _).spares
  | write line => exact (send_alone s i _ _).spares
  | writeAcked line => exact (send_alone s i _ _).spares
  | realtime command => exact (send_alone s i _ _).spares
  | control c =>
    dsimp only [takeTurn]
    have queued : s.Alone (.call i) { s with streamer.turns := s.streamer.turns ++ [i] } :=
      .quiet rfl rfl rfl rfl rfl
    split
    · exact queued.spares.trans (control_spares _ i c idle)
    · exact (queued.trans (setStage_alone _ i _)).spares
  | wait =>
    dsimp only
    split
    · exact (done _).spares
    · exact (setStage_alone s i _).spares
  | poll interval => exact (addPoller_alone s i interval).spares
  | writeSetting id value delay => exact (send_alone s i _ _).spares
  | confirmSetting id value delay timeout =>
    exact (beginConfirmation_alone s i id value delay timeout).spares
  | settings => exact (done _).spares
  | resetSettings =>
    have reset : s.Alone (.call i) { s with link.settings := .empty } :=
      .quiet rfl rfl rfl rfl rfl
    exact (reset.trans (finish_alone _ i _)).spares
  | jobLines => exact (done _).spares
  | ports => exact (done _).spares

theorem failErrand_alone (s : Session) (i : Nat) (errand : Errand) (e : LinkError) :
    s.Alone (.call i) (s.failErrand i errand e) := by
  unfold failErrand
  cases errand with
  | report | reportAnswer | realtime => exact finish_alone s i _
  | pause | resume => exact leave_alone (.refl s) i _
  | stop => exact leave_alone (still_conclude s _) i _
  | setting delay confirmation =>
    have heard (sub : Nat) : s.Alone (.call i) (s.unsubscribe sub) := .quiet rfl rfl rfl rfl rfl
    cases confirmation with
    | none => exact finish_alone s i _
    | some c => exact (heard _).trans (finish_alone _ i _)

/-- A new refresher sends nothing yet. -/
theorem spawnRefresher_still (s : Session) (delay : Nat) : s.Still (s.spawnRefresher delay) := by
  refine Still.trans ?_ (still_wake _ (.refresher s.spawned))
  refine ⟨rfl, fun b => ?_⟩
  cases b with
  | refresher n =>
    simp only [need?, refresher?, List.find?_append]
    cases found : s.refreshers.find? (·.number = n) with
    | some p => simp
    | none => by_cases same : s.spawned = n <;> simp [same]
  | _ => rfl

theorem doErrand_alone (s : Session) (i x : Nat) (errand : Errand) :
    s.Alone (.call i) (s.doErrand i x errand) := by
  unfold doErrand
  cases errand with
  | report | realtime => exact finish_alone s i _
  | reportAnswer =>
    have given : s.Alone (.call i) (s.give i .sent) := .quiet rfl rfl rfl rfl rfl
    exact given.trans (goOn_alone _ i _)
  | pause => exact leave_alone (.refl s) i _
  | resume => exact leave_alone ((still_setState s _).trans (still_wakeAll _ _)) i _
  | stop => exact leave_alone (still_conclude s _) i _
  | setting delay confirmation =>
    have refreshing := (spawnRefresher_still s delay).alone (.call i)
    cases confirmation with
    | none => exact refreshing.trans (finish_alone _ i _)
    | some c => exact refreshing.trans (goOn_alone _ i _)

theorem confirmTurn_alone (s : Session) (i : Nat) (key : String) (sub deadline : Nat) :
    s.Alone (.call i) (s.confirmTurn i key sub deadline) := by
  have heard {t : Session} (sub : Nat) (h : s.Alone (.call i) t) (r : Result) :
      s.Alone (.call i) ((t.unsubscribe sub).finish i r) :=
    (h.trans (.quiet rfl rfl rfl rfl rfl)).trans (finish_alone _ i r)
  unfold confirmTurn
  dsimp only
  split
  · split
    · exact heard _ (.refl s _) _
    · exact .quiet rfl rfl rfl rfl rfl
  · split
    · split
      · exact heard _ (.refl s _) _
      · exact .refl s _
    · next events _ =>
      have heeded : s.Alone (.call i) (Session.spend { s with link.events := events }) :=
        .quiet rfl rfl rfl rfl rfl
      split
      · exact heeded
      · exact (heeded.trans (.quiet rfl rfl rfl rfl rfl)).trans (goOn_alone _ i _)
      · exact heard _ heeded _

end Cnc.Session
