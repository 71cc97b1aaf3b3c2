import Cnc.Proofs.Holding
import Cnc.Proofs.Waiting

/-!
# When nobody has anything to do

A session is quiescent when no actor has anything to do: whichever has a
turn, with all the credit of a stretch, it changes nothing but who acts next
(`Session.Quiescent`). In sessions that can be reached, that is so exactly if
every actor waits for something (`Session.Locked.quiescent_iff`). The locks do
not come into that: where somebody needs a guarded part, whoever has its lock
can go on.
-/

namespace Cnc.Session

/-- **A session in which no actor has anything to do.** -/
def Quiescent (s : Session) : Prop :=
  ∀ a, Alike ({ s with credit := stretchCredit }.act a) s

variable {s t : Session}

/-! ## One that has something to do does it -/

/-- An actor that gets the lock, with credit, does what is to be done. -/
theorem use_through {a : Actor} {g : Guarded} (inside after : Session → Session)
    (has : ((s.locks.get g).request a).holder = some a) (credit : s.credit ≠ 0) :
    ∃ u : Session, u.Alike s ∧ s.use a g inside after = after ((inside u).leave g) := by
  unfold use
  dsimp only
  rw [if_neg (not_not_intro has), if_neg credit]
  refine ⟨Session.spend { s with locks := s.locks.set g ((s.locks.get g).request a) }, ?_, rfl⟩
  exact ⟨rfl, rfl, rfl, rfl, rfl, rfl, rfl⟩

theorem countSent_refreshers (s : Session) (x : Nat) :
    (s.countSent x).refreshers = s.refreshers := by
  unfold countSent
  split <;> rfl

theorem countSent_spawned (s : Session) (x : Nat) : (s.countSent x).spawned = s.spawned := by
  unfold countSent
  split <;> rfl

/-- A call that goes on to a stage is at no other. -/
theorem stage?_setStage_ne (s : Session) (i : Nat) {st st' : CallStage} (other : st ≠ st') :
    (s.setStage i st).stage? i ≠ some st' := by
  rw [stage?_setStage, if_pos rfl]
  cases s.stage? i with
  | none => simp
  | some _ => simpa using other

/-- A call that has counted its payload goes on to something else, or gives its result. -/
theorem stage?_doErrand (s : Session) (i x : Nat) (e : Errand) (y : Nat) (f : Errand) :
    (s.doErrand i x e).stage? i ≠ some (.counting y f) := by
  unfold doErrand
  cases e with
  | reportAnswer => exact stage?_setStage_ne _ i (by simp)
  | setting delay confirmation =>
    cases confirmation with
    | none => simp
    | some c => exact stage?_setStage_ne _ i (by simp)
  | _ => simp

/-- A call that hands a realtime command over goes on to something else, or gives its result. -/
theorem stage?_sendControl (s : Session) (i : Nat) (command : Realtime) (e : Errand)
    (closed : Session → Session) {st : CallStage} (other : ∀ x, .sending x e ≠ st) :
    (s.sendControl i command e closed).stage? i ≠ some st := by
  unfold sendControl
  cases s.post? (.call i) (.realtime command) with
  | none => simp
  | some r => exact stage?_setStage_ne _ i (other r.1)

/-- A call that has its turn goes on to something else, or gives its result. -/
theorem stage?_control (s : Session) (i : Nat) (c : Control) {st : CallStage}
    (other : ∀ x e, .sending x e ≠ st) : (s.control i c).stage? i ≠ some st := by
  unfold control
  cases c with
  | start program =>
    dsimp only [startJob]
    split
    · simp
    · split
      · simp
      · split <;> simp
  | _ =>
    dsimp only
    split
    · exact stage?_sendControl _ i _ _ _ fun x => other x _
    · simp

/-- A call that begins goes on to something else, or gives its result. -/
theorem stage?_beginCall (s : Session) (i : Nat) (c : Call) :
    (s.beginCall i c).stage? i ≠ some (.begin c) := by
  have sending (p : Payload) (e : Errand) : (s.send i p e).stage? i ≠ some (.begin c) := by
    unfold send
    cases s.post? (.call i) p with
    | none => simp
    | some r => exact stage?_setStage_ne _ i (by simp)
  unfold beginCall
  cases c with
  | connect port refusal =>
    dsimp only [connect]
    split
    · simp
    · split <;> simp
  | write line => exact sending _ _
  | writeAcked line => exact sending _ _
  | realtime command => exact sending _ _
  | control c =>
    dsimp only [takeTurn]
    split
    · exact stage?_control _ i c (by simp)
    · exact stage?_setStage_ne _ i (by simp)
  | wait =>
    dsimp only
    split
    · simp
    · exact stage?_setStage_ne _ i (by simp)
  | poll interval =>
    dsimp only [addPoller]
    split
    · simp
    · split <;> simp
  | writeSetting id value delay => exact sending _ _
  | confirmSetting id value delay timeout =>
    dsimp only [beginConfirmation]
    split
    · simp
    · exact stage?_setStage_ne _ i (by simp)
  | _ => simp

theorem stage?_failErrand (s : Session) (i : Nat) (e : Errand) (f : LinkError) :
    (s.failErrand i e f).stage? i = none := by
  unfold failErrand
  cases e with
  | setting delay confirmation => cases confirmation <;> simp
  | _ => simp

/-- A subscriber that hears something has moved on. -/
theorem receive_moves {E : Type} {b : EventBus E} {sub : Nat} {h : Heard E}
    (heard : (b.receive sub).1 = some h) : (b.receive sub).2 ≠ b := by
  intro same
  have positions := congrArg (fun b => b.position? sub) same
  unfold EventBus.receive at heard positions
  cases position : b.position? sub with
  | none => simp [position] at heard
  | some p =>
    have inside : sub < b.positions.length := by
      by_contra outside
      simp [EventBus.position?, List.getElem?_eq_none (Nat.le_of_not_lt outside)] at position
    simp only [position] at heard positions
    split at positions
    · next behind =>
      simp only [EventBus.position?, List.getElem?_set_self inside, Option.join_some,
        Option.some.injEq] at positions
      omega
    · next notBehind =>
      rw [if_neg notBehind] at heard
      cases found : b.log[p]? with
      | none => simp [found] at heard
      | some e =>
        simp only [found, EventBus.position?, List.getElem?_set_self inside, Option.join_some,
          Option.some.injEq] at positions
        omega

/-- Doing a chore leaves the others to be done. -/
theorem doChore_chores (s : Session) (chore : Chore) :
    (s.doChore chore).link.connection.map (·.chores) = s.link.connection.map (·.chores) := by
  cases chore with
  | setStatus status => rw [doChore, (alike_setStatus s status).2.1]
  | publish e => rw [doChore, (alike_publish s e).2.1]
  | settle a =>
    show (s.settleAnswer a).link.connection.map (·.chores) = _
    unfold settleAnswer
    cases here : s.link.connection with
    | none => simp [here]
    | some c =>
      dsimp only
      split
      · rw [here]
      · rw [(alike_answer _ _ _).2.1]
        rfl
  | _ => rfl

/-- A poller that notes something else is another one. -/
theorem setPoller_moves {p : Poller} (p' : Poller) (found : s.poller? p'.number = some p)
    (other : p' ≠ p) : (s.setPoller p').link.connection ≠ s.link.connection := by
  obtain ⟨c, here, among⟩ := Option.bind_eq_some_iff.mp found
  have member := List.mem_of_find?_eq_some among
  have number : p.number = p'.number := by simpa using List.find?_some among
  intro connection
  simp only [setPoller, here, withConnection, Option.some.injEq] at connection
  have pollers := congrArg Connection.pollers connection
  have id := (List.map_inj_left (g := id)).mp (pollers.trans (List.map_id _).symm) p member
  rw [if_pos number] at id
  exact other id

section Needs

variable {g : Guarded} {post : Option Nat}

theorem callTurn_moves {i : Nat} (need : s.need? (.call i) = some (g, post))
    (sent : ∀ x ∈ post, s.link.delivery? x = some .sent)
    (has : ((s.locks.get g).request (.call i)).holder = some (.call i)) (credit : s.credit ≠ 0) :
    ¬ Alike (s.callTurn i) s := by
  intro alike
  have stages : (s.callTurn i).stage? i = s.stage? i := alike.stage? i
  unfold callTurn at stages
  cases stage : s.stage? i with
  | none => simp [need?, stage] at need
  | some st =>
    rw [stage] at stages
    cases st with
    | begin | turn | awaitingAnswer | awaitingIdle | confirming => simp [need?, stage] at need
    | sending x e =>
      simp only [need?, stage] at need
      split at need
      · next reset =>
        obtain ⟨rfl, rfl⟩ := Prod.mk.inj (Option.some.inj need)
        have told : s.link.delivery? x = some .sent := sent x rfl
        simp only [told, Delivery.error?, countErrand, reset, if_true] at stages
        obtain ⟨u, hu, through⟩ := use_through dropAnswers
          (fun s => (s.setStage i (.counting x e)).again (.call i)) has credit
        have before : (u.dropAnswers.leave .slots).stage? i = some (.sending x e) := by
          have calls := congrArg Controlled.calls (dropAnswers_controlled u)
          rw [(alike_leave _ _).stage?, stage?_congr calls, hu.stage?, stage]
        rw [through, (alike_again _ _).stage?, stage?_setStage, if_pos rfl, before] at stages
        exact absurd stages (by simp)
      · exact absurd need (by simp)
    | counting x e =>
      have same : g = .stats := by simpa [need?, stage, eq_comm] using congrArg (·.map (·.1)) need
      subst same
      obtain ⟨u, -, through⟩ := use_through (·.countSent x)
        (·.doErrand i x e) has credit
      dsimp only at stages
      rw [through] at stages
      exact stage?_doErrand _ i x e x e stages
    | lookingUp key =>
      have same : g = .settings := by
        simpa [need?, stage, eq_comm] using congrArg (·.map (·.1)) need
      subst same
      obtain ⟨u, -, through⟩ := use_through id
        (fun s => s.finish i (.reported (s.link.settings.get? key))) has credit
      dsimp only at stages
      rw [through, stage?_finish, if_pos rfl] at stages
      exact absurd stages (by simp)

theorem jobTurn_moves {n : Nat} (need : s.need? (.job n) = some (g, post))
    (sent : ∀ x ∈ post, s.link.delivery? x = some .sent)
    (has : ((s.locks.get g).request (.job n)).holder = some (.job n)) (credit : s.credit ≠ 0) :
    ¬ Alike (s.jobTurn n) s := by
  intro alike
  have tasks : (s.jobTurn n).streamer.task = s.streamer.task := by rw [alike.2.2.1]
  unfold jobTurn at tasks
  cases found : s.task? n with
  | none => simp [need?, found] at need
  | some k =>
    obtain ⟨task, number⟩ := Option.filter_eq_some_iff.mp found
    obtain rfl : k.job.number = n := by simpa using number
    cases stage : k.stage with
    | ready | awaiting => simp [need?, found, stage] at need
    | sending x =>
      obtain ⟨rfl, rfl⟩ : Guarded.stats = g ∧ some x = post := by
        simpa [need?, found, stage] using need
      have told : s.link.delivery? x = some .sent := sent x rfl
      obtain ⟨u, -, through⟩ := use_through (·.countSent x)
        (fun s => (s.withTask
          { k with stage := .awaiting x (s.streamer.timeout.map (s.now + ·)) }).again
            (.job k.job.number)) has credit
      simp only [found, taskTurn, stage, told] at tasks
      rw [through, (alike_again _ _).2.2.1, task] at tasks
      have stages := congrArg StreamTask.stage (Option.some.inj tasks)
      rw [stage] at stages
      exact absurd stages (by simp)

theorem pollerTurn_moves {n : Nat} (need : s.need? (.poller n) = some (g, post))
    (sent : ∀ x ∈ post, s.link.delivery? x = some .sent)
    (has : ((s.locks.get g).request (.poller n)).holder = some (.poller n))
    (credit : s.credit ≠ 0) : ¬ Alike (s.pollerTurn n) s := by
  intro alike
  unfold pollerTurn at alike
  cases found : s.poller? n with
  | none => simp [need?, found] at need
  | some p =>
    have number : p.number = n := by
      obtain ⟨c, -, among⟩ := Option.bind_eq_some_iff.mp found
      simpa using List.find?_some among
    cases sending : p.sending with
    | none => simp [need?, found, sending] at need
    | some x =>
      obtain ⟨rfl, rfl⟩ : Guarded.stats = g ∧ some x = post := by
        simpa [need?, found, sending] using need
      have told : s.link.delivery? x = some .sent := sent x rfl
      obtain ⟨u, hu, through⟩ := use_through (·.countSent x)
        (fun s => (s.setPoller { p with sending := none }).again (.poller n)) has credit
      simp only [found, sending, told, if_true] at alike
      rw [through] at alike
      have connection : ((u.countSent x).leave .stats).link.connection = s.link.connection := by
        have counted : (u.countSent x).link.connection = u.link.connection :=
          congrArg Traffic.connection (countSent_traffic u x)
        rw [(alike_leave _ _).2.1, counted, hu.2.1]
      refine setPoller_moves (s := (u.countSent x).leave .stats) (p := p)
        { p with sending := none } ?_ ?_ ?_
      · rw [poller?, connection, number]
        exact found
      · intro same
        rw [← same] at sending
        exact absurd sending (by simp)
      · rw [connection]
        exact congrArg Link.connection alike.2.1

theorem refresherTurn_moves {n : Nat} (need : s.need? (.refresher n) = some (g, post))
    (sent : ∀ x ∈ post, s.link.delivery? x = some .sent)
    (has : ((s.locks.get g).request (.refresher n)).holder = some (.refresher n))
    (credit : s.credit ≠ 0) : ¬ Alike (s.refresherTurn n) s := by
  intro alike
  have refreshers := alike.2.2.2.2.1
  unfold refresherTurn at refreshers
  cases found : s.refresher? n with
  | none => simp [need?, found] at need
  | some r =>
    cases sending : r.sending with
    | none => simp [need?, found, sending] at need
    | some x =>
      obtain ⟨rfl, rfl⟩ : Guarded.stats = g ∧ some x = post := by
        simpa [need?, found, sending] using need
      have told : s.link.delivery? x = some .sent := sent x rfl
      obtain ⟨u, hu, through⟩ := use_through (·.countSent x)
        (·.dropRefresher n) has credit
      simp only [found, sending, told, if_true] at refreshers
      have counted : ((u.countSent x).leave .stats).refreshers = s.refreshers := by
        rw [(alike_leave _ _).2.2.2.2.1, countSent_refreshers, hu.2.2.2.2.1]
      rw [through, dropRefresher, counted] at refreshers
      have member := List.mem_of_find?_eq_some found
      have number : r.number = n := by simpa using List.find?_some found
      have kept := (List.filter_eq_self.mp refreshers) r member
      exact absurd number (by simpa using kept)

theorem writerTurn_moves (need : s.need? .writer = some (g, post))
    (has : ((s.locks.get g).request .writer).holder = some .writer) (credit : s.credit ≠ 0) :
    ¬ Alike s.writerTurn s := by
  intro alike
  have connection := congrArg Link.connection alike.2.1
  unfold writerTurn at connection
  cases here : s.link.connection with
  | none => simp [need?, here] at need
  | some c =>
    cases stage : c.writer with
    | idle | writing => simp [need?, here, stage] at need
    | taken x =>
      obtain ⟨rfl, rfl⟩ : Guarded.slots = g ∧ none = post := by
        simpa [need?, here, stage] using need
      obtain ⟨u, -, through⟩ := use_through (·.pushSlot c x)
        (·.again .writer) has credit
      simp only [here, stage] at connection
      rw [through, (alike_again _ _).2.1, (alike_leave _ _).2.1] at connection
      have stages := congrArg Connection.writer (Option.some.inj connection)
      rw [stage] at stages
      exact absurd stages (by simp)
    | failed x f =>
      obtain ⟨rfl, rfl⟩ : Guarded.slots = g ∧ none = post := by
        simpa [need?, here, stage] using need
      obtain ⟨u, -, through⟩ := use_through (·.giveUpSlot c)
        (fun s => (s.deliver x (.failed f)).again .writer) has credit
      simp only [here, stage] at connection
      rw [through, (alike_again _ _).2.1, (alike_deliver _ _ _).2.1, (alike_leave _ _).2.1]
        at connection
      have idle : (u.giveUpSlot c).link.connection.map (·.writer) = some .idle := by
        unfold giveUpSlot
        split
        · rfl
        · rw [(alike_answer _ _ _).2.1]
          rfl
      rw [show (u.giveUpSlot c).link.connection = some c from connection, Option.map_some, stage]
        at idle
      exact absurd idle (by simp)

theorem readerTurn_moves (need : s.need? .reader = some (g, post))
    (has : ((s.locks.get g).request .reader).holder = some .reader) (credit : s.credit ≠ 0) :
    ¬ Alike s.readerTurn s := by
  intro alike
  have connection := congrArg Link.connection alike.2.1
  unfold readerTurn at connection
  cases here : s.link.connection with
  | none => simp [need?, here] at need
  | some c =>
    cases chores : c.chores with
    | nil => simp [need?, here, chores] at need
    | cons chore rest =>
      have guarded : chore.guarded? = some g := by
        have first : chore.guarded?.map (fun g => (g, (none : Option Nat))) = some (g, post) := by
          simpa [need?, here, chores] using need
        obtain ⟨h, guarded, same⟩ := Option.map_eq_some_iff.mp first
        rw [guarded, (Prod.mk.inj same).1]
      obtain ⟨u, -, through⟩ := use_through
        (fun s => (s.withConnection { c with chores := rest }).doChore chore)
        (·.again .reader) has credit
      simp only [here, chores, readerChore, guarded] at connection
      rw [through, (alike_again _ _).2.1, (alike_leave _ _).2.1] at connection
      have left := doChore_chores (u.withConnection { c with chores := rest }) chore
      rw [connection] at left
      have shorter : c.chores.length = rest.length := congrArg List.length (Option.some.inj left)
      rw [chores] at shorter
      simp at shorter

/-- **Whoever has the lock of a part that it needs goes on**, once it has credit. -/
theorem Needs.moves {a : Actor} (needs : s.Needs a g)
    (has : ((s.locks.get g).request a).holder = some a) (credit : s.credit ≠ 0) :
    ¬ Alike (s.act a) s := by
  obtain ⟨post, need, sent⟩ := needs
  cases a with
  | call i => exact callTurn_moves need sent has credit
  | job n => exact jobTurn_moves need sent has credit
  | poller n => exact pollerTurn_moves need sent has credit
  | refresher n => exact refresherTurn_moves need sent has credit
  | writer => exact writerTurn_moves need has credit
  | reader => exact readerTurn_moves need has credit

end Needs

/-- **A lock is never stuck.** When nobody has anything to do, nobody needs a guarded part: whoever
has its lock could go on, and if nobody has it whoever needs it. -/
theorem Quiescent.not_needs (quiescent : s.Quiescent) (locked : s.Locked) (a : Actor)
    (g : Guarded) : ¬ s.Needs a g := by
  intro needs
  have stuck {b : Actor} (needs : s.Needs b g)
      (has : ((s.locks.get g).request b).holder = some b) : False := by
    have alike : Alike { s with credit := stretchCredit } s := ⟨rfl, rfl, rfl, rfl, rfl, rfl, rfl⟩
    exact Needs.moves (s := { s with credit := stretchCredit }) (alike.needs needs) has
      (by simp [stretchCredit]) ((quiescent b).trans alike.symm)
  cases holder : (s.locks.get g).holder with
  | none => exact stuck needs (by simp [Lock.request, holder])
  | some b =>
    have there : b ∈ (s.locks.get g).actors := by simp [Lock.actors, holder]
    exact stuck ((locked g).2 b there) (Lock.request_holder holder b)

/-- A call that waits to be told of a value goes on when it hears something or its time is up. -/
theorem silent_of_confirmTurn {i : Nat} {key : String} {sub deadline : Nat} (credit : s.credit ≠ 0)
    (stage : s.stage? i = some (.confirming key sub deadline))
    (alike : Alike (s.confirmTurn i key sub deadline) s) :
    s.now < deadline ∧ (s.link.events.receive sub).1 = none := by
  have stages : (s.confirmTurn i key sub deadline).stage? i = s.stage? i := alike.stage? i
  have link := alike.2.1
  rw [stage] at stages
  simp only [confirmTurn, if_neg credit] at stages link
  cases heard : s.link.events.receive sub with
  | mk h events =>
    simp only [heard] at stages link
    cases h with
    | none =>
      refine ⟨?_, rfl⟩
      by_contra late
      simp only [if_pos (Nat.le_of_not_lt late), stage?_finish, if_true] at stages
      exact absurd stages (by simp)
    | some h =>
      have moved := receive_moves (b := s.link.events) (h := h) (by rw [heard])
      rw [heard] at moved
      dsimp only at stages link
      split at stages
      · next same =>
        simp only [same] at link
        exact absurd (congrArg Link.events link) moved
      · next same =>
        have before : (Session.unsubscribe
            (Session.spend { s with link.events := events }) sub).stage? i
            = some (.confirming key sub deadline) := stage
        rw [(alike_again _ _).stage?, stage?_setStage, if_pos rfl, before] at stages
        exact absurd stages (by simp)
      · simp [stage?_finish] at stages

/-- Without a need, an actor that has something to do does it. -/
theorem waits_of_callTurn {i : Nat} (free : ∀ g, ¬ s.Needs (.call i) g) (credit : s.credit ≠ 0)
    (alike : Alike (s.callTurn i) s) : s.Waits (.call i) := by
  have stages : (s.callTurn i).stage? i = s.stage? i := alike.stage? i
  unfold callTurn at stages
  cases stage : s.stage? i with
  | none => simp only [Waits, stage]
  | some st =>
    simp only [stage] at stages
    cases st with
    | begin c => exact absurd stages (stage?_beginCall s i c)
    | turn c =>
      simp only [Waits, stage]
      intro head
      simp only [head, if_true] at stages
      exact stage?_control s i c (by simp) stages
    | sending x e =>
      simp only [Waits, stage]
      cases delivery : s.link.delivery? x with
      | none => rfl
      | some d =>
        simp only [delivery] at stages
        cases error : d.error? with
        | some f =>
          simp only [error] at stages
          exact absurd stages (by simp [stage?_failErrand])
        | none =>
          have sent : d = .sent := by cases d <;> simp_all [Delivery.error?]
          simp only [error, countErrand] at stages
          split at stages
          · next reset =>
            have need : s.need? (.call i) = some (.slots, some x) := by
              simp [need?, stage, reset]
            exact absurd (.counting need (by rw [delivery, sent])) (free .slots)
          · have before : s.spend.stage? i = some (.sending x e) := stage
            rw [(alike_again _ _).stage?, stage?_setStage, if_pos rfl, before] at stages
            exact absurd stages (by simp)
    | counting x e => exact absurd (.now (by simp [need?, stage])) (free .stats)
    | awaitingAnswer x =>
      simp only [Waits, stage]
      cases answer : s.link.answer? x with
      | none => rfl
      | some a => cases a <;> simp [answer] at stages
    | awaitingIdle =>
      simp only [Waits, stage]
      intro idle
      simp only [idle, if_true, stage?_finish] at stages
      exact absurd stages (by simp)
    | confirming key sub deadline =>
      simp only [Waits, stage]
      have acts : s.callTurn i = s.confirmTurn i key sub deadline := by simp only [callTurn, stage]
      exact silent_of_confirmTurn credit stage (acts ▸ alike)
    | lookingUp key => exact absurd (.now (by simp [need?, stage])) (free .settings)

theorem failJob_task (s : Session) (k : StreamTask) (reason : String) :
    ((s.withTask k).failJob reason).streamer.task = some k := by
  simp [failJob, announce, withTask]

section Task

variable {k : StreamTask} (task : s.streamer.task = some k)

include task

theorem dropTask_moves : s.dropTask.streamer.task ≠ s.streamer.task := by simp [task]

theorem abortJob_moves : s.abortJob.streamer.task ≠ s.streamer.task := by
  simp [abortJob, announce, task]

/-- A task that is at another stage has moved. -/
theorem stage_moves {k' : StreamTask} (other : k'.stage ≠ k.stage) :
    some k' ≠ s.streamer.task := by
  rw [task]
  rintro same
  exact other (congrArg StreamTask.stage (Option.some.inj same))

/-- A task that has a line to hand over and does not is held. -/
theorem held_of_taskTurn (stage : k.stage = .ready)
    (still : (s.taskTurn k).streamer.task = s.streamer.task) :
    k.job.lines[k.cursor]? ≠ none ∧ s.streamer.state ≠ .running ∧ s.streamer.state ≠ .idle ∧
      s.link.status.state ≠ .disconnected := by
  simp only [taskTurn, stage] at still
  cases next : k.job.lines[k.cursor]? with
  | none =>
    simp only [next] at still
    simp [completeJob, announce, task] at still
  | some line =>
    simp only [next, handOver] at still
    have notRunning : s.streamer.state ≠ .running := by
      intro running
      simp only [running] at still
      cases posted : s.post? (.job k.job.number) (.ofLine line) with
      | none =>
        simp only [posted] at still
        exact abortJob_moves task still
      | some r =>
        simp only [posted, withTask] at still
        exact stage_moves task (by simp [stage]) still
    have notIdle : s.streamer.state ≠ .idle := by
      intro idle
      simp only [idle] at still
      exact dropTask_moves task still
    refine ⟨by simp, notRunning, notIdle, fun gone => ?_⟩
    split at still
    · next running => exact notRunning running
    · next idle => exact notIdle idle
    · rw [if_pos gone] at still
      exact abortJob_moves task still

/-- A task that knows that its line was not sent goes on. -/
theorem sent_of_taskTurn {x : Nat} {d : Delivery} (stage : k.stage = .sending x)
    (delivery : s.link.delivery? x = some d)
    (still : (s.taskTurn k).streamer.task = s.streamer.task) : d = .sent := by
  simp only [taskTurn, stage, delivery] at still
  cases d with
  | sent => rfl
  | lost => exact absurd still (abortJob_moves task)
  | failed f =>
    simp only at still
    rw [(alike_again _ _).2.2.1, failJob_task] at still
    exact absurd still (stage_moves task (by simp [stage]))

/-- A task that waits for an answer, and is not aborted, goes on waiting as long as it may. -/
theorem unanswered_of_taskTurn {x : Nat} {deadline : Option Nat}
    (stage : k.stage = .awaiting x deadline)
    (still : (s.taskTurn k).streamer.task = s.streamer.task) :
    s.link.answer? x = none ∧ s.streamer.state ≠ .idle ∧ deadline.any (· ≤ s.now) = false := by
  simp only [taskTurn, stage] at still
  cases answer : s.link.answer? x with
  | some a =>
    cases a with
    | ack a =>
      simp only [answer] at still
      rw [(alike_again _ _).2.2.1] at still
      exact absurd still (stage_moves task (by simp [stage]))
    | lost =>
      simp only [answer] at still
      exact absurd still (abortJob_moves task)
  | none =>
    simp only [answer] at still
    refine ⟨rfl, fun idle => ?_, ?_⟩
    · rw [if_pos idle] at still
      exact dropTask_moves task still
    · by_contra late
      have late : deadline.any (· ≤ s.now) = true := by simpa using late
      split at still
      · exact dropTask_moves task still
      · rw [failJob_task] at still
        refine stage_moves task ?_ still
        rintro same
        rw [stage] at same
        simp only [StreamStage.awaiting.injEq, true_and] at same
        exact absurd late (by simp [← same])

end Task

theorem waits_of_jobTurn {n : Nat} (free : ∀ g, ¬ s.Needs (.job n) g)
    (alike : Alike (s.jobTurn n) s) : s.Waits (.job n) := by
  have still : (s.jobTurn n).streamer.task = s.streamer.task := by rw [alike.2.2.1]
  unfold jobTurn at still
  cases found : s.task? n with
  | none => simp only [Waits, found]
  | some k =>
    simp only [found] at still
    have task := (Option.filter_eq_some_iff.mp found).1
    cases stage : k.stage with
    | ready => simpa only [Waits, found, stage] using held_of_taskTurn task stage still
    | awaiting x deadline =>
      simpa only [Waits, found, stage] using unanswered_of_taskTurn task stage still
    | sending x =>
      simp only [Waits, found, stage]
      cases delivery : s.link.delivery? x with
      | none => rfl
      | some d =>
        have need : s.need? (.job n) = some (.stats, some x) := by simp [need?, found, stage]
        obtain rfl := sent_of_taskTurn task stage delivery still
        exact absurd (.counting need delivery) (free .stats)

theorem waits_of_pollerTurn {n : Nat} (free : ∀ g, ¬ s.Needs (.poller n) g)
    (alike : Alike (s.pollerTurn n) s) : s.Waits (.poller n) := by
  have link := alike.2.1
  unfold pollerTurn at link
  cases found : s.poller? n with
  | none => simp only [Waits, found]
  | some p =>
    obtain ⟨c, here, among⟩ := Option.bind_eq_some_iff.mp found
    have number : p.number = n := by simpa using List.find?_some among
    cases sending : p.sending with
    | none =>
      simp only [found, sending] at link
      simp only [Waits, found, sending]
      by_contra due
      obtain ⟨u, posted, alike⟩ := post?_of_open here (.poller n) (.realtime .statusQuery)
      rw [if_pos (Nat.le_of_not_lt due)] at link
      simp only [posted] at link
      have posts : s.link.posts.length + 1 = s.link.posts.length := by
        have traffic := setPoller_traffic u { p with
          due := p.next s.now, sending := some s.link.posts.length }
        have more := congrArg (fun t : Traffic => t.posts.length) traffic
        rw [show Link.traffic _ = s.link.traffic from congrArg Link.traffic link] at more
        simpa [Link.traffic, alike.2.1] using more.symm
      omega
    | some x =>
      simp only [found, sending] at link
      simp only [Waits, found, sending]
      cases delivery : s.link.delivery? x with
      | none => rfl
      | some d =>
        by_cases sent : d = .sent
        · subst sent
          have need : s.need? (.poller n) = some (.stats, some x) := by
            simp [need?, found, sending]
          exact absurd (.counting need delivery) (free .stats)
        · simp only [delivery, if_neg sent] at link
          refine absurd (congrArg Link.connection link)
            (setPoller_moves (p := p) { p with sending := none } ?_ ?_)
          · rw [number]
            exact found
          · intro same
            rw [← same] at sending
            exact absurd sending (by simp)

theorem waits_of_refresherTurn {n : Nat} (free : ∀ g, ¬ s.Needs (.refresher n) g)
    (alike : Alike (s.refresherTurn n) s) : s.Waits (.refresher n) := by
  have link := alike.2.1
  have refreshers := alike.2.2.2.2.1
  unfold refresherTurn at link refreshers
  cases found : s.refresher? n with
  | none => simp only [Waits, found]
  | some r =>
    have kept : (s.dropRefresher n).refreshers ≠ s.refreshers := by
      intro same
      have number : r.number = n := by simpa using List.find?_some found
      have kept := (List.filter_eq_self.mp same) r (List.mem_of_find?_eq_some found)
      exact absurd number (by simpa using kept)
    cases sending : r.sending with
    | none =>
      simp only [found, sending] at link refreshers
      simp only [Waits, found, sending]
      by_contra due
      rw [if_pos (Nat.le_of_not_lt due)] at link refreshers
      cases here : s.link.connection with
      | none =>
        simp only [post?_of_closed here] at refreshers
        exact kept refreshers
      | some c =>
        obtain ⟨u, posted, alike⟩ := post?_of_open here (.refresher n)
          (.ofLine Command.dumpSettings.line)
        simp only [posted] at link
        have posts := congrArg (fun l : Link => l.posts.length) (alike.2.1.symm.trans link)
        simp at posts
    | some x =>
      simp only [found, sending] at refreshers
      simp only [Waits, found, sending]
      cases delivery : s.link.delivery? x with
      | none => rfl
      | some d =>
        by_cases sent : d = .sent
        · subst sent
          have need : s.need? (.refresher n) = some (.stats, some x) := by
            simp [need?, found, sending]
          exact absurd (.counting need delivery) (free .stats)
        · simp only [delivery, if_neg sent] at refreshers
          exact absurd refreshers kept

theorem failWrite_writer (s : Session) (c : Connection) (x : Nat) (f : WriteFault) (y : Nat) :
    (s.failWrite c x f).link.connection.map (·.writer) ≠ some (.writing y) := by
  have connection := congrArg Traffic.connection (failWrite_link (s := s) c x f)
  rw [show (s.failWrite c x f).link.connection = _ from connection]
  split <;> simp

/-- The writer is done with a payload that it could write, one way or the other. -/
theorem attemptWrite_writer (s : Session) (c : Connection) (x y : Nat) :
    (s.attemptWrite c x).link.connection.map (·.writer) ≠ some (.writing y) := by
  unfold attemptWrite
  dsimp only
  split
  · exact failWrite_writer _ _ _ _ _
  · split
    · exact failWrite_writer _ _ _ _ _
    · rw [(alike_deliver _ _ _).2.1]
      simp [withWriter, withConnection, Session.again]

theorem waits_of_writerTurn (free : ∀ g, ¬ s.Needs .writer g) (credit : s.credit ≠ 0)
    (alike : Alike s.writerTurn s) : s.Waits .writer := by
  have connection := congrArg Link.connection alike.2.1
  unfold writerTurn at connection
  cases here : s.link.connection with
  | none => simp only [Waits, here]
  | some c =>
    cases stage : c.writer with
    | idle =>
      simp only [here, stage, if_neg credit, takePayload] at connection
      simp only [Waits, here, stage]
      split at connection
      · have stages := congrArg Connection.writer (Option.some.inj connection)
        rw [stage] at stages
        exact absurd stages (by simp)
      · have stages := congrArg Connection.writer (Option.some.inj connection)
        rw [stage] at stages
        exact absurd stages (by simp)
      · next none none' => exact ⟨none, none'⟩
    | taken x => exact absurd (.now (by simp [need?, here, stage])) (free .slots)
    | failed x f => exact absurd (.now (by simp [need?, here, stage])) (free .slots)
    | writing x =>
      simp only [here, stage] at connection
      simp only [Waits, here, stage]
      by_contra notStalled
      rw [if_neg notStalled] at connection
      refine attemptWrite_writer s c x x ?_
      have back : (s.attemptWrite c x).link.connection = some c := connection
      rw [back, Option.map_some, stage]

theorem waits_of_readerTurn (free : ∀ g, ¬ s.Needs .reader g)
    (alike : Alike s.readerTurn s) : s.Waits .reader := by
  have connection := congrArg Link.connection alike.2.1
  unfold readerTurn at connection
  cases here : s.link.connection with
  | none => simp only [Waits, here]
  | some c =>
    simp only [Waits, here]
    cases chores : c.chores with
    | cons chore rest =>
      simp only [here, chores, readerChore] at connection
      cases guarded : chore.guarded? with
      | some g =>
        exact absurd (.now (by simp [need?, here, chores, guarded])) (free g)
      | none =>
        simp only [guarded] at connection
        have left := doChore_chores (s.withConnection { c with chores := rest }) chore
        rw [(alike_again _ _).2.1] at connection
        rw [connection] at left
        have shorter : c.chores.length = rest.length :=
          congrArg List.length (Option.some.inj left)
        rw [chores] at shorter
        simp at shorter
    | nil =>
      refine ⟨rfl, ?_⟩
      have ended : s.endConnection.link.connection ≠ s.link.connection := by
        rw [(alike_endConnection here).2.1, here]
        simp
      simp only [here, chores] at connection
      cases inbox : c.inbox with
      | nil => rfl
      | cons first rest =>
        simp only [inbox] at connection
        cases first with
        | eof => exact absurd (connection.trans here.symm) ended
        | bytes bs =>
          -- a chore is to count the bytes
          have counting := congrArg Connection.chores (Option.some.inj connection)
          rw [chores] at counting
          exact absurd counting (by simp)
        | fault f =>
          cases f with
          | timedOut =>
            have shorter : rest = c.inbox :=
              congrArg Connection.inbox (Option.some.inj connection)
            rw [inbox] at shorter
            exact absurd (congrArg List.length shorter) (by simp)
          | _ => exact absurd (connection.trans here.symm) ended

/-- **An actor that changes nothing waits for something.** -/
theorem waits_of_act {a : Actor} (free : ∀ g, ¬ s.Needs a g) (credit : s.credit ≠ 0)
    (alike : Alike (s.act a) s) : s.Waits a := by
  cases a with
  | call i => exact waits_of_callTurn free credit alike
  | job n => exact waits_of_jobTurn free alike
  | poller n => exact waits_of_pollerTurn free alike
  | refresher n => exact waits_of_refresherTurn free alike
  | writer => exact waits_of_writerTurn free credit alike
  | reader => exact waits_of_readerTurn free alike

/-- **Nobody has anything to do** exactly if everybody waits for something. -/
theorem Locked.quiescent_iff (locked : s.Locked) : s.Quiescent ↔ ∀ a, s.Waits a := by
  have fresh : Alike { s with credit := stretchCredit } s := ⟨rfl, rfl, rfl, rfl, rfl, rfl, rfl⟩
  constructor
  · intro quiescent a
    refine (waits_of_act (s := { s with credit := stretchCredit }) (fun g needs => ?_)
      (by simp [stretchCredit]) ((quiescent a).trans fresh.symm)).of_alike fresh.symm
    exact quiescent.not_needs locked a g (fresh.symm.needs needs)
  · intro waits a
    exact ((waits a).of_alike fresh).act.trans fresh

/-! ## Sessions in which all is done -/

/-- Whether the reader, the writer and the pollers of the link have nothing to do, and the device
takes bytes. -/
def linkIdle (s : Session) : Bool :=
  s.link.connection.all fun c => c.pollers.isEmpty && c.writer == .idle && c.realtime.isEmpty &&
    c.lines.isEmpty && c.chores.isEmpty && c.inbox.isEmpty && !c.stalled

theorem linkIdle_cases (idle : s.linkIdle = true) {c : Connection}
    (here : s.link.connection = some c) :
    c.pollers = [] ∧ c.writer = .idle ∧ c.realtime = [] ∧ c.lines = [] ∧ c.chores = [] ∧
      c.inbox = [] ∧ c.stalled = false := by
  rw [linkIdle, here] at idle
  simpa [and_assoc] using idle

/-- A session in which all is done, or held. -/
theorem quiescent_of_done (locked : s.Locked) (calls : s.calls = [])
    (task : ∀ n, s.Waits (.job n)) (refreshers : s.refreshers = [])
    (idle : s.linkIdle = true) : s.Quiescent := by
  refine locked.quiescent_iff.mpr fun a => ?_
  cases a with
  | call i => simp [Waits, stage?, calls]
  | job n => exact task n
  | refresher n => simp [Waits, refresher?, refreshers]
  | _ =>
    cases here : s.link.connection with
    | none => simp [Waits, poller?, here]
    | some c =>
      obtain ⟨pollers, writer, realtime, lines, chores, inbox, -⟩ := linkIdle_cases idle here
      simp [Waits, poller?, here, pollers, writer, realtime, lines, chores, inbox]

end Cnc.Session
