import Mathlib.Data.List.Induction
import Cnc.Proofs.Standing

/-!
# What every turn does to the locks

Whatever happens next, an actor that then has a lock or waits for one needed
it before and still does (`Session.next_keeps`). The actor that has the turn
either gets through, and is out of the lock again when its turn ends, or it
stays where it was. So after every run only those who need a guarded part are
at its lock (`Session.locked_after`).
-/

namespace Cnc.Session

variable {s t u : Session} {a : Actor} {g : Guarded}

/-- **At every lock are only actors that needed it in `s`** and that are in `t` where they were. -/
def Keeps (s t : Session) : Prop :=
  ∀ g, (t.locks.get g).Orderly ∧
    ∀ b ∈ (t.locks.get g).actors, s.Needs b g ∧ t.need? b = s.need? b

theorem Keeps.locked (keeps : s.Keeps t)
    (told : ∀ x, s.link.delivery? x = some .sent → t.link.delivery? x = some .sent) :
    t.Locked := by
  intro g
  refine ⟨(keeps g).1, fun b there => ?_⟩
  obtain ⟨⟨post, need, sent⟩, same⟩ := (keeps g).2 b there
  exact ⟨post, same.trans need, fun x hx => told x (sent x hx)⟩

theorem Keeps.refl (locked : s.Locked) : s.Keeps s :=
  fun g => ⟨(locked g).1, fun b there => ⟨(locked g).2 b there, rfl⟩⟩

/-- An actor that needs nothing is at no lock, and leaves the others where they are. -/
theorem Spares.keeps (spares : s.Spares a t) (locked : s.Locked) (free : ∀ g, ¬ s.Needs a g) :
    s.Keeps t := by
  intro g
  obtain ⟨orderly, among⟩ := spares g (locked g).1
  refine ⟨orderly, fun b there => ?_⟩
  obtain ⟨before, same⟩ := among b there
  have needs := (locked g).2 b before
  exact ⟨needs, same fun own => free g (own ▸ needs)⟩

theorem not_needs_of_none (none : s.need? a = none) (g : Guarded) : ¬ s.Needs a g := by
  rintro ⟨post, need, -⟩
  exact absurd (none.symm.trans need) (by simp)

/-- Leaving a lock moves nobody. -/
theorem leave_spares (s : Session) (g : Guarded) (a : Actor) : s.Spares a (s.leave g) := by
  intro h orderly
  rw [locks_leave]
  have same (b : Actor) : (s.leave g).need? b = s.need? b := (alike_leave s g).need? b
  by_cases other : h = g
  · subst other
    rw [Locks.get_set_self]
    refine ⟨orderly.leave, fun b there => ⟨?_, fun _ => same b⟩⟩
    rw [Lock.actors_leave] at there
    exact List.mem_append_right _ there
  · rw [Locks.get_set_of_ne _ _ other]
    exact ⟨orderly, fun b there => ⟨there, fun _ => same b⟩⟩

/-- **Using a guarded part.** An actor that gets through is out of the lock again. -/
theorem use_holds {inside after : Session → Session} (locked : s.Locked) (needs : s.Needs a g)
    (within : ∀ u : Session, u.Alike s → u.Alone a (inside u))
    (later : ∀ u : Session, u.Alike s →
      ((inside u).leave g).Spares a (after ((inside u).leave g))) :
    s.Keeps (s.use a g inside after) := by
  -- asking for the lock is joining those who need it
  have asked (u : Session) (alike : u.Alike s)
      (locks : u.locks = s.locks.set g ((s.locks.get g).request a)) : s.Keeps u := by
    intro h
    rw [locks]
    by_cases same : h = g
    · subst same
      rw [Locks.get_set_self]
      refine ⟨(locked h).1.request a, fun b there => ⟨?_, alike.need? b⟩⟩
      rcases (locked h).1.mem_request.mp there with rfl | before
      · exact needs
      · exact (locked h).2 b before
    · rw [Locks.get_set_of_ne _ _ same]
      exact ⟨(locked h).1, fun b there => ⟨(locked h).2 b there, alike.need? b⟩⟩
  unfold use
  dsimp only
  split
  · exact asked _ ⟨rfl, rfl, rfl, rfl, rfl, rfl, rfl⟩ rfl
  · next has =>
    split
    · exact asked _ ⟨rfl, rfl, rfl, rfl, rfl, rfl, rfl⟩ rfl
    · have has : ((s.locks.get g).request a).holder = some a := by simpa using has
      generalize hu :
        Session.spend { s with locks := s.locks.set g ((s.locks.get g).request a) } = u
      have locks : u.locks = s.locks.set g ((s.locks.get g).request a) := by rw [← hu]; rfl
      have alike : u.Alike s := by
        rw [← hu]
        exact ⟨rfl, rfl, rfl, rfl, rfl, rfl, rfl⟩
      have keeps := asked u alike locks
      have spares : u.Spares a (after ((inside u).leave g)) :=
        ((within u alike).spares.trans (leave_spares _ g a)).trans (later u alike)
      intro h
      obtain ⟨orderly, among⟩ := spares h (keeps h).1
      refine ⟨orderly, fun b there => ?_⟩
      obtain ⟨before, same⟩ := among b there
      obtain ⟨need, still⟩ := (keeps h).2 b before
      refine ⟨need, (same fun own => ?_).trans still⟩
      -- the actor itself has left the only lock that it needs
      subst own
      obtain rfl := needs.unique need
      have left : b ∈ (((inside u).leave h).locks.get h).actors :=
        ((later u alike h (by
          rw [locks_leave, Locks.get_set_self, (within u alike).1]
          exact (keeps h).1.leave)).2 b there).1
      rw [locks_leave, Locks.get_set_self, (within u alike).1, locks, Locks.get_set_self] at left
      exact ((locked h).1.request b).not_mem_leave has left

/-! ## The turn of a host call -/

/-- What a post that was not sent is needed for, is not needed. -/
theorem not_needs_of_unsent {x : Nat} (need : ∀ h, s.need? a = some h → h.2 = some x)
    (unsent : s.link.delivery? x ≠ some .sent) (g : Guarded) : ¬ s.Needs a g := by
  rintro ⟨post, needs, sent⟩
  obtain rfl : post = some x := need _ needs
  exact unsent (sent x rfl)

theorem countErrand_keeps (locked : s.Locked) {i x : Nat} {errand : Errand}
    (stage : s.stage? i = some (.sending x errand)) (sent : s.link.delivery? x = some .sent) :
    s.Keeps (s.countErrand i x errand) := by
  unfold countErrand
  dsimp only
  split
  · next reset =>
    have need : s.need? (.call i) = some (.slots, some x) := by simp [need?, stage, reset]
    refine use_holds locked (.counting need sent) (fun u alike => ?_) (fun u alike => ?_)
    · exact (still_dropAnswers u).alone _
    · exact (goOn_alone _ i _).spares
  · next notReset =>
    have none : s.need? (.call i) = none := by simp [need?, stage, notReset]
    exact (goOn_alone s.spend i _).spares.keeps locked (not_needs_of_none none)

theorem callTurn_keeps (locked : s.Locked) (governed : Governed s.stage? s.streamer.core)
    (i : Nat) : s.Keeps (s.callTurn i) := by
  have idle : s.streamer.state = .idle → s.streamer.task = none := governed.idle
  unfold callTurn
  cases stage : s.stage? i with
  | none => exact .refl locked
  | some st =>
    cases st with
    | begin c =>
      have none : s.need? (.call i) = none := by simp only [need?, stage]
      exact (beginCall_spares s i c idle).keeps locked (not_needs_of_none none)
    | turn c =>
      have none : s.need? (.call i) = none := by simp only [need?, stage]
      dsimp only
      split
      · exact (control_spares s i c idle).keeps locked (not_needs_of_none none)
      · exact .refl locked
    | sending x errand =>
      have need (h) (some : s.need? (.call i) = some h) : h.2 = Option.some x := by
        simp only [need?, stage] at some
        split at some
        · rw [← Option.some.inj some]
        · exact absurd some (by simp)
      dsimp only
      cases delivery : s.link.delivery? x with
      | none => exact .refl locked
      | some d =>
        dsimp only
        cases error : d.error? with
        | some e =>
          refine (failErrand_alone s i errand e).spares.keeps locked
            (not_needs_of_unsent need ?_)
          rw [delivery]
          rintro ⟨⟩
          exact absurd error (by simp [Delivery.error?])
        | none =>
          obtain rfl : d = .sent := by cases d <;> simp_all [Delivery.error?]
          exact countErrand_keeps locked stage delivery
    | counting x errand =>
      refine use_holds locked (.now (by simp only [need?, stage]))
        (fun u alike => ?_) (fun u alike => ?_)
      · exact (still_countSent u x).alone _
      · exact (doErrand_alone _ i x errand).spares
    | awaitingAnswer x =>
      have none : s.need? (.call i) = none := by simp only [need?, stage]
      refine Spares.keeps (a := .call i) ?_ locked (not_needs_of_none none)
      dsimp only
      split
      · exact (Alone.refl s _).spares
      · exact (finish_alone s i _).spares
      · exact (finish_alone s i _).spares
    | awaitingIdle =>
      have none : s.need? (.call i) = none := by simp only [need?, stage]
      refine Spares.keeps (a := .call i) ?_ locked (not_needs_of_none none)
      dsimp only
      split
      · exact (finish_alone s i _).spares
      · exact (Alone.refl s _).spares
    | confirming key sub deadline =>
      have none : s.need? (.call i) = none := by simp only [need?, stage]
      exact (confirmTurn_alone s i key sub deadline).spares.keeps locked (not_needs_of_none none)
    | lookingUp key =>
      refine use_holds locked (.now (by simp only [need?, stage]))
        (fun u alike => .refl u _) (fun u alike => ?_)
      exact (finish_alone _ i _).spares

/-! ## The turn of the streaming task -/

/-- The streaming task goes on with its job. -/
theorem withTask_alone {k : StreamTask} (task : s.streamer.task = some k) (cursor : Nat)
    (stage : StreamStage) : s.Alone (.job k.job.number) (s.withTask ⟨k.job, cursor, stage⟩) := by
  refine ⟨rfl, fun b other => ?_⟩
  cases b with
  | job m =>
    have apart : k.job.number ≠ m := fun number => other (by rw [number])
    simp [need?, task?, withTask, task, Option.filter, apart]
  | _ => rfl

theorem abortJob_spares (s : Session) (a : Actor) : s.Spares a s.abortJob :=
  (dropTask_spares s a).trans
    (((still_announce _ _).trans (still_conclude _ _)).alone a).spares

theorem completeJob_spares (s : Session) (k : StreamTask) (a : Actor) :
    s.Spares a (s.completeJob k) :=
  (dropTask_spares s a).trans
    (((still_announce _ _).trans (still_conclude _ _)).alone a).spares

theorem failJob_still (s : Session) (reason : String) : s.Still (s.failJob reason) :=
  (still_setState s _).trans (still_announce _ _)

theorem handOver_spares {k : StreamTask} (task : s.streamer.task = some k) (line : String) :
    s.Spares (.job k.job.number) (s.handOver k line) := by
  unfold handOver
  split
  · split
    · exact abortJob_spares s _
    · next x t posted =>
      have there : t.streamer.task = some k := by
        rw [(post?_streamer posted).2.2]
        exact task
      exact ((post?_alone posted).trans (withTask_alone there _ _)).spares
  · exact dropTask_spares s _
  · split
    · exact abortJob_spares s _
    · exact (Alone.refl s _).spares

theorem advanceCursor_alone {k : StreamTask} (task : s.streamer.task = some k) (a : Ack) :
    s.Alone (.job k.job.number) (s.advanceCursor k a) := by
  have report (u : Session) (there : u.streamer.task = some k) (p : JobProgress) (cursor : Nat) :
      u.Alone (.job k.job.number)
        (({ u with streamer.progress := p }.announce (.progress p)).withTask
          ⟨k.job, cursor, .ready⟩) := by
    have reported : u.Alone (.job k.job.number)
        ({ u with streamer.progress := p }.announce (.progress p)) := .quiet rfl rfl rfl rfl rfl
    exact reported.trans (withTask_alone (show Streamer.task _ = _ from there) _ _)
  unfold advanceCursor
  cases a with
  | ok => exact report s task _ _
  | error code =>
    have noted := (still_announce s (.lineError k.cursor code)).alone (.job k.job.number)
    exact noted.trans (report (s.announce (.lineError k.cursor code)) task _ _)

theorem taskTurn_keeps (locked : s.Locked) {k : StreamTask} (task : s.streamer.task = some k) :
    s.Keeps (s.taskTurn k) := by
  have own : s.task? k.job.number = some k := by simp [task?, task, Option.filter]
  have none (other : ∀ x, k.stage ≠ .sending x) : s.need? (.job k.job.number) = none := by
    simp only [need?, own, Option.bind_some]
  unfold taskTurn
  dsimp only
  cases stage : k.stage with
  | ready =>
    refine Spares.keeps (a := .job k.job.number) ?_ locked
      (not_needs_of_none (none (by simp [stage])))
    dsimp only
    split
    · exact completeJob_spares s k _
    · exact handOver_spares task _
  | sending x =>
    have need (h) (some : s.need? (.job k.job.number) = some h) : h.2 = Option.some x := by
      simp only [need?, own, Option.bind_some, stage] at some
      rw [← Option.some.inj some]
    dsimp only
    cases delivery : s.link.delivery? x with
    | none => exact .refl locked
    | some d =>
      cases d with
      | sent =>
        have need : s.need? (.job k.job.number) = Option.some (.stats, Option.some x) := by
          simp [need?, own, stage]
        refine use_holds locked (.counting need delivery) (fun u alike => ?_) (fun u alike => ?_)
        · exact (still_countSent u x).alone _
        · have there : ((u.countSent x).leave .stats).streamer.task = some k := by
            rw [(alike_leave _ _).2.2.1, countSent_streamer, alike.2.2.1]
            exact task
          exact ((withTask_alone there _ _).trans (.quiet rfl rfl rfl rfl rfl)).spares
      | lost =>
        exact (abortJob_spares s _).keeps locked (not_needs_of_unsent need (by simp [delivery]))
      | failed f =>
        refine Spares.keeps (a := .job k.job.number) ?_ locked
          (not_needs_of_unsent need (by simp [delivery]))
        exact (((withTask_alone task _ _).trans ((failJob_still _ _).alone _)).trans
          (.quiet rfl rfl rfl rfl rfl)).spares
  | awaiting x deadline =>
    refine Spares.keeps (a := .job k.job.number) ?_ locked
      (not_needs_of_none (none (by simp [stage])))
    dsimp only
    split
    · next a _ =>
      exact ((advanceCursor_alone task a).trans (.quiet rfl rfl rfl rfl rfl)).spares
    · exact abortJob_spares s _
    · split
      · exact dropTask_spares s _
      · split
        · exact ((withTask_alone task _ _).trans ((failJob_still _ _).alone _)).spares
        · exact (Alone.refl s _).spares

theorem jobTurn_keeps (locked : s.Locked) (n : Nat) : s.Keeps (s.jobTurn n) := by
  unfold jobTurn
  split
  · next k found => exact taskTurn_keeps locked (Option.filter_eq_some_iff.mp found).1
  · next absent =>
    exact .refl locked

/-! ## Pollers and refreshers -/

theorem setPoller_alone (s : Session) (p : Poller) :
    s.Alone (.poller p.number) (s.setPoller p) := by
  unfold setPoller
  cases here : s.link.connection with
  | none => exact .refl s _
  | some c =>
    refine ⟨rfl, fun b other => ?_⟩
    cases b with
    | poller m =>
      have apart : m ≠ p.number := fun same => other (by rw [same])
      have found := find?_replace Poller.number (fun _ => p) apart (fun _ _ => rfl) c.pollers
      simp only [need?, poller?, withConnection, here, Option.bind_some, found]
    | writer => simp [need?, withConnection, here]
    | reader => simp [need?, withConnection, here]
    | _ => rfl

theorem pollerTurn_keeps (locked : s.Locked) (n : Nat) : s.Keeps (s.pollerTurn n) := by
  unfold pollerTurn
  cases found : s.poller? n with
  | none => exact .refl locked
  | some p =>
    have number : p.number = n := by
      obtain ⟨c, -, among⟩ := Option.bind_eq_some_iff.mp found
      simpa using List.find?_some among
    have note (u : Session) (due : Nat) (sending : Option Nat) :
        u.Alone (.poller n) (u.setPoller ⟨p.number, p.interval, due, sending⟩) := by
      subst number
      exact setPoller_alone u _
    dsimp only
    cases sending : p.sending with
    | none =>
      have none : s.need? (.poller n) = none := by
        simp only [need?, found, Option.bind_some, sending, Option.map_none]
      refine Spares.keeps (a := .poller n) ?_ locked (not_needs_of_none none)
      dsimp only
      split
      · split
        · exact (Alone.refl s _).spares
        · next x t posted => exact ((post?_alone posted).trans (note t _ _)).spares
      · exact (Alone.refl s _).spares
    | some x =>
      have own : s.need? (.poller n) = some (.stats, some x) := by
        simp only [need?, found, Option.bind_some, sending, Option.map_some]
      have need (h) (same : s.need? (.poller n) = some h) : h.2 = some x := by
        rw [← Option.some.inj (own.symm.trans same)]
      dsimp only
      cases delivery : s.link.delivery? x with
      | none => exact .refl locked
      | some d =>
        dsimp only
        split
        · next sent =>
          refine use_holds locked (.counting own (by rw [delivery, sent]))
            (fun u alike => ?_) (fun u alike => ?_)
          · exact (still_countSent u x).alone _
          · exact ((note _ _ _).trans (.quiet rfl rfl rfl rfl rfl)).spares
        · next unsent =>
          refine Spares.keeps (a := .poller n) ?_ locked
            (not_needs_of_unsent need (by simpa [delivery] using unsent))
          exact ((note s _ _).trans (.quiet rfl rfl rfl rfl rfl)).spares

theorem dropRefresher_alone (s : Session) (n : Nat) :
    s.Alone (.refresher n) (s.dropRefresher n) := by
  refine ⟨rfl, fun b other => ?_⟩
  cases b with
  | refresher m =>
    have apart : m ≠ n := fun same => other (by rw [same])
    have found : (s.refreshers.filter (·.number ≠ n)).find? (·.number = m)
        = s.refreshers.find? (·.number = m) := by
      rw [List.find?_filter]
      congr 1
      funext r
      by_cases same : r.number = m <;> simp [same, apart]
    simp only [need?, refresher?, dropRefresher, found]
  | _ => rfl

theorem refresherTurn_keeps (locked : s.Locked) (n : Nat) : s.Keeps (s.refresherTurn n) := by
  unfold refresherTurn
  cases found : s.refresher? n with
  | none => exact .refl locked
  | some r =>
    dsimp only
    cases sending : r.sending with
    | none =>
      have none : s.need? (.refresher n) = none := by
        simp only [need?, found, Option.bind_some, sending, Option.map_none]
      refine Spares.keeps (a := .refresher n) ?_ locked (not_needs_of_none none)
      dsimp only
      split
      · split
        · exact (dropRefresher_alone s n).spares
        · next x t posted =>
          refine ((post?_alone posted).trans ?_).spares
          refine ⟨rfl, fun b other => ?_⟩
          cases b with
          | refresher m =>
            have apart : m ≠ n := fun same => other (by rw [same])
            have found := find?_replace Refresher.number (fun q => { q with sending := some x })
              apart (fun q same => same) t.refreshers
            simp only [need?, refresher?, found]
          | _ => rfl
      · exact (Alone.refl s _).spares
    | some x =>
      have own : s.need? (.refresher n) = some (.stats, some x) := by
        simp only [need?, found, Option.bind_some, sending, Option.map_some]
      have need (h) (same : s.need? (.refresher n) = some h) : h.2 = some x := by
        rw [← Option.some.inj (own.symm.trans same)]
      dsimp only
      cases delivery : s.link.delivery? x with
      | none => exact .refl locked
      | some d =>
        dsimp only
        split
        · next sent =>
          refine use_holds locked (.counting own (by rw [delivery, sent]))
            (fun u alike => ?_) (fun u alike => ?_)
          · exact (still_countSent u x).alone _
          · exact (dropRefresher_alone _ n).spares
        · next unsent =>
          exact (dropRefresher_alone s n).spares.keeps locked
            (not_needs_of_unsent need (by simpa [delivery] using unsent))

/-! ## The writer and the reader -/

/-- The writer goes on at another stage. -/
theorem withWriter_alone {c c' : Connection} (here : s.link.connection = some c)
    (there : t.link.connection = some c') (locks : t.locks = s.locks) (calls : t.calls = s.calls)
    (task : t.streamer.task = s.streamer.task) (refreshers : t.refreshers = s.refreshers)
    (pollers : c'.pollers = c.pollers) (chores : c'.chores = c.chores) : s.Alone .writer t := by
  refine ⟨locks, fun b other => ?_⟩
  cases b with
  | call i => simp only [need?, stage?_congr calls i]
  | job n => simp only [need?, task?, task]
  | poller n => simp [need?, poller?, here, there, pollers]
  | refresher n => simp only [need?, refresher?, refreshers]
  | writer => exact absurd rfl other
  | reader => simp [need?, here, there, chores]

theorem failWrite_alone {c : Connection} (here : s.link.connection = some c) (x : Nat)
    (f : WriteFault) (writes flushes : Nat) :
    s.Alone .writer
      (s.failWrite { c with writeFaults := writes, flushFaults := flushes } x f) := by
  unfold failWrite
  split
  · exact withWriter_alone here rfl rfl rfl rfl rfl rfl rfl
  · refine Alone.trans ?_ ((still_deliver _ _ _).alone _)
    exact withWriter_alone here rfl rfl rfl rfl rfl rfl rfl

theorem attemptWrite_alone {c : Connection} (here : s.link.connection = some c) (x : Nat) :
    s.Alone .writer (s.attemptWrite c x) := by
  unfold attemptWrite
  dsimp only
  split
  · exact failWrite_alone here x .write _ _
  · have wired : s.Alone .writer { s with link.wire := s.link.wire ++ [x] } :=
      .quiet rfl rfl rfl rfl rfl
    split
    · exact wired.trans
        (failWrite_alone (s := { s with link.wire := s.link.wire ++ [x] }) here x .flush _ _)
    · refine Alone.trans ?_ ((still_deliver _ _ _).alone _)
      exact withWriter_alone here rfl rfl rfl rfl rfl rfl rfl

theorem giveUpSlot_alone {c : Connection} (here : s.link.connection = some c) :
    s.Alone .writer (s.giveUpSlot c) := by
  unfold giveUpSlot
  split
  · exact withWriter_alone here rfl rfl rfl rfl rfl rfl rfl
  · have dropped : s.Alone .writer
        (s.withConnection { c with slots := c.slots.dropLast, writer := .idle }) :=
      withWriter_alone here rfl rfl rfl rfl rfl rfl rfl
    exact dropped.trans ((still_answer _ _ _).alone _)

theorem writerTurn_keeps (locked : s.Locked) : s.Keeps s.writerTurn := by
  unfold writerTurn
  cases here : s.link.connection with
  | none => exact .refl locked
  | some c =>
    have there {u : Session} (alike : u.Alike s) : u.link.connection = some c := by
      rw [alike.2.1]
      exact here
    dsimp only
    cases stage : c.writer with
    | idle =>
      have none : s.need? .writer = none := by simp [need?, here, stage]
      refine Spares.keeps (a := .writer) ?_ locked (not_needs_of_none none)
      dsimp only
      split
      · exact (Alone.quiet (s := s) (a := .writer) rfl rfl rfl rfl rfl).spares
      · unfold takePayload
        split
        · refine Alone.spares ?_
          exact withWriter_alone here rfl rfl rfl rfl rfl rfl rfl
        · refine Alone.spares ?_
          exact withWriter_alone here rfl rfl rfl rfl rfl rfl rfl
        · exact (Alone.refl s _).spares
    | taken x =>
      refine use_holds locked (.now (by simp [need?, here, stage]))
        (fun u alike => ?_) (fun u alike => ?_)
      · exact withWriter_alone (there alike) rfl rfl rfl rfl rfl rfl rfl
      · exact (Alone.quiet rfl rfl rfl rfl rfl).spares
    | writing x =>
      have none : s.need? .writer = none := by simp [need?, here, stage]
      refine Spares.keeps (a := .writer) ?_ locked (not_needs_of_none none)
      dsimp only
      split
      · exact (Alone.refl s _).spares
      · exact (attemptWrite_alone here x).spares
    | failed x f =>
      refine use_holds locked (.now (by simp [need?, here, stage]))
        (fun u alike => ?_) (fun u alike => ?_)
      · exact giveUpSlot_alone (there alike)
      · exact (((still_deliver _ _ _).alone _).trans (.quiet rfl rfl rfl rfl rfl)).spares

theorem doChore_still (s : Session) (chore : Chore) : s.Still (s.doChore chore) := by
  cases chore with
  | setStatus status => exact still_setStatus s status
  | publish e => exact still_publish s e
  | settle a =>
    show s.Still (s.settleAnswer a)
    unfold settleAnswer
    cases here : s.link.connection with
    | none => exact .refl s
    | some c =>
      dsimp only
      split
      · exact .refl s
      · refine Still.trans ?_ (still_answer _ _ _)
        exact .withConnection here rfl rfl rfl rfl rfl rfl rfl rfl
  | _ => exact .of rfl rfl rfl rfl rfl

/-- The reader goes on with the next chore. -/
theorem withReader_alone {c c' : Connection} (here : s.link.connection = some c)
    (pollers : c'.pollers = c.pollers) (writer : c'.writer = c.writer) :
    s.Alone .reader (s.withConnection c') := by
  refine ⟨rfl, fun b other => ?_⟩
  cases b with
  | poller n => simp [need?, poller?, withConnection, here, pollers]
  | writer => simp [need?, withConnection, here, writer]
  | reader => exact absurd rfl other
  | _ => rfl

theorem readerTurn_keeps (locked : s.Locked) : s.Keeps s.readerTurn := by
  unfold readerTurn
  cases here : s.link.connection with
  | none => exact .refl locked
  | some c =>
    dsimp only
    cases chores : c.chores with
    | nil =>
      have none : s.need? .reader = none := by simp [need?, here, chores]
      refine Spares.keeps (a := .reader) ?_ locked (not_needs_of_none none)
      have read (c' : Connection) (pollers : c'.pollers = c.pollers)
          (writer : c'.writer = c.writer) :
          s.Spares .reader ((s.withConnection c').again .reader) :=
        ((withReader_alone here pollers writer).trans (.quiet rfl rfl rfl rfl rfl)).spares
      cases c.inbox with
      | nil => exact (Alone.refl s _).spares
      | cons first rest =>
        cases first with
        | bytes bs => exact read _ rfl rfl
        | eof => exact endConnection_spares s _
        | fault f =>
          cases f with
          | timedOut => exact read _ rfl rfl
          | _ => exact endConnection_spares s _
    | cons chore rest =>
      have done (u : Session) (alike : u.Alike s) :
          u.Alone .reader ((u.withConnection { c with chores := rest }).doChore chore) := by
        have there : u.link.connection = some c := by
          rw [alike.2.1]
          exact here
        have next : u.Alone .reader (u.withConnection { c with chores := rest }) :=
          withReader_alone there rfl rfl
        exact next.trans ((doChore_still _ chore).alone _)
      dsimp only [readerChore]
      cases guarded : chore.guarded? with
      | none =>
        have none : s.need? .reader = none := by simp [need?, here, chores, guarded]
        refine Spares.keeps (a := .reader) ?_ locked (not_needs_of_none none)
        exact ((done s ⟨rfl, rfl, rfl, rfl, rfl, rfl, rfl⟩).trans
          (.quiet rfl rfl rfl rfl rfl)).spares
      | some g =>
        refine use_holds locked (.now (by simp [need?, here, chores, guarded]))
          done (fun u alike => ?_)
        exact (Alone.quiet rfl rfl rfl rfl rfl).spares

/-! ## Every event -/

/-- What everybody keeps, and what leaves everybody where they are. -/
theorem Still.keeps (still : s.Still t) (locked : s.Locked) : s.Keeps t := by
  intro g
  rw [still.1]
  exact ⟨(locked g).1, fun b there => ⟨(locked g).2 b there, still.2 b⟩⟩

theorem device_still (s : Session) (i : Nat) (d : DeviceAction) :
    s.Still (s.next (.device i d)) := by
  have drive {c c' : Connection} (here : s.link.connection = some c)
      (pollers : c'.pollers = c.pollers) (writer : c'.writer = c.writer)
      (chores : c'.chores = c.chores) : s.Still (s.withConnection c') :=
    .withConnection here rfl rfl rfl rfl rfl pollers writer chores
  show s.Still (if _ then _ else _)
  split
  · exact .of rfl rfl rfl rfl rfl
  · unfold deviceAct
    cases here : s.link.connection with
    | none => exact .refl s
    | some c =>
      cases d with
      | send | hangUp | failRead | unstall =>
        exact (drive here rfl rfl rfl).trans (still_wake _ _)
      | _ => exact drive here rfl rfl rfl

theorem begin_still (s : Session) (i : Nat) (c : Call) : s.Still (s.next (.call i c)) := by
  show s.Still (if _ then _ else _)
  split
  · exact .refl s
  · next new =>
    have absent : s.stage? i = none := by simpa using new
    refine Still.trans ?_ (still_wake _ (.call i))
    refine ⟨rfl, fun b => ?_⟩
    cases b with
    | call j =>
      -- a call that begins needs nothing yet
      simp only [need?, stage?_added absent c j]
      by_cases same : j = i
      · subst same
        simp [absent]
      · simp [same]
    | _ => rfl

/-- **Whatever happens next, at every lock are only actors that needed it before** and that are
where they were. -/
theorem next_keeps (locked : s.Locked) (governed : Governed s.stage? s.streamer.core) (e : Event) :
    s.Keeps (s.next e) := by
  cases e with
  | act a =>
    cases a with
    | call i => exact callTurn_keeps locked governed i
    | job n => exact jobTurn_keeps locked n
    | poller n => exact pollerTurn_keeps locked n
    | refresher n => exact refresherTurn_keeps locked n
    | writer => exact writerTurn_keeps locked
    | reader => exact readerTurn_keeps locked
  | call i c => exact (begin_still s i c).keeps locked
  | device i d => exact (device_still s i d).keeps locked
  | schedule | elapse | observe =>
    refine Still.keeps ?_ locked
    exact .of rfl rfl rfl rfl rfl

theorem locked_initial (timeout : Option Nat) : (initial timeout).Locked := by
  intro g
  cases g <;>
    exact ⟨⟨fun _ => rfl, List.nodup_nil⟩, by simp [initial, Locks.free, Locks.get, Lock.free,
      Lock.actors]⟩

/-- **In every session that can be reached, only those who need a guarded part are at its
lock.** -/
theorem locked_after (timeout : Option Nat) (es : List Event) :
    ((initial timeout).after es).Locked := by
  induction es using List.reverseRecOn with
  | nil => exact locked_initial timeout
  | append_singleton es e ih =>
    rw [after_append, after_cons, after_nil]
    refine (next_keeps ih (governed_after timeout es) e).locked fun x sent => ?_
    exact (onward_next (filed_after timeout es) e).2.told x _ sent

end Cnc.Session
