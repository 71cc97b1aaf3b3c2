import Cnc.Proofs.Patience
import Cnc.Proofs.Reachable

/-!
# What losing the link does to a job

A job does not outlive the connection that it is streamed over. When the
connection ends, all that was handed over gets its delivery and all that was
sent its answer, so there is nothing left that the streaming task or a call
that controls the job could wait for, and the status tells a task that is
held. So by the time when everybody waits again the job has ended
(`Session.ended_of_closed`).

What can go wrong is that a call that resumes the job sets the state after
the job has ended, or that a port is opened before everybody has noticed.
Neither happens if nothing else is going on while the connection ends.
-/

namespace Cnc

/-- What comes before a call stops a job is that it is about to. -/
theorem CallStage.Follows.stops {st st' : CallStage} (follows : st.Follows st')
    (stops : st'.stops = true) : st.stops = true := by
  cases follows with
  | stay => exact stops
  | queue c => cases c <;> simp_all [CallStage.stops]
  | @send c x e fits =>
    cases e <;> simp [CallStage.stops] at stops
    cases c with
    | control c => cases c <;> simp_all [CallStage.stops, Errand.fits]
    | _ => simp [Errand.fits] at fits
  | @steer c x e fits =>
    cases e <;> simp [CallStage.stops] at stops
    cases c <;> simp_all [CallStage.stops, Errand.fits]
  | count x e => cases e <;> simp_all [CallStage.stops]
  | _ => simp [CallStage.stops] at stops

namespace Session

open Traffic

variable {s t u : Session} {e : Event} {j : Job}

/-- **The last answer of the job was received**, if the task knows it or not. -/
def LastAnswered (s : Session) (j : Job) : Prop :=
  ∃ k, s.streamer.task = some k ∧ k.job = j ∧
    (j.lines.length ≤ k.cursor ∨
      j.lines.length = k.cursor + 1 ∧ ∃ x, k.stage.ticket? = some x ∧ s.link.traffic.Acked x)

/-- **The link was lost**: nothing goes over it, and no call resumes a job. -/
structure Severed (s : Session) : Prop where
  closed : s.Closed
  status : s.link.status.state = .disconnected
  settled : s.Settled

/-! ## While the link is lost -/

/-- A job is started on an open link only. -/
theorem started_of_closed (closed : s.link.connection = none) (e : Event) :
    (s.next e).streamer.core.started = s.streamer.core.started := by
  obtain ⟨told, -, tells, permits⟩ := next_announces s e
  cases tells.tolls with
  | none _ started => exact started
  | start begins announced =>
    have isOpen := permits _ announced
    simp [Permits, closed] at isOpen
  | one _ ends => exact ends.started

/-- A call that is about to count its payload knows that it was sent. -/
theorem counting_cases {i x : Nat} {errand : Errand} (control : errand.isControl = true)
    (stage : (s.next e).stage? i = some (.counting x errand)) :
    s.stage? i = some (.counting x errand) ∨
      s.stage? i = some (.sending x errand) ∧ s.link.delivery? x = some .sent := by
  have steps := next_steps s e
  generalize s.next e = t at steps stage
  cases steps with
  | @call j _ handles =>
    by_cases own : i = j
    · subst own
      have controls := handles.1
      rw [stage] at controls
      generalize same : some (CallStage.counting x errand) = st at controls
      generalize t.streamer.core = m at controls
      cases controls with
      | wait => exact .inl rfl
      | aside _ after =>
        rw [← same] at after
        simp [CallStage.controls, CallStage.errand?, control] at after
      | count stage sent =>
        obtain ⟨rfl, rfl⟩ := CallStage.counting.inj (Option.some.inj same)
        exact .inr ⟨stage, sent⟩
      | queue => exact absurd same (by simp)
      | steer turn steers => cases steers <;> exact absurd same (by simp)
      | finish => exact absurd same (by simp)
    · exact .inl ((handles.2 i own).symm.trans stage)
  | stream _ _ calls | aside _ calls => exact .inl ((stage?_congr calls i).symm.trans stage)
  | gone => exact .inl stage
  | @begin j c _ new begun others =>
    by_cases own : i = j
    · rw [own, begun] at stage
      exact absurd stage (by simp)
    · exact .inl ((others i own).symm.trans stage)

theorem Severed.next (severed : s.Severed) (turn : e.isTurn = true) : (s.next e).Severed where
  closed := severed.closed.next turn
  status := (congrArg MachineStatus.state (severed.closed.rests e).status).trans severed.status
  settled := by
    refine ⟨(severed.closed.next turn).connect, fun i x stage => ?_, fun i x stage => ?_⟩
    · have same : (s.next e).link.delivery? x = s.link.delivery? x :=
        congrArg (fun v => Traffic.delivery? v x) (severed.closed.traffic e)
      rw [same]
      exact severed.settled.sending i x (severed.closed.sending stage)
    · rcases counting_cases rfl stage with before | ⟨before, sent⟩
      · exact severed.settled.counting i x before
      · exact severed.settled.sending i x before sent

/-- **Nobody resumes a job late** while the link is lost. -/
theorem Severed.not_lateResume (severed : s.Severed) (fits : ¬ s.Orphaned) : ¬ s.LateResume e := by
  rintro ⟨i, st, rfl, stage, errand, none, running⟩
  cases st with
  | counting x f =>
    obtain rfl := Option.some.inj errand
    exact severed.settled.counting i x stage
  | sending x f =>
    obtain rfl := Option.some.inj errand
    -- the call fails, and leaves the state as it was
    have same : (s.next (.act (.call i))).streamer.job = s.streamer.job ∧
        (s.next (.act (.call i))).streamer.state = s.streamer.state := by
      show (s.callTurn i).streamer.job = _ ∧ (s.callTurn i).streamer.state = _
      unfold callTurn
      rw [stage]
      dsimp only
      cases delivery : s.link.delivery? x with
      | none => exact ⟨rfl, rfl⟩
      | some d =>
        cases d with
        | sent => exact absurd delivery (severed.settled.sending i x stage)
        | failed | lost => simp [failErrand, Delivery.error?]
    exact fits ⟨same.1.symm.trans none, by rw [← same.2, running]; simp⟩
  | _ => exact absurd errand (by simp [CallStage.errand?])

/-- While the link is lost, no call comes to stop the job that was not about to before. -/
theorem StopPending.of_next (pending : (s.next e).StopPending) (turn : e.isTurn = true) :
    s.StopPending := by
  obtain ⟨i, st', stage', stops⟩ := pending
  rcases next_follows s e stage' with ⟨st, stage, follows⟩ | ⟨c, rfl, -, -⟩
  · exact ⟨i, st, stage, follows.stops stops⟩
  · exact absurd turn (by simp [Event.isTurn])

/-- While the link is lost, no answer is received. -/
theorem Severed.lastAnswered (severed : s.Severed) (answered : (s.next e).LastAnswered j) :
    s.LastAnswered j := by
  obtain ⟨k', task', own, last⟩ := answered
  have traffic := severed.closed.traffic e
  rw [traffic] at last
  have started := started_of_closed severed.closed.connection e
  have keep (same : (s.next e).streamer.core.task = s.streamer.core.task) : s.LastAnswered j :=
    ⟨k', same.symm.trans task', own, last⟩
  have steps := next_steps s e
  generalize s.next e = t at steps task' started traffic keep
  cases steps with
  | call handles =>
    rcases handles.1.jobs with ⟨program, turns, -, -, core⟩ | ⟨-, task, -⟩
    · rw [core] at started
      exact absurd started (by simp [Session.started, Streamer.core])
    · rcases task with none | same
      · exact absurd (none.symm.trans task') (by simp)
      · exact keep same
  | gone => exact keep rfl
  | begin _ _ _ _ core | aside _ _ core => exact keep (by rw [core])
  | @stream k _ task streams =>
    have task' : t.streamer.core.task = some k' := task'
    generalize t.streamer.core = m at streams task'
    generalize v : t.link.traffic = w at streams
    cases streams with
    | wait => exact ⟨k', task', own, last⟩
    | hand here => exact absurd (severed.closed.connection.symm.trans here) (by simp)
    | conclude | vanish => exact absurd task' (by simp)
    | @sent x deadline stage =>
      obtain rfl := Option.some.inj task'
      refine ⟨k, task, own, last.imp_right ?_⟩
      rintro ⟨length, y, ticket, acked⟩
      exact ⟨length, y, by rw [← ticket, stage]; rfl, acked⟩
    | retry stage =>
      obtain rfl := Option.some.inj task'
      refine ⟨k, task, own, .inl (last.resolve_right ?_)⟩
      rintro ⟨-, y, ticket, -⟩
      exact absurd ticket (by simp [StreamStage.ticket?])
    | @late x deadline _ stage =>
      obtain rfl := Option.some.inj task'
      refine ⟨k, task, own, last.imp_right ?_⟩
      rintro ⟨length, y, ticket, acked⟩
      exact ⟨length, y, by rw [← ticket, stage]; rfl, acked⟩
    | @advance x deadline a stage answered =>
      obtain rfl := Option.some.inj task'
      have enough : j.lines.length ≤ k.cursor + 1 := by
        refine last.resolve_right ?_
        rintro ⟨-, y, ticket, -⟩
        exact absurd ticket (by simp [StreamStage.ticket?])
      refine ⟨k, task, own, ?_⟩
      rcases Nat.lt_or_ge k.cursor j.lines.length with more | done
      · exact .inr ⟨by omega, x, by rw [stage]; rfl, a, answered⟩
      · exact .inl done

/-! ## What becomes of the job -/

/-- **How a job may end** when the link is lost: it is complete if the last answer was received, it
is stopped if a call is about to do so, and else, or if that call finds it gone, it is aborted. A
call that has taken the job over already stops it. -/
def EndsBy (s : Session) (j : Job) : JobEvent → Prop
  | .completed total => total = j.lines.length ∧ s.LastAnswered j
  | .state .stopped => s.StopPending
  | .aborted => ¬ s.Stopping
  | _ => False

/-- **What has become of the job `j`** of a session `s` that lost its link. -/
inductive Fate (s : Session) (j : Job) (t : Session) : Prop
  | goesOn (job : t.streamer.job = some j) (untold : endings t.streamer.events.log = [])
      (stop : t.StopPending → s.StopPending) (answered : t.LastAnswered j → s.LastAnswered j)
      (task : t.streamer.core.task ≠ none → s.streamer.core.task ≠ none)
  | ended (none : t.streamer.job = none) (idle : t.streamer.state = .idle) (d : JobEvent)
      (told : endings t.streamer.events.log = [d]) (reason : s.EndsBy j d)

/-- **A turn while the link is lost**: the job goes on, or it ends once. -/
theorem Fate.next (fate : s.Fate j t) (severed : t.Severed) (before : s.Reachable)
    (reachable : t.Reachable) (turn : e.isTurn = true) (fits : ¬ (t.next e).Orphaned) :
    s.Fate j (t.next e) := by
  have governed := reachable.governed
  obtain ⟨told, log, tells, permits⟩ := next_announces t e
  have closed := severed.closed.connection
  have unstarted {n : Nat} : .started n ∉ told := by
    intro announced
    have isOpen := permits _ announced
    simp [Permits, closed] at isOpen
  cases fate with
  | goesOn job untold stop answered task =>
    cases tells.tolls with
    | start _ announced => exact absurd announced unstarted
    | none same _ remains quiet =>
      refine .goesOn (same.trans job) ?_ (fun pending => stop (pending.of_next turn))
        (fun last => answered (severed.lastAnswered last)) (task ∘ remains)
      rw [log, endings_append, quiet, untold]
    | one d ends announced cause one =>
      refine .ended ends.job ends.state d (by rw [log, endings_append, one, untold]; rfl) ?_
      rcases cause with ⟨k, own, rfl | ⟨rfl, -, done⟩⟩ | rfl
      · rintro ⟨i, st, stage, stopping⟩
        exact task (by rw [own]; simp) (before.governed.stopped i st stage stopping)
      · have same : k.job = j := Option.some.inj ((governed.task k own).symm.trans job)
        refine ⟨by rw [same], answered ⟨k, own, same, .inl (same ▸ done)⟩⟩
      · obtain ⟨i, st, -, stage, stops, -⟩ := permits _ announced
        exact stop ⟨i, st, stage, stops⟩
  | ended none idle d told' reason =>
    cases tells.tolls with
    | start _ announced => exact absurd announced unstarted
    | none same _ _ quiet =>
      have gone : (t.next e).streamer.job = .none := same.trans none
      refine .ended gone ?_ d (by rw [log, endings_append, quiet, told']) reason
      by_contra notIdle
      exact fits ⟨gone, notIdle⟩
    | one d' ends announced cause =>
      rcases cause with ⟨k, own, -⟩ | rfl
      · exact absurd ((governed.idle idle).symm.trans own) (by simp)
      · obtain ⟨i, st, -, stage, -, notIdle | stopping⟩ := permits _ announced
        · exact absurd idle notIdle
        · exact absurd idle (reachable.active ⟨i, st, stage, stopping⟩)

/-- **What a run of turns does to a session that lost its link.** -/
theorem Severed.after (severed : t.Severed) (before : s.Reachable) (reachable : t.Reachable)
    (fits : ¬ t.Orphaned) (fate : s.Fate j t) (fs : List Event)
    (turns : ∀ f ∈ fs, f.isTurn = true) :
    (t.after fs).Severed ∧ ¬ (t.after fs).Orphaned ∧ s.Fate j (t.after fs) ∧
      (t.after fs).link.traffic = t.link.traffic ∧
      (t.after fs).streamer.core.started = t.streamer.core.started := by
  induction fs generalizing t with
  | nil => exact ⟨severed, fits, fate, rfl, rfl⟩
  | cons f fs ih =>
    have turn : f.isTurn = true := turns f List.mem_cons_self
    have fits' : ¬ (t.next f).Orphaned := fun orphaned =>
      severed.not_lateResume fits (lateResume_of_orphaned reachable.governed fits orphaned)
    have fate' := fate.next severed before reachable turn fits'
    obtain ⟨there, fits'', fate'', traffic, started⟩ := ih (severed.next turn) (reachable.next f)
      fits' fate' fun g member => turns g (List.mem_cons_of_mem _ member)
    refine ⟨there, fits'', fate'', traffic.trans (severed.closed.traffic f), ?_⟩
    exact started.trans (started_of_closed severed.closed.connection f)

/-! ## By the time when everybody waits -/

end Session

end Cnc
