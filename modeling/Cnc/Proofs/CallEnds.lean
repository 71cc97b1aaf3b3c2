import Cnc.Proofs.TurnEnds

/-!
# How the turn of a host call ends

A host call ends its turn as every other actor does (`Session.TurnEnd`): it
goes on at its next stage, or has given its last result, or waits. It is the
only actor that brings others along – a poller, a streaming task, or a
refresher (`Session.newcomer?`) –, and these are there and woken then.
-/

namespace Cnc.Session

open Traffic

variable {s t u : Session} {a b : Actor} {cast : Finset Actor} {i : Nat}

/-! ## Host calls -/

/-- A call that gives its last result is gone. -/
theorem Tended.returns (tended : s.Tended cast (.call i)) (r : Result) :
    TurnEnd cast (.call i) (s.finish i r) :=
  .waits (tended.finish r) (waits_of_gone (by simp))

theorem Tended.returnsTurn (tended : s.Tended cast (.call i)) (r : Result) :
    TurnEnd cast (.call i) (s.finish i r).endTurn :=
  .waits (tended.finish r).endTurn (waits_of_gone (by simp))

/-- A call goes on at another stage. -/
theorem Tended.goesOn (tended : s.Tended cast (.call i)) (st : CallStage) :
    TurnEnd cast (.call i) ((s.setStage i st).again (.call i)) :=
  (tended.setStage st).again

/-- A call waits at another stage, or is gone. -/
theorem Tended.stays (tended : s.Tended cast (.call i)) {st : CallStage}
    (waits : (s.setStage i st).StageWaits i st) : TurnEnd cast (.call i) (s.setStage i st) := by
  refine .waits (tended.setStage st) ?_
  cases stage : s.stage? i with
  | none => exact waits_of_gone (by simp [stage])
  | some st' => exact (waits_call_iff (by simp [stage])).mpr waits

/-- A call waits to know what becomes of what it has handed over. -/
theorem Tended.sends (tended : s.Tended cast (.call i)) (writer : .writer ∈ cast) {p : Payload}
    {x : Nat} (posted : s.post? (.call i) p = some (x, t)) (e : Errand) :
    TurnEnd cast (.call i) (t.setStage i (.sending x e)) := by
  have unknown : t.link.delivery? x = none := post?_delivery? posted
  exact (tended.post? writer posted).stays unknown

theorem send_ends (tended : s.Tended cast (.call i)) (writer : .writer ∈ cast) (p : Payload)
    (e : Errand) : TurnEnd cast (.call i) (s.send i p e) := by
  unfold send
  split
  · exact tended.returns _
  · next posted => exact tended.sends writer posted e

theorem sendControl_ends (tended : s.Tended cast (.call i)) (writer : .writer ∈ cast)
    (command : Realtime) (e : Errand) {closed : Session → Session}
    (tended' : (closed s).Tended cast (.call i)) :
    TurnEnd cast (.call i) (s.sendControl i command e closed) := by
  unfold sendControl
  split
  · exact tended'.returnsTurn _
  · next posted => exact tended.sends writer posted e

theorem connect_ends (tended : s.Tended cast (.call i)) (port : String)
    (refusal : Option DeviceFault) : TurnEnd cast (.call i) (s.connect i port refusal) := by
  unfold connect
  split
  · exact tended.returns _
  · next closed =>
    split
    · exact (tended.setStatus _).returns _
    · let opened : Session := { s.setStatus .connecting with
        link.connection := some (.fresh s.link.opened port)
        link.opened := s.link.opened + 1 }
      have tended' : opened.Tended cast (.call i) := by
        refine (tended.setStatus .connecting).quiet rfl (fun b there => ?_) rfl fun b _ waits => ?_
        · cases b with
          | poller n => exact absurd rfl there
          | _ => exact there
        · cases b with
          | poller n => simp [Waits, opened, poller?, Connection.fresh]
          | writer => exact ⟨rfl, rfl⟩
          | reader => exact ⟨rfl, rfl⟩
          | _ => exact waits
      exact (tended'.publish _).returns _

theorem addPoller_ends (tended : s.Tended cast (.call i)) (new : .poller s.spawned ∈ cast)
    (interval : Nat) : TurnEnd cast (.call i) (s.addPoller i interval) := by
  unfold addPoller
  split
  · exact tended.returns _
  · next c here =>
    split
    · exact tended.returns _
    · let added : Session := { s.withConnection
          { c with pollers := c.pollers ++ [⟨s.spawned, interval, s.now, none⟩] } with
        spawned := s.spawned + 1 }
      have others {n : Nat} (other : s.spawned ≠ n) : added.poller? n = s.poller? n := by
        simp [added, poller?, Session.withConnection, here, List.find?_append, other]
      have tended' : (added.wakeAll [.poller s.spawned]).Tended cast (.call i) := by
        refine tended.change (by rfl) (fun b there => ?_) (fun j member => .inl member)
          (fun b member => List.mem_singleton.mp member ▸ new) fun b _ waits => ?_
        · cases b with
          | poller n =>
            by_cases own : s.spawned = n
            · exact .inr (own ▸ new)
            · exact .inl fun gone => there ((others own).trans gone)
          | _ => exact .inl there
        · cases b with
          | poller n =>
            by_cases own : s.spawned = n
            · exact .inr (by simp [own])
            · exact .inl (waits.poller_stays (others own) fun p _ own => own)
          | writer | reader =>
            simp only [Waits, here] at waits
            exact .inl waits
          | _ => exact .inl waits
      exact tended'.returns _

theorem Tended.spawnRefresher (tended : s.Tended cast a) (new : .refresher s.spawned ∈ cast)
    (delay : Nat) : (s.spawnRefresher delay).Tended cast a := by
  let added : Session := { s with
    refreshers := s.refreshers ++ [⟨s.spawned, s.now + delay, none⟩]
    spawned := s.spawned + 1 }
  have others {n : Nat} (other : s.spawned ≠ n) : added.refresher? n = s.refresher? n := by
    simp [added, refresher?, List.find?_append, other]
  show (added.wakeAll [.refresher s.spawned]).Tended cast a
  refine tended.change (by rfl) (fun b there => ?_) (fun j member => .inl member)
    (fun b member => List.mem_singleton.mp member ▸ new) fun b _ waits => ?_
  · cases b with
    | refresher n =>
      by_cases own : s.spawned = n
      · exact .inr (own ▸ new)
      · exact .inl fun gone => there ((others own).trans gone)
    | _ => exact .inl there
  · cases b with
    | refresher n =>
      by_cases own : s.spawned = n
      · exact .inr (by simp [own])
      · exact .inl (waits.refresher_stays (others own) fun p _ own => own)
    | _ => exact .inl waits

theorem startJob_ends (tended : s.Tended cast (.call i)) (new : .job s.streamer.started ∈ cast)
    (idle : s.streamer.state = .idle → s.streamer.task = none) (program : String) :
    TurnEnd cast (.call i) (s.startJob i program) := by
  unfold startJob
  dsimp only
  split
  · exact tended.returnsTurn _
  · next isIdle =>
    have none : s.streamer.task = none := idle (not_not.mp isIdle)
    split
    · exact tended.returnsTurn _
    · split
      · exact tended.returnsTurn _
      · let job : Job := ⟨s.streamer.started, Job.linesOf program⟩
        let set : Session := { s with
          streamer.job := some job
          streamer.progress := ⟨0, (Job.linesOf program).length⟩
          streamer.started := s.streamer.started + 1 }
        have tended₁ : set.Tended cast (.call i) :=
          tended.quiet rfl (fun _ there => there) rfl fun b _ waits => by cases b <;> exact waits
        have tended₂ : ((set.setState .running).announce
            (.started (Job.linesOf program).length)).Tended cast (.call i) :=
          (tended₁.setState fun _ => none).announce _
        generalize (set.setState .running).announce (.started (Job.linesOf program).length) = v
          at tended₂
        have tended₃ : ((v.withTask ⟨job, 0, .ready⟩).wakeAll [.job job.number]).Tended cast
            (.call i) := by
          refine tended₂.change (by rfl) (fun b there => ?_) (fun j member => .inl member)
            (fun b member => List.mem_singleton.mp member ▸ new) fun b _ waits => ?_
          · cases b with
            | job n =>
              by_cases own : s.streamer.started = n
              · exact .inr (own ▸ new)
              · exact absurd (by simp [task?, withTask, job, own]) there
            | _ => exact .inl there
          · cases b with
            | job n =>
              by_cases own : s.streamer.started = n
              · exact .inr (by simp [job, own])
              · exact .inl (waits_of_no_task? (by simp [task?, withTask, job, own]))
            | _ => exact .inl waits
        exact tended₃.endTurn.returns _


/-- **What the job streamer is controlled by** has the job's task stopped for. -/
theorem control_ends (tended : s.Tended cast (.call i)) (writer : .writer ∈ cast) (c : Control)
    (new : ∀ program, c = .start program → .job s.streamer.started ∈ cast)
    (idle : s.streamer.state = .idle → s.streamer.task = none) :
    TurnEnd cast (.call i) (s.control i c) := by
  cases c with
  | start program => exact startJob_ends tended (new program rfl) idle program
  | pause =>
    dsimp only [control]
    split
    · have paused : (s.setState .paused).Tended cast (.call i) :=
        tended.setState fun other => absurd rfl other
      have watched := paused.wakeAll fun b member =>
        paused.present b (present_of_watchingTask member)
      exact sendControl_ends watched writer _ _ watched
    · exact tended.returnsTurn _
  | resume =>
    dsimp only [control]
    split
    · exact sendControl_ends tended writer _ _ tended
    · exact tended.returnsTurn _
  | stop =>
    dsimp only [control]
    split
    · exact sendControl_ends tended.dropTask writer _ _
        (tended.dropTask.conclude (dropTask_task s) _)
    · exact tended.returnsTurn _

/-- A call that takes a place in the order of turns has the turn if there is no other. -/
theorem takeTurn_ends (tended : s.Tended cast (.call i)) (writer : .writer ∈ cast) (c : Control)
    (new : s.streamer.turns = [] → ∀ program, c = .start program → .job s.streamer.started ∈ cast)
    (idle : s.streamer.state = .idle → s.streamer.task = none) (absent : i ∉ s.streamer.turns) :
    TurnEnd cast (.call i) (s.takeTurn i c) := by
  let queued : Session := { s with streamer.turns := s.streamer.turns ++ [i] }
  have tended' : queued.Tended cast (.call i) := by
    have same : queued.wakeAll [] = queued := rfl
    rw [← same]
    refine tended.change (by rfl) (fun b there => .inl there) (fun j member => ?_) (by simp)
      fun b other waits => .inl ?_
    · refine (List.mem_append.mp member).imp_right fun own => ?_
      exact List.mem_singleton.mp own ▸ tended.self
    · cases b with
      | call j =>
        refine waits.call_stays rfl fun st _ own => ?_
        have apart : i ≠ j := fun same => other (by rw [same])
        cases st with
        | turn c' =>
          cases turns : s.streamer.turns <;> simp_all [StageWaits, queued]
        | _ => exact own
      | _ => exact waits
  unfold takeTurn
  dsimp only
  split
  · next first => exact control_ends tended' writer c (new first) idle
  · next taken =>
    refine tended'.stays ?_
    show (s.streamer.turns ++ [i]).head? ≠ some i
    intro first
    cases turns : s.streamer.turns with
    | nil => exact taken turns
    | cons j rest =>
      rw [turns] at first absent
      exact absent (Option.some.inj first ▸ List.mem_cons_self)

theorem Tended.subscribe (tended : s.Tended cast a) :
    ({ s with link.events := s.link.events.subscribe } : Session).Tended cast a :=
  tended.listen fun _ => EventBus.silent_subscribe

theorem beginConfirmation_ends (tended : s.Tended cast (.call i)) (writer : .writer ∈ cast)
    (id : UInt16) (value : String) (delay timeout : Nat) :
    TurnEnd cast (.call i) (s.beginConfirmation i id value delay timeout) := by
  unfold beginConfirmation
  dsimp only
  split
  · exact (tended.subscribe.unsubscribe _).returns _
  · next posted => exact tended.subscribe.sends writer posted _

/-- **Who may come to be there** in the turn of a call. -/
def newcomer? (s : Session) : CallStage → Option Actor
  | .begin (.poll _) => some (.poller s.spawned)
  | .begin (.control (.start _)) =>
    if s.streamer.turns = [] then some (.job s.streamer.started) else none
  | .turn (.start _) => some (.job s.streamer.started)
  | .counting _ (.setting ..) => some (.refresher s.spawned)
  | _ => none

theorem beginCall_ends (tended : s.Tended cast (.call i)) (owned : s.Owned)
    (writer : .writer ∈ cast) (c : Call) (new : ∀ b, s.newcomer? (.begin c) = some b → b ∈ cast)
    (idle : s.streamer.state = .idle → s.streamer.task = none) (absent : i ∉ s.streamer.turns) :
    TurnEnd cast (.call i) (s.beginCall i c) := by
  cases c with
  | connect port refusal => exact connect_ends tended port refusal
  | disconnect => exact (tended.endConnection owned).returns _
  | write | writeAcked | realtime | writeSetting => exact send_ends tended writer _ _
  | control c =>
    refine takeTurn_ends tended writer c (fun first program same => new _ ?_) idle absent
    rw [same]
    exact if_pos first
  | wait =>
    dsimp only [beginCall]
    split
    · exact tended.returns _
    · next busy => exact tended.stays busy
  | poll interval => exact addPoller_ends tended (new _ rfl) interval
  | confirmSetting => exact beginConfirmation_ends tended writer _ _ _ _
  | resetSettings =>
    have emptied : ({ s with link.settings := .empty } : Session).Tended cast (.call i) :=
      tended.quiet rfl (fun _ there => there) rfl fun b _ waits => by cases b <;> exact waits
    exact emptied.returns _
  | settings | jobLines | ports => exact tended.returns _

theorem failErrand_ends (tended : s.Tended cast (.call i)) (errand : Errand) (e : LinkError)
    (stopped : errand = .stop → s.streamer.task = none) :
    TurnEnd cast (.call i) (s.failErrand i errand e) := by
  cases errand with
  | report | reportAnswer | realtime => exact tended.returns _
  | pause | resume => exact tended.returnsTurn _
  | stop => exact (tended.conclude (stopped rfl) _).returnsTurn _
  | setting delay confirmation =>
    cases confirmation with
    | none => exact tended.returns _
    | some c => exact (tended.unsubscribe _).returns _

theorem Tended.dropAnswers (tended : s.Tended cast (.call i)) (owned : s.Owned) :
    s.dropAnswers.Tended cast (.call i) := by
  unfold Session.dropAnswers
  cases here : s.link.connection with
  | none => exact tended
  | some c =>
    have dropped : (s.withConnection { c with slots := [] }).Tended cast (.call i) :=
      tended.withConnection here rfl (fun _ => ⟨rfl, rfl, rfl, rfl⟩) fun _ => ⟨rfl, rfl⟩
    exact dropped.answerAll (owned.withConnection here _ rfl) _ _

theorem countErrand_ends (tended : s.Tended cast (.call i)) (owned : s.Owned)
    (acting : s.acting = none) (x : Nat) (errand : Errand) :
    TurnEnd cast (.call i) (s.countErrand i x errand) := by
  unfold countErrand
  dsimp only
  split
  · exact tended.use acting fun u alike tended =>
      ((tended.dropAnswers (owned.of_alike alike)).leave _).goesOn _
  · exact tended.spend.goesOn _

theorem doErrand_ends (tended : s.Tended cast (.call i)) (x : Nat) (errand : Errand)
    (new : ∀ b, s.newcomer? (.counting x errand) = some b → b ∈ cast)
    (stopped : errand = .stop → s.streamer.task = none) :
    TurnEnd cast (.call i) (s.doErrand i x errand) := by
  cases errand with
  | report | realtime => exact tended.returns _
  | reportAnswer =>
    have given : (s.give i .sent).Tended cast (.call i) :=
      tended.quiet rfl (fun _ there => there) rfl fun b _ waits => by cases b <;> exact waits
    exact given.goesOn _
  | pause => exact tended.returnsTurn _
  | resume => exact tended.resume.returnsTurn _
  | stop => exact (tended.conclude (stopped rfl) _).returnsTurn _
  | setting delay confirmation =>
    have refreshing := tended.spawnRefresher (new _ rfl) delay
    cases confirmation with
    | none => exact refreshing.returns _
    | some c => exact refreshing.goesOn _

theorem confirmTurn_ends (tended : s.Tended cast (.call i)) (acting : s.acting = none)
    {key : String} {sub deadline : Nat} (stage : s.stage? i = some (.confirming key sub deadline)) :
    TurnEnd cast (.call i) (s.confirmTurn i key sub deadline) := by
  have timeUp := (tended.unsubscribe sub).returns (.reported none)
  unfold confirmTurn
  dsimp only
  split
  · split
    · exact timeUp
    · exact .yields tended acting rfl
  · split
    · next nothing =>
      split
      · exact timeUp
      · next early =>
        refine .waits tended ((waits_call_iff stage).mpr ⟨Nat.lt_of_not_le early, ?_⟩)
        rw [nothing]
    · next heard events received =>
      have heeds : ({ s with link.events := events } : Session).spend.Tended cast (.call i) := by
        refine (tended.listen fun other silent => ?_).spend
        have kept := EventBus.silent_receive silent sub
        rwa [received] at kept
      split
      · exact heeds.again
      · exact (heeds.unsubscribe _).goesOn _
      · exact (heeds.unsubscribe _).returns _

/-- **A host call** leaves nobody out. -/
theorem callTurn_ends (tended : s.Tended cast (.call i)) (acting : s.acting = none)
    (owned : s.Owned) (governed : Governed s.stage? s.streamer.core) (queued : s.Queued)
    (writer : .writer ∈ cast)
    (new : ∀ st, s.stage? i = some st → ∀ b, s.newcomer? st = some b → b ∈ cast) :
    TurnEnd cast (.call i) (s.callTurn i) := by
  unfold callTurn
  cases stage : s.stage? i with
  | none => exact .waits tended (waits_of_gone stage)
  | some st =>
    have stopped (own : st.errand? = some .stop) : s.streamer.task = none :=
      governed.stopped i st stage own
    cases st with
    | begin c =>
      refine beginCall_ends tended owned writer c (new _ stage) governed.idle fun member => ?_
      obtain ⟨st, stage', inTurn⟩ := (queued.mem i).mp member
      obtain rfl := Option.some.inj (stage.symm.trans stage')
      exact absurd inTurn (by simp [CallStage.inTurn, CallStage.controls, CallStage.errand?])
    | turn c =>
      dsimp only
      split
      · exact control_ends tended writer c (fun program same => new _ stage _ (by rw [same]; rfl))
          governed.idle
      · next notFirst => exact .waits tended ((waits_call_iff stage).mpr notFirst)
    | sending x errand =>
      dsimp only
      split
      · next unknown => exact .waits tended ((waits_call_iff stage).mpr unknown)
      · split
        · exact failErrand_ends tended errand _ fun own => stopped (by rw [own]; rfl)
        · exact countErrand_ends tended owned acting x errand
    | counting x errand =>
      refine tended.use acting fun u alike tended => ?_
      have counted := alike_leave (u.countSent x) .stats
      refine doErrand_ends ((tended.countSent x).leave _) x errand (fun b same => ?_) fun own => ?_
      · refine new _ stage b ?_
        have spawned : ((u.countSent x).leave .stats).spawned = s.spawned := by
          rw [counted.2.2.2.2.2.1, countSent_spawned, alike.2.2.2.2.2.1]
        cases errand with
        | setting delay confirmation =>
          rw [← same]
          exact congrArg (some ∘ Actor.refresher) spawned.symm
        | _ => exact absurd same (by simp [newcomer?])
      · rw [counted.2.2.1, countSent_streamer, alike.2.2.1]
        exact stopped (by rw [own]; rfl)
    | awaitingAnswer x =>
      dsimp only
      split
      · next unanswered => exact .waits tended ((waits_call_iff stage).mpr unanswered)
      · exact tended.returns _
      · exact tended.returns _
    | awaitingIdle =>
      dsimp only
      split
      · exact tended.returns _
      · next busy => exact .waits tended ((waits_call_iff stage).mpr busy)
    | confirming key sub deadline => exact confirmTurn_ends tended acting stage
    | lookingUp key => exact tended.use acting fun u _ tended => (tended.leave _).returns _

end Cnc.Session
