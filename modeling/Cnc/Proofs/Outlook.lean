import Cnc.Proofs.Turns

/-!
# What a session knows of its machine

The time, the status of the machine, its settings, the counts of what was
received and the events of the link are the `Outlook` of a session. Turns
take no time (`Session.act_now`). The rest of the outlook is what the reader
found out: no other turn changes it, except that of a call that opens or
closes the link or forgets the settings (`Session.act_outlook`). Most turns
leave the whole `Session.view` alone, that is, also who listens to the events
of the link, and how far.
-/

namespace Cnc

/-- **What a session knows of its machine.** -/
structure Outlook where
  now : Nat
  status : MachineStatus
  settings : Settings
  bytesReceived : Nat
  framesReceived : Nat
  framesRejected : Nat
  /-- All events of the link so far. -/
  events : List LinkEvent

/-- Whether a call, when it begins, may change what a session knows of its machine. -/
def Call.clears : Call → Bool
  | .connect .. | .disconnect | .resetSettings => true
  | _ => false

/-- The subscription to the events of the link of a call that waits for a setting to be reported, or
will do so when its payload was sent. -/
def CallStage.subscription? : CallStage → Option Nat
  | .sending _ (.setting _ (some c)) | .counting _ (.setting _ (some c)) => some c.subscription
  | .confirming _ sub _ => some sub
  | _ => none

/-- Whether a call at this stage may change who listens to the events of the link, and how far. -/
def CallStage.tunes : CallStage → Bool
  | .begin (.confirmSetting ..) => true
  | st => st.subscription?.isSome

namespace Session

variable {s t : Session}

/-- What the session knows of its machine. -/
def outlook (s : Session) : Outlook where
  now := s.now
  status := s.link.status
  settings := s.link.settings
  bytesReceived := s.link.stats.bytesReceived
  framesReceived := s.link.stats.framesReceived
  framesRejected := s.link.stats.framesRejected
  events := s.link.events.log

/-- What the session knows of its machine, and the bus on which the events of the link are heard. -/
def view (s : Session) : Outlook × EventBus LinkEvent := (s.outlook, s.link.events)

theorem outlook_of_view (same : t.view = s.view) : t.outlook = s.outlook := congrArg Prod.fst same

theorem events_of_view (same : t.view = s.view) : t.link.events = s.link.events :=
  congrArg Prod.snd same

theorem Alike.view (h : s.Alike t) : s.view = t.view := by
  simp [Session.view, Session.outlook, h]

theorem Alike.outlook (h : s.Alike t) : s.outlook = t.outlook := outlook_of_view h.view

/-- What is done inside a guarded part, and what comes after. -/
theorem use_view {a : Actor} {g : Guarded} {inside after : Session → Session}
    (within : ∀ u, (inside u).view = u.view) (later : ∀ u, (after u).view = u.view) :
    (s.use a g inside after).view = s.view :=
  use_keeps view Alike.view within later

/-! ## Operations -/

theorem post?_view {a : Actor} {p : Payload} {x : Nat} (posted : s.post? a p = some (x, t)) :
    t.view = s.view := by
  obtain ⟨c, -, made⟩ := Option.map_eq_some_iff.mp posted
  obtain ⟨-, rfl⟩ := Prod.mk.inj made
  exact (alike_wakeAll _ _).view

theorem countSent_view (s : Session) (x : Nat) : (s.countSent x).view = s.view := by
  unfold countSent
  split <;> rfl

theorem deliver_view (s : Session) (x : Nat) (d : Delivery) :
    (s.deliver x d).view = s.view := (alike_deliver s x d).view

theorem answer_view (s : Session) (x : Nat) (a : Answer) :
    (s.answer x a).view = s.view := (alike_answer s x a).view

theorem dropAnswers_view (s : Session) : s.dropAnswers.view = s.view := by
  cases here : s.link.connection with
  | none => simp [dropAnswers, here]
  | some c => exact (alike_dropAnswers here).view

theorem conclude_view (s : Session) (reason : JobState) :
    (s.conclude reason).view = s.view := (alike_conclude s reason).view

theorem setState_view (s : Session) (state : JobState) :
    (s.setState state).view = s.view := (alike_setState s state).view

theorem dropTask_view (s : Session) : s.dropTask.view = s.view :=
  (alike_dropTask s).view

/-- A call gives its last result and ends its turn. -/
theorem finishTurn_view (s : Session) (i : Nat) (r : Result) :
    ((s.finish i r).endTurn).view = s.view := (alike_endTurn _).view

theorem send_view (s : Session) (i : Nat) (p : Payload) (e : Errand) :
    (s.send i p e).view = s.view := by
  unfold send
  split
  · rfl
  · next x t posted => exact (post?_view posted :)

theorem sendControl_view {i : Nat} {command : Realtime} {e : Errand}
    {closed : Session → Session} (same : ∀ u, (closed u).view = u.view) :
    (s.sendControl i command e closed).view = s.view := by
  unfold sendControl
  split
  · exact (finishTurn_view _ _ _).trans (same s)
  · next x t posted => exact (post?_view posted :)

/-! ## Host calls -/

theorem startJob_view (s : Session) (i : Nat) (program : String) :
    (s.startJob i program).view = s.view := by
  unfold startJob
  dsimp only
  split
  · exact finishTurn_view _ _ _
  · split
    · exact finishTurn_view _ _ _
    · split
      · exact finishTurn_view _ _ _
      · refine (alike_endTurn _).view.trans ((alike_wake _ _).view.trans ?_)
        exact (alike_setState _ _).view

theorem control_view (s : Session) (i : Nat) (c : Control) :
    (s.control i c).view = s.view := by
  unfold control
  cases c with
  | start program => exact startJob_view s i program
  | pause =>
    dsimp only
    split
    · refine (sendControl_view fun u => rfl).trans ?_
      exact (alike_wakeAll _ _).view.trans (setState_view s _)
    · exact finishTurn_view _ _ _
  | resume =>
    dsimp only
    split
    · exact sendControl_view fun u => rfl
    · exact finishTurn_view _ _ _
  | stop =>
    dsimp only
    split
    · exact (sendControl_view fun u => conclude_view u _).trans (dropTask_view s)
    · exact finishTurn_view _ _ _

theorem addPoller_view (s : Session) (i interval : Nat) :
    (s.addPoller i interval).view = s.view := by
  unfold addPoller
  split
  · rfl
  · dsimp only
    split
    · rfl
    · exact (alike_wake _ _).view

/-- Beginning a call changes the view only if the call is about it. -/
theorem beginCall_view {i : Nat} {c : Call} (keeps : c.clears = false)
    (silent : (CallStage.begin c).tunes = false) : (s.beginCall i c).view = s.view := by
  unfold beginCall
  cases c with
  | connect | disconnect | resetSettings => exact absurd keeps (by simp [Call.clears])
  | confirmSetting => exact absurd silent (by simp [CallStage.tunes])
  | write | writeAcked | realtime | writeSetting => exact send_view _ _ _ _
  | control c =>
    dsimp only [takeTurn]
    split
    · exact control_view _ _ _
    · rfl
  | wait =>
    dsimp only
    split <;> rfl
  | poll interval => exact addPoller_view _ _ _
  | settings | jobLines | ports => rfl

theorem failErrand_view {i : Nat} {e : Errand} (f : LinkError)
    (silent : ∀ delay c, e ≠ .setting delay (some c)) : (s.failErrand i e f).view = s.view := by
  unfold failErrand
  cases e with
  | report | reportAnswer | realtime => rfl
  | pause | resume => exact finishTurn_view _ _ _
  | stop => exact (finishTurn_view _ _ _).trans (conclude_view s _)
  | setting delay confirmation =>
    cases confirmation with
    | none => rfl
    | some c => exact absurd rfl (silent delay c)

theorem countErrand_view (s : Session) (i x : Nat) (e : Errand) :
    (s.countErrand i x e).view = s.view := by
  unfold countErrand
  dsimp only
  split
  · exact use_view dropAnswers_view fun u => rfl
  · rfl

theorem doErrand_view (s : Session) (i x : Nat) (e : Errand) :
    (s.doErrand i x e).view = s.view := by
  have refresh (u : Session) (delay : Nat) : (u.spawnRefresher delay).view = u.view :=
    (alike_wake _ _).view
  unfold doErrand
  cases e with
  | report | realtime | reportAnswer => rfl
  | pause => exact finishTurn_view _ _ _
  | resume =>
    refine (finishTurn_view _ _ _).trans ?_
    exact (alike_wakeAll _ _).view.trans (setState_view s _)
  | stop => exact (finishTurn_view _ _ _).trans (conclude_view s _)
  | setting delay confirmation => cases confirmation <;> exact refresh s delay

/-- **The turn of a call** changes the view only if the call is about it, or listens. -/
theorem callTurn_view {i : Nat} (keeps : ∀ c, s.stage? i = some (.begin c) → c.clears = false)
    (silent : ∀ st, s.stage? i = some st → st.tunes = false) : (s.callTurn i).view = s.view := by
  unfold callTurn
  cases stage : s.stage? i with
  | none => rfl
  | some st =>
    have silent := silent st stage
    cases st with
    | begin c => exact beginCall_view (keeps c stage) silent
    | turn c =>
      dsimp only
      split
      · exact control_view _ _ _
      · rfl
    | sending x e =>
      dsimp only
      split
      · rfl
      · split
        · refine failErrand_view _ fun delay c same => ?_
          subst same
          exact absurd silent (by simp [CallStage.tunes, CallStage.subscription?])
        · exact countErrand_view _ _ _ _
    | counting x e => exact use_view (countSent_view · x) (doErrand_view · i x e)
    | awaitingAnswer x =>
      dsimp only
      split <;> rfl
    | awaitingIdle =>
      dsimp only
      split <;> rfl
    | confirming => exact absurd silent (by simp [CallStage.tunes, CallStage.subscription?])
    | lookingUp key => exact use_view (fun u => rfl) fun u => rfl

/-! ## Calls that listen -/

theorem beginConfirmation_outlook (s : Session) (i : Nat) (id : UInt16) (value : String)
    (delay timeout : Nat) :
    (s.beginConfirmation i id value delay timeout).outlook = s.outlook := by
  unfold beginConfirmation
  dsimp only
  split
  · rfl
  · next x t posted => exact (outlook_of_view (post?_view posted) :)

theorem confirmTurn_outlook (s : Session) (i : Nat) (key : String) (sub deadline : Nat) :
    (s.confirmTurn i key sub deadline).outlook = s.outlook := by
  unfold confirmTurn
  dsimp only
  split
  · split <;> rfl
  · split
    · split <;> rfl
    · next heard events received =>
      have log : events.log = s.link.events.log := by
        rw [← EventBus.receive_log s.link.events sub, received]
      split <;> simp [outlook, unsubscribe, spend, again, setStage, finish, give, log]

/-- **The turn of a call that is under way** changes nothing of the outlook. -/
theorem callTurn_outlook {i : Nat}
    (keeps : ∀ c, s.stage? i = some (.begin c) → c.clears = false) :
    (s.callTurn i).outlook = s.outlook := by
  by_cases silent : ∀ st, s.stage? i = some st → st.tunes = false
  · exact outlook_of_view (callTurn_view keeps silent)
  · push Not at silent
    obtain ⟨st, stage, tunes⟩ := silent
    unfold callTurn
    rw [stage]
    cases st with
    | begin c =>
      cases c with
      | confirmSetting => exact beginConfirmation_outlook _ _ _ _ _ _
      | _ => exact absurd rfl tunes
    | sending x e =>
      dsimp only
      split
      · rfl
      · split
        · cases e with
          | setting delay confirmation => cases confirmation <;> rfl
          | _ => exact absurd rfl tunes
        · exact outlook_of_view (countErrand_view _ _ _ _)
    | counting x e =>
      exact outlook_of_view (use_view (countSent_view · x) (doErrand_view · i x e))
    | confirming key sub deadline => exact confirmTurn_outlook s i key sub deadline
    | _ => exact absurd rfl tunes

/-! ## The other actors -/

theorem taskTurn_view (s : Session) (k : StreamTask) : (s.taskTurn k).view = s.view := by
  have abort (u : Session) : u.abortJob.view = u.view :=
    (conclude_view _ _).trans (dropTask_view u)
  have fail (u : Session) (reason : String) : (u.failJob reason).view = u.view :=
    (setState_view u _ :)
  have retry (stage : StreamStage) (reason : String) (a : Actor) :
      (((s.withTask ⟨k.job, k.cursor, stage⟩).failJob reason).again a).view = s.view :=
    fail (s.withTask ⟨k.job, k.cursor, stage⟩) reason
  unfold taskTurn
  dsimp only
  split
  · split
    · exact (conclude_view _ _).trans (dropTask_view s)
    · unfold handOver
      split
      · split
        · exact abort s
        · next x t posted => exact (post?_view posted :)
      · exact dropTask_view s
      · split
        · exact abort s
        · rfl
  · split
    · rfl
    · exact use_view (countSent_view · _) fun u => rfl
    · exact abort s
    · exact retry _ _ _
  · split
    · next a _ => cases a <;> rfl
    · exact abort s
    · split
      · exact dropTask_view s
      · split
        · exact fail _ _
        · rfl

theorem writerTurn_view (s : Session) : s.writerTurn.view = s.view := by
  have fail (u : Session) (c : Connection) (x : Nat) (f : WriteFault) :
      (u.failWrite c x f).view = u.view := by
    unfold failWrite
    split
    · rfl
    · exact deliver_view _ _ _
  unfold writerTurn
  split
  · rfl
  · split
    · split
      · rfl
      · unfold takePayload
        split <;> rfl
    · exact use_view (fun u => rfl) fun u => rfl
    · split
      · rfl
      · unfold attemptWrite
        dsimp only
        split
        · exact fail _ _ _ _
        · split
          · exact fail _ _ _ _
          · exact deliver_view _ _ _
    · refine use_view (fun u => ?_) fun u => deliver_view _ _ _
      unfold giveUpSlot
      split
      · rfl
      · exact answer_view _ _ _

theorem pollerTurn_view (s : Session) (n : Nat) : (s.pollerTurn n).view = s.view := by
  have note (u : Session) (p : Poller) : (u.setPoller p).view = u.view := by
    unfold setPoller
    split <;> rfl
  unfold pollerTurn
  split
  · rfl
  · split
    · split
      · split
        · rfl
        · next x t posted => exact (note _ _).trans (post?_view posted)
      · rfl
    · split
      · rfl
      · dsimp only
        split
        · exact use_view (countSent_view · _) fun u => note _ _
        · exact note _ _

theorem refresherTurn_view (s : Session) (n : Nat) :
    (s.refresherTurn n).view = s.view := by
  unfold refresherTurn
  split
  · rfl
  · split
    · split
      · split
        · rfl
        · next x t posted => exact (post?_view posted :)
      · rfl
    · split
      · rfl
      · split
        · exact use_view (countSent_view · _) fun u => rfl
        · rfl

/-- **Tasks leave the view alone**, apart from the reader. -/
theorem act_view {a : Actor} (notReader : a ≠ .reader) (notCall : ∀ i, a ≠ .call i) :
    (s.act a).view = s.view := by
  cases a with
  | call i => exact absurd rfl (notCall i)
  | job n =>
    show (s.jobTurn n).view = _
    unfold jobTurn
    split
    · exact taskTurn_view _ _
    · rfl
  | poller n => exact pollerTurn_view s n
  | refresher n => exact refresherTurn_view s n
  | writer => exact writerTurn_view s
  | reader => exact absurd rfl notReader

/-- **Only the reader finds out anything about the machine**, apart from calls that open or close
the link or forget the settings. -/
theorem act_outlook {a : Actor} (notReader : a ≠ .reader)
    (keeps : ∀ i c, a = .call i → s.stage? i = some (.begin c) → c.clears = false) :
    (s.act a).outlook = s.outlook := by
  by_cases call : ∃ i, a = .call i
  · obtain ⟨i, rfl⟩ := call
    exact callTurn_outlook (keeps i · rfl)
  · exact outlook_of_view (act_view notReader fun i own => call ⟨i, own⟩)

/-! ## Time -/

theorem endConnection_now (s : Session) : s.endConnection.now = s.now := by
  cases here : s.link.connection with
  | none => simp [endConnection, here]
  | some c => exact (alike_endConnection here).1

theorem readerTurn_now (s : Session) : s.readerTurn.now = s.now := by
  have chore (u : Session) (c : Chore) : (u.doChore c).now = u.now := by
    cases c with
    | setStatus status => exact (alike_setStatus u status).1
    | publish e => exact (alike_publish u e).1
    | settle a =>
      show (u.settleAnswer a).now = _
      unfold settleAnswer
      split
      · rfl
      · split
        · rfl
        · exact (alike_answer _ _ _).1
    | _ => rfl
  unfold readerTurn
  split
  · rfl
  · split
    · unfold readerChore
      dsimp only
      split
      · exact use_keeps (·.now) (fun h => h.1) (fun u => chore _ _) fun u => rfl
      · exact chore _ _
    · rfl
    · rfl
    · exact endConnection_now s
    · rfl
    · exact endConnection_now s

theorem connect_now (s : Session) (i : Nat) (port : String) (refusal : Option DeviceFault) :
    (s.connect i port refusal).now = s.now := by
  unfold connect
  cases s.link.connection with
  | some c => rfl
  | none =>
    cases refusal with
    | some fault => exact (alike_setStatus s _).1
    | none => exact (alike_publish _ _).1.trans (alike_setStatus s _).1

/-- **Turns take no time.** -/
theorem act_now (s : Session) (a : Actor) : (s.act a).now = s.now := by
  by_cases reader : a = .reader
  · subst reader
    exact readerTurn_now s
  · by_cases begins : ∃ i c, a = .call i ∧ s.stage? i = some (.begin c) ∧ c.clears = true
    · obtain ⟨i, c, rfl, stage, clears⟩ := begins
      have turn : s.act (.call i) = s.beginCall i c := by
        show s.callTurn i = _
        simp only [callTurn, stage]
      rw [turn]
      cases c with
      | connect port refusal => exact connect_now s i port refusal
      | disconnect => exact endConnection_now s
      | resetSettings => rfl
      | _ => exact absurd clears (by simp [Call.clears])
    · refine congrArg Outlook.now (act_outlook reader fun i c own stage => ?_)
      by_contra clears
      exact begins ⟨i, c, own, stage, by simpa using clears⟩

theorem turn_now (h : s.turn = some t) : t.now = s.now := by
  cases leadsTo_of_turn h with
  | @act a => exact act_now _ a
  | stretch | round => rfl

theorem turns_now (s : Session) (n : Nat) : (s.turns n).now = s.now := by
  induction n generalizing s with
  | zero => rfl
  | succ n ih =>
    cases h : s.turn with
    | none => rw [turns, h]
    | some t => rw [turns, h, ih, turn_now h]

/-- **Settling takes no time.** -/
theorem settle_now (s : Session) : s.settle.now = s.now := turns_now _ _

end Session

end Cnc
