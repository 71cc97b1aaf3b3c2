import Cnc.Proofs.Payloads
import Cnc.Proofs.Turns

/-!
# What a session keeps of its own sending

How much was sent is counted by the one who sent it, once he knows that it was
sent, and the settings are asked for by timers that calls set when they have
counted. The counts and the timers are the `Session.ledger`, and the number that
the next timer or poller will have. Of the turns that change it there are few
kinds: a sender counts his payload, a call that has done so sets a timer, a timer
goes on, and a call adds a poller, which takes a number. All else leaves it alone.

Who still has to count a payload has it in hand (`Session.inHand?`): he has
handed it over, and it is not known yet what became of it, or he has not come
to count it.
-/

namespace Cnc

/-- How much was sent. -/
structure Tally where
  bytes : Nat
  lines : Nat
  realtime : Nat
deriving DecidableEq

namespace Tally

/-- The tally of some payloads. -/
def of (ps : List Payload) : Tally where
  bytes := (ps.flatMap Payload.bytes).length
  lines := ps.countP Payload.isLine
  realtime := ps.countP (!Payload.isLine ·)

/-- The tally with one more payload. -/
def add (t : Tally) (p : Payload) : Tally where
  bytes := t.bytes + p.bytes.length
  lines := t.lines + if p.isLine then 1 else 0
  realtime := t.realtime + if p.isLine then 0 else 1

theorem of_concat (ps : List Payload) (p : Payload) : of (ps ++ [p]) = (of ps).add p := by
  cases line : p.isLine <;> simp [of, add, line]

end Tally

/-- The bytes of a payload are as many as its size says. -/
theorem Payload.length_bytes (p : Payload) : p.bytes.length = p.size := by
  cases p with
  | line text =>
    show text.toUTF8.toList.length = text.utf8ByteSize
    rw [toList_byteArray, Array.length_toList]
    rfl
  | realtime => rfl

/-- The payload that a call at this stage has still to count. -/
def CallStage.inHand? : CallStage → Option Nat
  | .sending x _ | .counting x _ => some x
  | _ => none

/-- The line that the streaming task has still to count. -/
def StreamStage.inHand? : StreamStage → Option Nat
  | .sending x => some x
  | _ => none

/-- The timers that a call sets when it has counted the payload of an errand. -/
def Errand.timers (s : Session) : Errand → List Refresher
  | .setting delay _ => [⟨s.spawned, s.now + delay, none⟩]
  | _ => []

/-- **What a session keeps of its own sending.** -/
structure Ledger where
  counts : Tally
  refreshers : List Refresher
  /-- The number that the next timer, or poller, will have. -/
  spawned : Nat

namespace Session

variable {s t : Session}

/-- **The payload that an actor has still to count.** -/
def inHand? (s : Session) : Actor → Option Nat
  | .call i => (s.stage? i).bind CallStage.inHand?
  | .job n => (s.task? n).bind (·.stage.inHand?)
  | .poller n => (s.poller? n).bind (·.sending)
  | .refresher n => (s.refresher? n).bind (·.sending)
  | .writer | .reader => none

/-- How much was counted as sent. -/
def counts (s : Session) : Tally where
  bytes := s.link.stats.bytesSent
  lines := s.link.stats.linesSent
  realtime := s.link.stats.realtimeSent

/-- What the session keeps of its own sending. -/
def ledger (s : Session) : Ledger := ⟨s.counts, s.refreshers, s.spawned⟩

theorem Alike.ledger (h : s.Alike t) : s.ledger = t.ledger := by
  simp [Session.ledger, counts, h]

theorem use_ledger {a : Actor} {g : Guarded} {inside after : Session → Session}
    (within : ∀ u, (inside u).ledger = u.ledger) (later : ∀ u, (after u).ledger = u.ledger) :
    (s.use a g inside after).ledger = s.ledger :=
  use_keeps Session.ledger Alike.ledger within later

/-- Counting a payload adds it to what was counted, and does nothing else to the ledger. -/
theorem countSent_ledger {x : Nat} {p : Payload} (payload : s.link.payload? x = some p) :
    (s.countSent x).ledger = ⟨s.counts.add p, s.refreshers, s.spawned⟩ := by
  unfold countSent
  rw [payload]
  have size := p.length_bytes
  cases p with
  | line text =>
    simp only [ledger, counts, Tally.add, size]
    rfl
  | realtime command => rfl

/-! ## Operations -/

theorem post?_ledger {a : Actor} {p : Payload} {x : Nat} (posted : s.post? a p = some (x, t)) :
    t.ledger = s.ledger := by
  obtain ⟨c, -, made⟩ := Option.map_eq_some_iff.mp posted
  obtain ⟨-, rfl⟩ := Prod.mk.inj made
  exact (alike_wakeAll _ _).ledger

theorem dropAnswers_ledger (s : Session) : s.dropAnswers.ledger = s.ledger := by
  cases here : s.link.connection with
  | none => simp [dropAnswers, here]
  | some c => exact (alike_dropAnswers here).ledger

theorem endConnection_ledger (s : Session) : s.endConnection.ledger = s.ledger := by
  cases here : s.link.connection with
  | none => simp [endConnection, here]
  | some c => exact (alike_endConnection here).ledger

theorem setPoller_ledger (s : Session) (p : Poller) : (s.setPoller p).ledger = s.ledger := by
  unfold setPoller
  split <;> rfl

/-- A call gives its last result and ends its turn. -/
theorem finishTurn_ledger (s : Session) (i : Nat) (r : Result) :
    ((s.finish i r).endTurn).ledger = s.ledger := (alike_endTurn _).ledger

theorem send_ledger (s : Session) (i : Nat) (p : Payload) (e : Errand) :
    (s.send i p e).ledger = s.ledger := by
  unfold send
  split
  · rfl
  · next posted => exact (post?_ledger posted :)

theorem sendControl_ledger {i : Nat} {command : Realtime} {e : Errand}
    {closed : Session → Session} (same : ∀ u, (closed u).ledger = u.ledger) :
    (s.sendControl i command e closed).ledger = s.ledger := by
  unfold sendControl
  split
  · exact (finishTurn_ledger _ _ _).trans (same s)
  · next posted => exact (post?_ledger posted :)

/-! ## Host calls -/

theorem connect_ledger (s : Session) (i : Nat) (port : String) (refusal : Option DeviceFault) :
    (s.connect i port refusal).ledger = s.ledger := by
  unfold connect
  split
  · rfl
  · split
    · exact (alike_setStatus s _).ledger
    · exact (alike_publish _ _).ledger.trans (alike_setStatus s _).ledger

theorem startJob_ledger (s : Session) (i : Nat) (program : String) :
    (s.startJob i program).ledger = s.ledger := by
  unfold startJob
  dsimp only
  split
  · exact finishTurn_ledger _ _ _
  · split
    · exact finishTurn_ledger _ _ _
    · split
      · exact finishTurn_ledger _ _ _
      · refine (alike_endTurn _).ledger.trans ((alike_wake _ _).ledger.trans ?_)
        exact (alike_setState _ _).ledger

theorem control_ledger (s : Session) (i : Nat) (c : Control) :
    (s.control i c).ledger = s.ledger := by
  unfold control
  cases c with
  | start program => exact startJob_ledger s i program
  | pause =>
    dsimp only
    split
    · refine (sendControl_ledger fun u => rfl).trans ?_
      exact (alike_wakeAll _ _).ledger.trans (alike_setState s _).ledger
    · exact finishTurn_ledger _ _ _
  | resume =>
    dsimp only
    split
    · exact sendControl_ledger fun u => rfl
    · exact finishTurn_ledger _ _ _
  | stop =>
    dsimp only
    split
    · exact (sendControl_ledger fun u => (alike_conclude u _).ledger).trans
        (alike_dropTask s).ledger
    · exact finishTurn_ledger _ _ _

/-- A poller that is added takes a number. -/
theorem addPoller_ledger (s : Session) (i interval : Nat) :
    ∃ n, s.spawned ≤ n ∧ (s.addPoller i interval).ledger = ⟨s.counts, s.refreshers, n⟩ := by
  unfold addPoller
  split
  · exact ⟨_, Nat.le_refl _, rfl⟩
  · dsimp only
    split
    · exact ⟨_, Nat.le_refl _, rfl⟩
    · exact ⟨_, Nat.le_succ _, (alike_wake _ _).ledger⟩

theorem beginCall_ledger (s : Session) (i : Nat) {c : Call}
    (other : ∀ interval, c ≠ .poll interval) : (s.beginCall i c).ledger = s.ledger := by
  unfold beginCall
  cases c with
  | connect port refusal => exact connect_ledger s i port refusal
  | disconnect => exact endConnection_ledger s
  | write | writeAcked | realtime | writeSetting => exact send_ledger _ _ _ _
  | control c =>
    dsimp only [takeTurn]
    split
    · exact control_ledger _ _ _
    · rfl
  | wait =>
    dsimp only
    split <;> rfl
  | poll interval => exact absurd rfl (other interval)
  | confirmSetting id value delay timeout =>
    dsimp only [beginConfirmation]
    split
    · rfl
    · next posted => exact (post?_ledger posted :)
  | settings | resetSettings | jobLines | ports => rfl

theorem failErrand_ledger (s : Session) (i : Nat) (e : Errand) (f : LinkError) :
    (s.failErrand i e f).ledger = s.ledger := by
  unfold failErrand
  cases e with
  | report | reportAnswer | realtime => rfl
  | pause | resume => exact finishTurn_ledger _ _ _
  | stop => exact (finishTurn_ledger _ _ _).trans (alike_conclude s _).ledger
  | setting delay confirmation => cases confirmation <;> rfl

theorem countErrand_ledger (s : Session) (i x : Nat) (e : Errand) :
    (s.countErrand i x e).ledger = s.ledger := by
  unfold countErrand
  dsimp only
  split
  · exact use_ledger dropAnswers_ledger fun u => rfl
  · rfl

/-- A call that has counted its payload sets the timer of its errand, if there is one. -/
theorem doErrand_ledger (s : Session) (i x : Nat) (e : Errand) :
    (s.doErrand i x e).ledger
      = ⟨s.counts, s.refreshers ++ e.timers s, s.spawned + (e.timers s).length⟩ := by
  have none : s.ledger = ⟨s.counts, s.refreshers ++ [], s.spawned⟩ := by rw [List.append_nil]; rfl
  have timer (u : Session) (delay : Nat) : (u.spawnRefresher delay).ledger
      = ⟨u.counts, u.refreshers ++ [⟨u.spawned, u.now + delay, .none⟩], u.spawned + 1⟩ :=
    (alike_wake _ _).ledger
  unfold doErrand
  cases e with
  | report | realtime | reportAnswer => exact none
  | pause => exact (finishTurn_ledger _ _ _).trans none
  | resume =>
    refine (finishTurn_ledger _ _ _).trans (Eq.trans ?_ none)
    exact (alike_wakeAll _ _).ledger.trans (alike_setState s _).ledger
  | stop => exact ((finishTurn_ledger _ _ _).trans (alike_conclude s _).ledger).trans none
  | setting delay confirmation => cases confirmation <;> exact timer s delay

theorem confirmTurn_ledger (s : Session) (i : Nat) (key : String) (sub deadline : Nat) :
    (s.confirmTurn i key sub deadline).ledger = s.ledger := by
  unfold confirmTurn
  dsimp only
  split
  · split <;> rfl
  · split
    · split <;> rfl
    · split <;> rfl

/-- **The turn of a call** leaves the counts and the timers alone, unless the call counts its
payload. -/
theorem callTurn_ledger {i : Nat} (other : ∀ x e, s.stage? i ≠ some (.counting x e)) :
    ∃ n, s.spawned ≤ n ∧ (s.callTurn i).ledger = ⟨s.counts, s.refreshers, n⟩ := by
  have same {t : Session} (kept : t.ledger = s.ledger) :
      ∃ n, s.spawned ≤ n ∧ t.ledger = ⟨s.counts, s.refreshers, n⟩ := ⟨_, Nat.le_refl _, kept⟩
  unfold callTurn
  cases stage : s.stage? i with
  | none => exact same rfl
  | some st =>
    cases st with
    | begin c =>
      by_cases polls : ∃ interval, c = .poll interval
      · obtain ⟨interval, rfl⟩ := polls
        exact addPoller_ledger s i interval
      · exact same (beginCall_ledger s i fun interval own => polls ⟨interval, own⟩)
    | turn c =>
      dsimp only
      split
      · exact same (control_ledger s i c)
      · exact same rfl
    | sending x e =>
      dsimp only
      split
      · exact same rfl
      · split
        · exact same (failErrand_ledger _ _ _ _)
        · exact same (countErrand_ledger _ _ _ _)
    | counting x e => exact absurd stage (other x e)
    | awaitingAnswer x =>
      dsimp only
      split <;> exact same rfl
    | awaitingIdle =>
      dsimp only
      split <;> exact same rfl
    | confirming key sub deadline => exact same (confirmTurn_ledger s i key sub deadline)
    | lookingUp key => exact same (use_ledger (fun u => rfl) fun u => rfl)

/-! ## The other actors -/

theorem abortJob_ledger (s : Session) : s.abortJob.ledger = s.ledger :=
  (alike_conclude _ _).ledger.trans (alike_dropTask s).ledger

theorem failJob_ledger (s : Session) (reason : String) : (s.failJob reason).ledger = s.ledger :=
  ((alike_setState s _).ledger :)

/-- **The streaming task** leaves the ledger alone, unless it learns that its line was sent. -/
theorem taskTurn_ledger {k : StreamTask}
    (other : ∀ x, k.stage = .sending x → s.link.delivery? x ≠ some .sent) :
    (s.taskTurn k).ledger = s.ledger := by
  have retry (reason : String) (a : Actor) :
      (((s.withTask ⟨k.job, k.cursor, .ready⟩).failJob reason).again a).ledger = s.ledger :=
    (failJob_ledger (s.withTask ⟨k.job, k.cursor, .ready⟩) reason :)
  unfold taskTurn
  dsimp only
  cases stage : k.stage with
  | ready =>
    dsimp only
    split
    · exact (alike_conclude _ _).ledger.trans (alike_dropTask s).ledger
    · unfold handOver
      split
      · split
        · exact abortJob_ledger s
        · next posted => exact (post?_ledger posted :)
      · exact (alike_dropTask s).ledger
      · split
        · exact abortJob_ledger s
        · rfl
  | sending x =>
    dsimp only
    split
    · rfl
    · next sent => exact absurd sent (other x stage)
    · exact abortJob_ledger s
    · exact retry _ _
  | awaiting x deadline =>
    dsimp only
    split
    · next a _ => cases a <;> rfl
    · exact abortJob_ledger s
    · split
      · exact (alike_dropTask s).ledger
      · split
        · exact (failJob_ledger _ _ :)
        · rfl

theorem writerTurn_ledger (s : Session) : s.writerTurn.ledger = s.ledger := by
  have fail (u : Session) (c : Connection) (x : Nat) (f : WriteFault) :
      (u.failWrite c x f).ledger = u.ledger := by
    unfold failWrite
    split
    · rfl
    · exact (alike_deliver _ _ _).ledger
  unfold writerTurn
  split
  · rfl
  · split
    · split
      · rfl
      · unfold takePayload
        split <;> rfl
    · exact use_ledger (fun u => rfl) fun u => rfl
    · split
      · rfl
      · unfold attemptWrite
        dsimp only
        split
        · exact fail _ _ _ _
        · split
          · exact fail _ _ _ _
          · exact (alike_deliver _ _ _).ledger
    · refine use_ledger (fun u => ?_) fun u => (alike_deliver _ _ _).ledger
      unfold giveUpSlot
      split
      · rfl
      · exact (alike_answer _ _ _).ledger

theorem readerTurn_ledger (s : Session) : s.readerTurn.ledger = s.ledger := by
  have chore (u : Session) (c : Chore) : (u.doChore c).ledger = u.ledger := by
    cases c with
    | setStatus status => exact (alike_setStatus u status).ledger
    | publish e => exact (alike_publish u e).ledger
    | settle a =>
      show (u.settleAnswer a).ledger = _
      unfold settleAnswer
      split
      · rfl
      · split
        · rfl
        · exact (alike_answer _ _ _).ledger
    | _ => rfl
  unfold readerTurn
  split
  · rfl
  · split
    · unfold readerChore
      dsimp only
      split
      · exact use_ledger (fun u => chore _ _) fun u => rfl
      · exact chore _ _
    · rfl
    · rfl
    · exact endConnection_ledger s
    · rfl
    · exact endConnection_ledger s

/-- **A poller** leaves the ledger alone, unless it learns that its query was sent. -/
theorem pollerTurn_ledger {n : Nat}
    (other : ∀ x, s.inHand? (.poller n) = some x → s.link.delivery? x ≠ some .sent) :
    (s.pollerTurn n).ledger = s.ledger := by
  unfold pollerTurn
  cases found : s.poller? n with
  | none => rfl
  | some p =>
    dsimp only
    cases sending : p.sending with
    | none =>
      dsimp only
      split
      · split
        · rfl
        · next posted => exact (setPoller_ledger _ _).trans (post?_ledger posted)
      · rfl
    | some x =>
      dsimp only
      split
      · rfl
      · next d told =>
        split
        · next sent =>
          have own : s.inHand? (.poller n) = some x := by simp [inHand?, found, sending]
          exact absurd (sent ▸ told) (other x own)
        · exact setPoller_ledger _ _

/-- **What nobody but a sender or a timer does** leaves the ledger alone. -/
theorem aside_ledger {e : Event} (aside : ∀ a, e = .act a → a = .writer ∨ a = .reader) :
    (s.next e).ledger = s.ledger := by
  cases e with
  | act a =>
    rcases aside a rfl with rfl | rfl
    · exact writerTurn_ledger s
    · exact readerTurn_ledger s
  | call i c =>
    show (if _ then _ else _ : Session).ledger = _
    split
    · rfl
    · exact (alike_wake _ _).ledger
  | device i d =>
    show (if _ then _ else _ : Session).ledger = _
    split
    · rfl
    · unfold deviceAct
      split
      · rfl
      · cases d with
        | send | hangUp | failRead | unstall => exact (alike_wake _ _).ledger
        | _ => rfl
  | schedule | elapse | observe => rfl

end Session

end Cnc
