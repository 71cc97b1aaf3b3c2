import Mathlib.Algebra.BigOperators.Group.Finset.Basic
import Mathlib.Algebra.Order.BigOperators.Group.Finset
import Cnc.Proofs.Quiescence
import Cnc.Proofs.Release

/-!
# What is left to be done

Each byte that was received, each payload that was handed over, and each stage
that somebody still has before him stands for a number of turns
(`Session.burden`). Calls that listen for the report of a setting may have a
turn for every event besides; but a turn publishes one event at most, so each
piece of work is counted once for itself and once for every call that may hear
of it (`Session.labour`).

The turn of a host call does some of what is left, or hears an event, or
nothing is done in it (`Session.callTurn_labours`).
-/

namespace Cnc

namespace EventBus

variable {E : Type} {b b' : EventBus E} {sub other : Nat}

/-- **How far a subscriber is behind**, as far as it makes a difference: what is no longer kept
counts as one event. -/
def behind (b : EventBus E) (sub : Nat) : Nat :=
  (b.position? sub).elim 0 fun p => min (b.log.length - p) (b.capacity + 1)

theorem behind_le (b : EventBus E) (sub : Nat) : b.behind sub ≤ b.capacity + 1 := by
  unfold behind
  cases b.position? sub with
  | none => exact Nat.zero_le _
  | some p => exact Nat.min_le_right _ _

theorem behind_of_position? {p : Nat} (there : b.position? sub = some p) :
    b.behind sub = min (b.log.length - p) (b.capacity + 1) := by rw [behind, there]; rfl

/-- Nobody is further behind than by what was published. -/
theorem Grows.behind_le (grows : b.Grows b') (one : b'.log.length ≤ b.log.length + 1) (sub : Nat) :
    b'.behind sub ≤ b.behind sub + 1 := by
  unfold behind
  rw [grows.position?, grows.capacity]
  cases b.position? sub with
  | none => exact Nat.zero_le _
  | some p =>
    show min (b'.log.length - p) (b.capacity + 1) ≤ min (b.log.length - p) (b.capacity + 1) + 1
    omega

theorem behind_unsubscribe_le (b : EventBus E) (sub other : Nat) :
    (b.unsubscribe sub).behind other ≤ b.behind other := by
  by_cases own : other = sub
  · subst own
    rw [behind, position?_unsubscribe_self]
    exact Nat.zero_le _
  · have same : (b.unsubscribe sub).position? other = b.position? other := position?_seek_ne own
    rw [behind, same]
    exact Nat.le_refl _

theorem behind_subscribe (b : EventBus E) (sub : Nat) : b.subscribe.behind sub = b.behind sub := by
  by_cases new : sub = b.nextSubscription
  · subst new
    have absent : b.position? b.nextSubscription = none := by simp [position?, nextSubscription]
    rw [behind, position?_subscribe_self, behind, absent]
    simp
  · rw [behind, position?_subscribe_ne new]
    rfl

/-- **Whoever hears something** is not so far behind any more. -/
theorem behind_receive_lt {h : Heard E} (heard : (b.receive sub).1 = some h) :
    (b.receive sub).2.behind sub < b.behind sub := by
  have received := b.receives sub
  generalize b.receive sub = r at received heard
  cases received with
  | silent => exact absurd heard (by simp)
  | @lagged p there behind =>
    rw [behind_of_position? (position?_seek_self there), behind_of_position? there]
    show min (b.log.length - b.oldest) (b.capacity + 1) < _
    simp only [oldest] at behind ⊢
    omega
  | @event p e there kept found =>
    rw [behind_of_position? (position?_seek_self there), behind_of_position? there]
    show min (b.log.length - (p + 1)) (b.capacity + 1) < _
    have inside := (List.getElem?_eq_some_iff.mp found).1
    simp only [oldest] at kept
    omega

theorem behind_receive_le (b : EventBus E) (sub other : Nat) :
    (b.receive sub).2.behind other ≤ b.behind other := by
  by_cases own : other = sub
  · subst own
    cases heard : (b.receive other).1 with
    | some h => exact Nat.le_of_lt (behind_receive_lt heard)
    | none =>
      have received := b.receives other
      generalize b.receive other = r at received heard
      cases received with
      | silent => exact Nat.le_refl _
      | lagged | event => exact absurd heard (by simp)
  · have received := b.receives sub
    generalize b.receive sub = r at received
    cases received with
    | silent => exact Nat.le_refl _
    | lagged | event =>
      rw [behind, position?_seek_ne own]
      exact Nat.le_refl _

end EventBus

/-- **How many events a call may hear**, apart from those that are still to be published. -/
def CallStage.ear (b : EventBus LinkEvent) : CallStage → Nat
  | .begin _ | .turn _ | .sending .. | .counting .. => b.capacity + 1
  | .confirming _ sub _ => b.behind sub
  | .awaitingAnswer _ | .awaitingIdle | .lookingUp _ => 0

/-- A call that goes on has no more to hear than before, but for one event that may have been
published meanwhile. -/
theorem CallStage.Follows.ear_le {b b' : EventBus LinkEvent} {st st' : CallStage}
    (follows : st.Follows st') (capacity : b'.capacity = b.capacity)
    (behind : ∀ sub, b'.behind sub ≤ b.behind sub + 1) : st'.ear b' ≤ st.ear b + 1 := by
  cases follows with
  | stay st =>
    cases st with
    | confirming key sub deadline => exact behind sub
    | _ => simp [ear, capacity]
  | confirm x delay deadline c =>
    have most := b'.behind_le c.subscription
    rw [capacity] at most
    exact Nat.le_succ_of_le most
  | _ => simp [ear, capacity]

/-- Every call has something left to do until it returns. -/
theorem CallStage.work_pos (st : CallStage) : 0 < st.work := by
  unfold work
  split <;> omega

namespace Session

variable {s t u : Session} {a : Actor} {e : Event} {i : Nat} {st : CallStage}
  {calls : Finset Nat}

/-! ## The calls -/

/-- The indexes of the calls, in the order in which they began. -/
def indexes (s : Session) : List Nat := s.calls.map Prod.fst

theorem stage?_eq_none_iff : s.stage? i = none ↔ i ∉ s.indexes := by
  constructor
  · intro gone member
    obtain ⟨⟨j, st⟩, among, rfl⟩ := List.mem_map.mp member
    exact absurd rfl (bne_iff_ne.mp (List.lookup_eq_none_iff.mp gone _ among))
  · intro absent
    refine List.lookup_eq_none_iff.mpr fun c member => bne_iff_ne.mpr ?_
    rintro rfl
    exact absent (List.mem_map_of_mem member)

/-- All calls that there are. -/
def callers (s : Session) : Finset Nat := s.indexes.toFinset

theorem stage?_of_not_mem_callers (absent : i ∉ s.callers) : s.stage? i = none :=
  stage?_eq_none_iff.mpr fun member => absent (List.mem_toFinset.mpr member)

/-! ## What is left to be done -/

/-- What is left to be done besides the calls. -/
def sideWork (s : Session) : Nat :=
  (s.link.connection.map (·.work s.now)).getD 0 + tally Refresher.work s.refreshers
    + (s.streamer.task.map (·.work s.streamer.state)).getD 0

/-- What a call has left to do. -/
def callWork (s : Session) (i : Nat) : Nat := ((s.stage? i).map CallStage.work).getD 0

/-- What a call may hear. -/
def callEar (s : Session) (i : Nat) : Nat :=
  ((s.stage? i).map (CallStage.ear s.link.events)).getD 0

/-- What is left to be done, apart from listening to events. -/
def burden (calls : Finset Nat) (s : Session) : Nat := ∑ i ∈ calls, s.callWork i + s.sideWork

/-- **What is left to be done** by the calls of some indexes and by all others. Whatever is done
publishes one event at most, which each of the calls may hear. -/
def labour (calls : Finset Nat) (s : Session) : Nat :=
  (calls.card + 1) * s.burden calls + ∑ i ∈ calls, s.callEar i

theorem Alike.sideWork (h : s.Alike t) : s.sideWork = t.sideWork := by
  simp [Session.sideWork, h]

theorem Alike.callWork (h : s.Alike t) (i : Nat) : s.callWork i = t.callWork i := by
  rw [Session.callWork, Session.callWork, h.stage?]

theorem Alike.callEar (h : s.Alike t) (i : Nat) : s.callEar i = t.callEar i := by
  rw [Session.callEar, Session.callEar, h.stage?, h.2.1]

theorem Alike.burden (h : s.Alike t) (calls : Finset Nat) : s.burden calls = t.burden calls := by
  rw [Session.burden, Session.burden, h.sideWork, Finset.sum_congr rfl fun i _ => h.callWork i]

theorem Alike.labour (h : s.Alike t) (calls : Finset Nat) : s.labour calls = t.labour calls := by
  rw [Session.labour, Session.labour, h.burden, Finset.sum_congr rfl fun i _ => h.callEar i]

/-- **Whoever does some of what is left** may publish an event. -/
theorem labour_lt_of_burden (less : t.burden calls < s.burden calls)
    (ears : ∀ i, t.callEar i ≤ s.callEar i + 1) : t.labour calls < s.labour calls := by
  have heard : ∑ i ∈ calls, t.callEar i ≤ ∑ i ∈ calls, s.callEar i + calls.card := by
    rw [Finset.card_eq_sum_ones, ← Finset.sum_add_distrib]
    exact Finset.sum_le_sum fun i _ => ears i
  have done := Nat.mul_le_mul_left (calls.card + 1) (Nat.succ_le_of_lt less)
  rw [Nat.mul_succ] at done
  unfold labour
  omega

/-- **Whoever hears an event** has one less to hear. -/
theorem labour_lt_of_ear (same : t.burden calls = s.burden calls) (member : i ∈ calls)
    (heard : t.callEar i < s.callEar i) (ears : ∀ j, t.callEar j ≤ s.callEar j) :
    t.labour calls < s.labour calls := by
  unfold labour
  rw [same]
  exact Nat.add_lt_add_left (Finset.sum_lt_sum (fun j _ => ears j) ⟨i, member, heard⟩) _

/-! ## Who listens -/

theorem connect_log (s : Session) (i : Nat) (port : String) (refusal : Option DeviceFault) :
    (s.connect i port refusal).link.events.log.length ≤ s.link.events.log.length + 1 := by
  unfold connect
  cases s.link.connection with
  | some c => exact Nat.le_succ _
  | none =>
    cases refusal with
    | some fault => simp [finish, give]
    | none => simp [finish, give]

theorem endConnection_log (s : Session) :
    s.endConnection.link.events.log.length ≤ s.link.events.log.length + 1 := by
  cases here : s.link.connection with
  | none => simp [endConnection, here]
  | some c => simp [alike_endConnection here]

theorem doChore_log (s : Session) (chore : Chore) :
    (s.doChore chore).link.events.log.length ≤ s.link.events.log.length + 1 := by
  cases chore with
  | publish | setStatus => simp [doChore]
  | settle a =>
    show (s.settleAnswer a).link.events.log.length ≤ _
    unfold settleAnswer
    split
    · exact Nat.le_succ _
    · split
      · exact Nat.le_succ _
      · rw [(alike_answer _ _ _).2.1]
        exact Nat.le_succ _
  | _ => exact Nat.le_succ _

theorem readerTurn_log (s : Session) :
    s.readerTurn.link.events.log.length ≤ s.link.events.log.length + 1 := by
  unfold readerTurn
  split
  · exact Nat.le_succ _
  · next c _ =>
    split
    · next chore rest _ =>
      have done (u : Session) := doChore_log (u.withConnection { c with chores := rest }) chore
      unfold readerChore
      dsimp only
      split
      · next g _ =>
        rcases use_cases s .reader g
          (fun s => (s.withConnection { c with chores := rest }).doChore chore) (·.again .reader)
          with alike | ⟨u, alike, same⟩
        · rw [alike.2.1]
          exact Nat.le_succ _
        · rw [same, (alike_again _ _).2.1, (alike_leave _ _).2.1, ← alike.2.1]
          exact done u
      · exact done s
    · exact Nat.le_succ _
    · exact Nat.le_succ _
    · exact endConnection_log s
    · exact Nat.le_succ _
    · exact endConnection_log s

/-- **A turn publishes one event at most.** -/
theorem act_log (s : Session) (a : Actor) :
    (s.act a).link.events.log.length ≤ s.link.events.log.length + 1 := by
  by_cases reader : a = .reader
  · subst reader
    exact readerTurn_log s
  · by_cases keeps : ∀ i c, a = .call i → s.stage? i = some (.begin c) → c.clears = false
    · exact Nat.le_succ_of_le (Nat.le_of_eq
        (congrArg (·.events.length) (act_outlook (s := s) reader keeps)))
    · push Not at keeps
      obtain ⟨i, c, rfl, begins, clears⟩ := keeps
      have turn : s.act (.call i) = s.beginCall i c := by
        show s.callTurn i = _
        simp only [callTurn, begins]
      rw [turn]
      cases c with
      | connect port refusal => exact connect_log s i port refusal
      | disconnect => exact endConnection_log s
      | resetSettings => exact Nat.le_succ _
      | _ => exact absurd rfl clears

/-- So nobody falls behind by more than that. -/
theorem act_behind (s : Session) (a : Actor) (sub : Nat) :
    (s.act a).link.events.behind sub ≤ s.link.events.behind sub + 1 := by
  have one := act_log s a
  by_cases call : ∃ i, a = .call i
  · obtain ⟨i, rfl⟩ := call
    have tunes := callTurn_tunes s i
    change (s.callTurn i).link.events.log.length ≤ _ at one
    change (s.callTurn i).link.events.behind sub ≤ _
    cases tunes with
    | grows grows => exact grows.behind_le one sub
    | subscribes _ events =>
      rw [events, EventBus.behind_subscribe]
      exact Nat.le_succ _
    | refused events =>
      rw [events, ← s.link.events.behind_subscribe sub]
      exact Nat.le_succ_of_le (EventBus.behind_unsubscribe_le _ _ _)
    | leaves _ events =>
      rw [events]
      exact Nat.le_succ_of_le (EventBus.behind_unsubscribe_le _ _ _)
    | hears _ _ _ events =>
      rw [events]
      exact Nat.le_succ_of_le (EventBus.behind_receive_le _ _ _)
  · exact (next_grows (e := .act a) s (fun i own => call ⟨i, Event.act.inj own⟩)
      (by simp)).behind_le one sub

/-- **No call has more to hear** than before, but for the event that may have been published. -/
theorem act_ear (s : Session) (a : Actor) (i : Nat) : (s.act a).callEar i ≤ s.callEar i + 1 := by
  unfold callEar
  cases stage' : (s.act a).stage? i with
  | none => exact Nat.zero_le _
  | some st' =>
    rcases next_follows s (.act a) stage' with ⟨st, stage, follows⟩ | ⟨c, own, -⟩
    · rw [stage]
      exact follows.ear_le (next_log s (.act a)).2.1 (act_behind s a)
    · exact absurd own (by simp)

/-! ## Turns in which nothing is done -/

/-- **A turn of `a` in which nothing is done**: at most, `a` asks for a lock or gives way. -/
inductive Lapses (s : Session) (a : Actor) : Session → Prop
  | waits (locks : Locks) : Lapses s a { s with locks }
  | yields (locks : Locks) (credit : s.credit = 0) :
    Lapses s a (({ s with locks } : Session).giveWay a)

theorem Lapses.idle (s : Session) (a : Actor) : s.Lapses a s := .waits s.locks

theorem Lapses.gaveWay (credit : s.credit = 0) : s.Lapses a (s.giveWay a) := .yields s.locks credit

theorem Lapses.alike (lapses : s.Lapses a t) : t.Alike s := by
  cases lapses <;> exact ⟨rfl, rfl, rfl, rfl, rfl, rfl, rfl⟩

/-- Whoever needs a guarded part gets through, or does nothing. -/
theorem use_lapses (s : Session) (a : Actor) (g : Guarded) (inside after : Session → Session) :
    s.Lapses a (s.use a g inside after) ∨
      ∃ u, u.Alike s ∧ s.use a g inside after = after ((inside u).leave g) := by
  unfold use
  dsimp only
  split
  · exact .inl (.waits _)
  · split
    · next credit => exact .inl (.yields _ credit)
    · refine .inr ⟨_, ?_, rfl⟩
      exact ⟨rfl, rfl, rfl, rfl, rfl, rfl, rfl⟩

/-! ## What the operations leave to be done -/

theorem sideWork_endTurn (s : Session) : s.endTurn.sideWork = s.sideWork :=
  (alike_endTurn s).sideWork

theorem sideWork_countSent (s : Session) (x : Nat) : (s.countSent x).sideWork = s.sideWork := by
  unfold countSent
  split <;> rfl

/-- That a payload is counted as sent leaves nothing behind. -/
theorem Alike.sideWork_counted (alike : t.Alike s) (x : Nat) :
    ((t.countSent x).leave .stats).sideWork = s.sideWork := by
  rw [(alike_leave _ _).sideWork, sideWork_countSent, alike.sideWork]

theorem sideWork_answer (s : Session) (x : Nat) (r : Answer) :
    (s.answer x r).sideWork = s.sideWork := (alike_answer s x r).sideWork

theorem sideWork_deliver (s : Session) (x : Nat) (d : Delivery) :
    (s.deliver x d).sideWork = s.sideWork := (alike_deliver s x d).sideWork

theorem sideWork_setStatus (s : Session) (status : MachineStatus) :
    (s.setStatus status).sideWork = s.sideWork := (alike_setStatus s status).sideWork

theorem sideWork_publish (s : Session) (e : LinkEvent) : (s.publish e).sideWork = s.sideWork :=
  (alike_publish s e).sideWork

/-- A connection has as much less to do as is done on it. -/
theorem sideWork_withConnection {c : Connection} (here : s.link.connection = some c)
    (c' : Connection) :
    (s.withConnection c').sideWork + c.work s.now = s.sideWork + c'.work s.now := by
  simp only [sideWork, withConnection, here, Option.map_some, Option.getD_some]
  omega

/-- **What is handed over** is to be written. -/
theorem sideWork_post? {p : Payload} {x : Nat} (posted : s.post? a p = some (x, t)) :
    t.sideWork = s.sideWork + 5 := by
  cases here : s.link.connection with
  | none =>
    rw [post?_of_closed here] at posted
    exact absurd posted (by simp)
  | some c =>
    obtain ⟨u, opens, alike⟩ := post?_of_open here a p
    obtain ⟨-, rfl⟩ := Prod.mk.inj (Option.some.inj (opens.symm.trans posted))
    have more : (c.enqueue p s.link.posts.length).work s.now = c.work s.now + 5 := by
      unfold Connection.enqueue
      split <;>
      · simp only [Connection.work, List.length_append, List.length_singleton]
        omega
    rw [alike.sideWork]
    simp only [sideWork, here, Option.map_some, Option.getD_some, more]
    omega

/-- The work of the streaming task is more while its job is running. -/
theorem work_le (k : StreamTask) (state state' : JobState) (other : state' ≠ .running) :
    k.work state' ≤ k.work state := by
  unfold StreamTask.work
  cases k.stage with
  | ready =>
    dsimp only
    rw [if_neg other]
    exact Nat.add_le_add_left (Nat.zero_le _) _
  | _ => exact Nat.le_refl _

theorem work_le_running (k : StreamTask) (state : JobState) :
    k.work .running ≤ k.work state + 12 := by
  unfold StreamTask.work
  cases k.stage with
  | ready => simp only [if_true]; omega
  | _ => exact Nat.le_add_right _ _

theorem sideWork_setState_le {state : JobState} (other : state ≠ .running) :
    (s.setState state).sideWork ≤ s.sideWork := by
  rw [(alike_setState s state).sideWork]
  refine Nat.add_le_add_left ?_ _
  cases s.streamer.task with
  | none => exact Nat.le_refl _
  | some k => exact work_le k _ state other

/-- A job that goes on has a line to hand over. -/
theorem sideWork_running (s : Session) : (s.setState .running).sideWork ≤ s.sideWork + 12 := by
  rw [(alike_setState s .running).sideWork]
  simp only [sideWork]
  cases s.streamer.task with
  | none => exact Nat.le_add_right _ _
  | some k =>
    have more := work_le_running k s.streamer.state
    simp only [Option.map_some, Option.getD_some]
    omega

theorem sideWork_conclude_le (s : Session) (reason : JobState) :
    (s.conclude reason).sideWork ≤ s.sideWork := by
  rw [(alike_conclude s reason).sideWork]
  refine Nat.add_le_add_left ?_ _
  cases s.streamer.task with
  | none => exact Nat.le_refl _
  | some k => exact work_le k _ .idle (by simp)

/-- A task that is gone has nothing left to do. -/
theorem sideWork_dropTask (s : Session) :
    s.dropTask.sideWork + (s.streamer.task.map (·.work s.streamer.state)).getD 0 = s.sideWork := by
  rw [(alike_dropTask s).sideWork]
  rfl

theorem sideWork_withTask_le (s : Session) (k : StreamTask) :
    (s.withTask k).sideWork ≤ s.sideWork + k.work s.streamer.state := by
  simp only [sideWork, withTask, Option.map_some, Option.getD_some]
  omega

theorem sideWork_withTask {k : StreamTask} (task : s.streamer.task = some k) (k' : StreamTask) :
    (s.withTask k').sideWork + k.work s.streamer.state
      = s.sideWork + k'.work s.streamer.state := by
  simp only [sideWork, withTask, task, Option.map_some, Option.getD_some]
  omega

/-- **A connection that ends** has nothing left to do. -/
theorem sideWork_endConnection {c : Connection} (here : s.link.connection = some c) :
    s.endConnection.sideWork + c.work s.now = s.sideWork := by
  rw [(alike_endConnection here).sideWork]
  simp only [sideWork, here, Option.map_some, Option.map_none, Option.getD_some, Option.getD_none]
  omega

theorem sideWork_endConnection_le (s : Session) : s.endConnection.sideWork ≤ s.sideWork := by
  cases here : s.link.connection with
  | none => simp [endConnection, here]
  | some c => exact Nat.le_of_add_right_le (Nat.le_of_eq (sideWork_endConnection here))

theorem sideWork_spawnRefresher (s : Session) (delay : Nat) :
    (s.spawnRefresher delay).sideWork = s.sideWork + 9 := by
  rw [spawnRefresher, (alike_wake _ _).sideWork]
  simp only [sideWork, tally_append, tally, Refresher.work]
  simp only [Option.isSome_none, Bool.false_eq_true, if_false]
  omega

/-! ## Calls -/

/-- **The call `i` has done some of what is left to be done.** -/
def Eases (s : Session) (i : Nat) (t : Session) : Prop :=
  t.callWork i + t.sideWork < s.callWork i + s.sideWork

namespace Eases

/-- A call that returns may leave some work behind. -/
theorem finish (pending : s.stage? i = some st) (less : t.sideWork < s.sideWork + st.work)
    (r : Result) : s.Eases i (t.finish i r) := by
  have before : s.callWork i = st.work := by simp [callWork, pending]
  have after : (t.finish i r).callWork i = 0 := by simp [callWork]
  have same : (t.finish i r).sideWork = t.sideWork := rfl
  rw [Eases, before, after, same]
  omega

theorem finished (pending : s.stage? i = some st) (less : t.sideWork < s.sideWork + st.work)
    (r : Result) : s.Eases i (t.finish i r).endTurn := by
  have eases := finish pending less r
  have same : (t.finish i r).endTurn.callWork i = (t.finish i r).callWork i := by simp [callWork]
  rwa [Eases, sideWork_endTurn, same]

/-- A call that goes on to a later stage may leave some work behind. -/
theorem setStage {st' : CallStage} (pending : s.stage? i = some st) (calls : t.calls = s.calls)
    (less : t.sideWork + st'.work < s.sideWork + st.work) : s.Eases i (t.setStage i st') := by
  have before : s.callWork i = st.work := by simp [callWork, pending]
  have after : (t.setStage i st').callWork i = st'.work := by
    simp [callWork, stage?_congr calls i, pending]
  have same : (t.setStage i st').sideWork = t.sideWork := rfl
  rw [Eases, before, after, same]
  omega

end Eases

/-- A call hands something over and waits to know what becomes of it. -/
theorem send_eases (pending : s.stage? i = some st) (enough : 30 < st.work) (p : Payload)
    (errand : Errand) : s.Eases i (s.send i p errand) := by
  unfold send
  split
  · exact .finish pending (Nat.lt_add_of_pos_right st.work_pos) _
  · next x u posted =>
    have more := sideWork_post? posted
    have calls : u.calls = s.calls := congrArg Controlled.calls (post?_controlled posted)
    have weight : (CallStage.sending x errand).work = 25 := rfl
    exact .setStage pending calls (by omega)

theorem sendControl_eases (pending : s.stage? i = some st) (enough : 30 < st.work)
    (calls : t.calls = s.calls) (side : t.sideWork ≤ s.sideWork) {closed : Session → Session}
    (side' : (closed t).sideWork ≤ s.sideWork) (command : Realtime) (errand : Errand) :
    s.Eases i (t.sendControl i command errand closed) := by
  have some_ := st.work_pos
  unfold sendControl
  split
  · exact .finished pending (by omega) _
  · next x u posted =>
    have more := sideWork_post? posted
    have calls : u.calls = s.calls :=
      (congrArg Controlled.calls (post?_controlled posted)).trans calls
    have weight : (CallStage.sending x errand).work = 25 := rfl
    exact .setStage pending calls (by omega)

theorem startJob_eases (pending : s.stage? i = some st) (program : String)
    (enough : (CallStage.turn (.start program)).work ≤ st.work) (side : t.sideWork = s.sideWork) :
    s.Eases i (t.startJob i program) := by
  have some_ := st.work_pos
  unfold startJob
  dsimp only
  split
  · exact .finished pending (by omega) _
  · split
    · exact .finished pending (by omega) _
    · split
      · exact .finished pending (by omega) _
      · let job : Job := ⟨t.streamer.started, Job.linesOf program⟩
        let set : Session := { t with
          streamer.job := some job
          streamer.progress := ⟨0, (Job.linesOf program).length⟩
          streamer.started := t.streamer.started + 1 }
        let running : Session :=
          (set.setState .running).announce (.started (Job.linesOf program).length)
        have state : running.streamer.state = .running := by
          show (set.setState .running).streamer.state = _
          rw [(alike_setState set .running).2.2.1]
        have same : set.sideWork = t.sideWork := rfl
        have ran : running.sideWork ≤ set.sideWork + 12 := sideWork_running set
        have begun := sideWork_withTask_le running ⟨job, 0, .ready⟩
        have whole : (⟨job, 0, .ready⟩ : StreamTask).work .running
            = 16 * (Job.linesOf program).length + 14 := rfl
        rw [state, whole] at begun
        refine .finish pending ?_ _
        rw [sideWork_endTurn, (alike_wake _ _).sideWork]
        have weight : (CallStage.turn (.start program)).work
            = 48 + 16 * (Job.linesOf program).length := rfl
        show (running.withTask ⟨job, 0, .ready⟩).sideWork < _
        omega

theorem control_eases (pending : s.stage? i = some st) (c : Control)
    (enough : (CallStage.turn c).work ≤ st.work) (calls : t.calls = s.calls)
    (side : t.sideWork = s.sideWork) : s.Eases i (t.control i c) := by
  have some_ := st.work_pos
  have refused (r : Result) : s.Eases i (t.finish i r).endTurn := .finished pending (by omega) r
  have more : 30 < st.work := by
    refine Nat.lt_of_lt_of_le ?_ enough
    cases c <;> simp only [CallStage.work] <;> omega
  cases c with
  | start program => exact startJob_eases pending program enough side
  | pause =>
    dsimp only [control]
    split
    · have paused : ((t.setState .paused).wakeAll (t.setState .paused).watchingTask).sideWork
          ≤ s.sideWork := by
        rw [(alike_wakeAll _ _).sideWork, ← side]
        exact sideWork_setState_le (by simp)
      refine sendControl_eases pending more ?_ ?_ ?_ _ _
      · rw [(alike_wakeAll _ _).2.2.2.1, (alike_setState t _).2.2.2.1, calls]
      · exact paused
      · exact paused
    · exact refused _
  | resume =>
    dsimp only [control]
    split
    · refine sendControl_eases pending more calls ?_ ?_ _ _
      · exact Nat.le_of_eq side
      · exact Nat.le_of_eq side
    · exact refused _
  | stop =>
    dsimp only [control]
    split
    · have dropped : t.dropTask.sideWork ≤ s.sideWork := by
        rw [← side]
        exact Nat.le_of_add_right_le (Nat.le_of_eq (sideWork_dropTask t))
      refine sendControl_eases pending more ?_ ?_ ?_ _ _
      · rw [(alike_dropTask t).2.2.2.1, calls]
      · exact dropped
      · exact Nat.le_trans (sideWork_conclude_le _ _) dropped
    · exact refused _

theorem addPoller_eases (pending : s.stage? i = some st) (enough : 10 < st.work) (interval : Nat) :
    s.Eases i (s.addPoller i interval) := by
  unfold addPoller
  split
  · exact .finish pending (by omega) _
  · next c here =>
    split
    · exact .finish pending (by omega) _
    · refine .finish pending ?_ _
      rw [(alike_wake _ _).sideWork]
      have more : ({ c with pollers := c.pollers ++ [⟨s.spawned, interval, s.now, none⟩] } :
          Connection).work s.now = c.work s.now + 10 := by
        simp [Connection.work, tally, Poller.work, Poller.overdue]
        omega
      have added := sideWork_withConnection here
        { c with pollers := c.pollers ++ [⟨s.spawned, interval, s.now, none⟩] }
      show (s.withConnection _).sideWork < _
      omega

theorem connect_eases (pending : s.stage? i = some st) (port : String)
    (refusal : Option DeviceFault) : s.Eases i (s.connect i port refusal) := by
  have some_ := st.work_pos
  unfold connect
  split
  · exact .finish pending (by omega) _
  · next closed =>
    split
    · refine .finish pending ?_ _
      rw [sideWork_setStatus]
      omega
    · refine .finish pending ?_ _
      rw [sideWork_publish]
      have fresh : (Connection.fresh s.link.opened port).work s.now = 0 := rfl
      simp [sideWork, closed, fresh, setStatus]
      omega

theorem beginConfirmation_eases (pending : s.stage? i = some st) (enough : 30 < st.work)
    (id : UInt16) (value : String) (delay timeout : Nat) :
    s.Eases i (s.beginConfirmation i id value delay timeout) := by
  unfold beginConfirmation
  dsimp only
  split
  · refine .finish pending ?_ _
    exact Nat.lt_add_of_pos_right st.work_pos
  · next x u posted =>
    have more :
        u.sideWork = Session.sideWork { s with link.events := s.link.events.subscribe } + 5 :=
      sideWork_post? posted
    have same : Session.sideWork { s with link.events := s.link.events.subscribe } = s.sideWork :=
      rfl
    have calls : u.calls = s.calls := congrArg Controlled.calls (post?_controlled posted)
    have weight : (CallStage.sending x (.setting delay
        (some ⟨toString id, s.link.events.nextSubscription, timeout⟩))).work = 25 := rfl
    exact .setStage pending calls (by omega)

theorem beginCall_eases {c : Call} (pending : s.stage? i = some (.begin c)) :
    s.Eases i (s.beginCall i c) := by
  have enough : 50 ≤ (CallStage.begin c).work := by
    unfold CallStage.work
    split <;> simp_all
  have gives {t : Session} (same : t.sideWork = s.sideWork) (r : Result) :
      s.Eases i (t.finish i r) := .finish pending (by omega) r
  cases c with
  | connect port refusal => exact connect_eases pending port refusal
  | disconnect =>
    have less := sideWork_endConnection_le s
    exact .finish pending (by omega) _
  | write | writeAcked | realtime | writeSetting => exact send_eases pending (by omega) _ _
  | control c =>
    have further : (CallStage.turn c).work < (CallStage.begin (.control c)).work := by
      cases c <;> simp [CallStage.work]
    dsimp only [beginCall, takeTurn]
    split
    · exact control_eases pending c (Nat.le_of_lt further) rfl rfl
    · exact .setStage pending rfl (Nat.add_lt_add_left further _)
  | wait =>
    dsimp only [beginCall]
    split
    · exact gives rfl _
    · exact .setStage pending rfl (Nat.add_lt_add_left (by simp [CallStage.work]) _)
  | poll interval => exact addPoller_eases pending (by omega) interval
  | confirmSetting => exact beginConfirmation_eases pending (by omega) _ _ _ _
  | resetSettings => exact gives (t := { s with link.settings := .empty }) rfl .ok
  | settings | jobLines | ports => exact gives rfl _

theorem failErrand_eases (pending : s.stage? i = some st) (errand : Errand) (f : LinkError) :
    s.Eases i (s.failErrand i errand f) := by
  have some_ := st.work_pos
  cases errand with
  | report | reportAnswer | realtime => exact .finish pending (by omega) _
  | pause | resume => exact .finished pending (by omega) _
  | stop =>
    have concluded := sideWork_conclude_le s .stopped
    exact .finished pending (by omega) _
  | setting delay confirmation =>
    cases confirmation <;>
    · refine .finish pending ?_ _
      exact Nat.lt_add_of_pos_right st.work_pos

theorem doErrand_eases {x : Nat} {errand : Errand}
    (pending : s.stage? i = some (.counting x errand)) (calls : t.calls = s.calls)
    (same : t.sideWork = s.sideWork) : s.Eases i (t.doErrand i x errand) := by
  have weight : (CallStage.counting x errand).work = 22 := rfl
  cases errand with
  | report | realtime => exact .finish pending (by omega) _
  | reportAnswer =>
    have eases : s.Eases i ((t.give i .sent).setStage i (.awaitingAnswer x)) :=
      .setStage pending calls (Nat.add_lt_add_of_le_of_lt (Nat.le_of_eq same)
        (by simp [CallStage.work]))
    exact eases
  | pause => exact .finished pending (by omega) _
  | resume =>
    have more := sideWork_running t
    refine .finished pending ?_ _
    rw [(alike_wakeAll _ _).sideWork]
    omega
  | stop =>
    have concluded := sideWork_conclude_le t .stopped
    exact .finished pending (by omega) _
  | setting delay confirmation =>
    have more := sideWork_spawnRefresher t delay
    cases confirmation with
    | none => exact .finish pending (by omega) _
    | some c =>
      have eases : s.Eases i ((t.spawnRefresher delay).setStage i
          (.confirming c.key c.subscription (t.now + c.timeout))) := by
        refine .setStage pending ?_ ?_
        · rw [spawnRefresher, (alike_wake _ _).2.2.2.1, ← calls]
        · simp only [CallStage.work]
          omega
      exact eases

theorem sideWork_dropAnswers (s : Session) : s.dropAnswers.sideWork = s.sideWork := by
  cases here : s.link.connection with
  | none => simp [dropAnswers, here]
  | some c =>
    rw [(alike_dropAnswers here).sideWork]
    simp only [sideWork, here]
    rfl

/-- **What the turn of the call `i` may do**: nothing, some of what is left, or hear an event. -/
inductive Labours (s : Session) (i : Nat) (t : Session) : Prop
  | lapses (lapses : s.Lapses (.call i) t)
  | eases (eases : s.Eases i t)
  | hears {key : String} {sub deadline : Nat} {h : Heard LinkEvent}
      (stage : s.stage? i = some (.confirming key sub deadline))
      (heard : (s.link.events.receive sub).1 = some h)
      (alike : t.Alike { s with link.events := (s.link.events.receive sub).2 })

theorem confirmTurn_labours {key : String} {sub deadline : Nat}
    (pending : s.stage? i = some (.confirming key sub deadline)) :
    s.Labours i (s.confirmTurn i key sub deadline) := by
  have timeUp : s.Eases i ((s.unsubscribe sub).finish i (.reported none)) := by
    refine .finish pending ?_ _
    exact Nat.lt_add_of_pos_right (by simp [CallStage.work])
  unfold confirmTurn
  dsimp only
  split
  · next credit =>
    split
    · exact .eases timeUp
    · exact .lapses (.gaveWay credit)
  · split
    · split
      · exact .eases timeUp
      · exact .lapses (.idle s _)
    · next heard events received =>
      have first : (s.link.events.receive sub).1 = some heard := congrArg Prod.fst received
      have second : (s.link.events.receive sub).2 = events := congrArg Prod.snd received
      have same : (Session.unsubscribe (Session.spend { s with link.events := events })
          sub).sideWork = s.sideWork := rfl
      split
      · exact .hears pending first (second ▸ ⟨rfl, rfl, rfl, rfl, rfl, rfl, rfl⟩)
      · have eases : s.Eases i ((Session.unsubscribe (Session.spend
            { s with link.events := events }) sub).setStage i (.lookingUp key)) :=
          .setStage pending rfl (Nat.add_lt_add_of_le_of_lt (Nat.le_of_eq same)
            (by simp [CallStage.work]))
        exact .eases eases
      · refine .eases (.finish pending ?_ _)
        rw [same]
        exact Nat.lt_add_of_pos_right (by simp [CallStage.work])

theorem use_labours {g : Guarded} {inside after : Session → Session}
    (through : ∀ u : Session, u.Alike s → s.Eases i (after ((inside u).leave g))) :
    s.Labours i (s.use (.call i) g inside after) := by
  rcases use_lapses s (.call i) g inside after with lapses | ⟨u, alike, same⟩
  · exact .lapses lapses
  · exact .eases (same ▸ through u alike)

theorem countErrand_labours {x : Nat} {errand : Errand}
    (pending : s.stage? i = some (.sending x errand)) :
    s.Labours i (s.countErrand i x errand) := by
  -- a call that goes on to count what was sent
  have counting {u : Session} (calls : u.calls = s.calls) (side : u.sideWork = s.sideWork) :
      s.Eases i ((u.setStage i (.counting x errand)).again (.call i)) := by
    have eases : s.Eases i (u.setStage i (.counting x errand)) :=
      .setStage pending calls (Nat.add_lt_add_of_le_of_lt (Nat.le_of_eq side)
        (by simp [CallStage.work]))
    exact eases
  unfold countErrand
  dsimp only
  split
  · refine use_labours fun u alike => counting ?_ ?_
    · rw [(alike_leave _ _).2.2.2.1]
      exact (congrArg Controlled.calls (dropAnswers_controlled u)).trans alike.2.2.2.1
    · rw [(alike_leave _ _).sideWork, sideWork_dropAnswers, alike.sideWork]
  · exact .eases (counting rfl rfl)

/-- **A call that has its turn** does nothing, does some of what is left, or hears an event. -/
theorem callTurn_labours (s : Session) (i : Nat) : s.Labours i (s.callTurn i) := by
  have returns {st : CallStage} (pending : s.stage? i = some st) (r : Result) :
      s.Labours i (s.finish i r) :=
    .eases (.finish pending (Nat.lt_add_of_pos_right st.work_pos) r)
  unfold callTurn
  cases pending : s.stage? i with
  | none => exact .lapses (.idle s _)
  | some st =>
    cases st with
    | begin c => exact .eases (beginCall_eases pending)
    | turn c =>
      dsimp only
      split
      · exact .eases (control_eases pending c (Nat.le_refl _) rfl rfl)
      · exact .lapses (.idle s _)
    | sending x errand =>
      dsimp only
      split
      · exact .lapses (.idle s _)
      · split
        · exact .eases (failErrand_eases pending errand _)
        · exact countErrand_labours pending
    | counting x errand =>
      refine use_labours fun u alike => doErrand_eases pending ?_ ?_
      · rw [(alike_leave _ _).2.2.2.1]
        exact (congrArg Controlled.calls (countSent_controlled u x)).trans alike.2.2.2.1
      · exact alike.sideWork_counted x
    | awaitingAnswer x =>
      dsimp only
      split
      · exact .lapses (.idle s _)
      · exact returns pending _
      · exact returns pending _
    | awaitingIdle =>
      dsimp only
      split
      · exact returns pending _
      · exact .lapses (.idle s _)
    | confirming key sub deadline => exact confirmTurn_labours pending
    | lookingUp key =>
      refine use_labours fun u alike => ?_
      refine .finish pending ?_ _
      rw [(alike_leave _ _).sideWork, id_eq, alike.sideWork]
      exact Nat.lt_add_of_pos_right (by simp [CallStage.work])

end Session

end Cnc
