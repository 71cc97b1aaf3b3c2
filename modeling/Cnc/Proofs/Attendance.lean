import Mathlib.Data.Finset.Card
import Cnc.Proofs.Listening
import Cnc.Proofs.SendStatistics

/-!
# Who gets a turn

An actor that waits for something has no turn until somebody wakes it. That
nobody is left out rests on every single operation: whatever it changes, it
has to wake whoever may have waited for just that. An actor is minded if it
has nothing to do and no lock, or will have a turn (`Session.Minded`). The
operations of a turn keep all but the present actor minded, and nobody due for
more than two turns (`Session.Tended`); an operation that changes something
and wakes some does so if those that it leaves asleep go on waiting
(`Session.Tended.change`).

The operations here are those on events, on the status, on the job streamer
and on the stages of calls.
-/

namespace Cnc

namespace EventBus

variable {E : Type} {b : EventBus E} {sub other : Nat}

/-- A subscriber hears nothing if it is past all events. -/
theorem silent_iff :
    (b.receive sub).1 = none ↔ ∀ p, b.position? sub = some p → b.log.length ≤ p := by
  constructor
  · intro silent p there
    exact length_le_of_silent silent there
  · intro past
    have received := b.receives sub
    generalize b.receive sub = r at received
    cases received with
    | silent => rfl
    | lagged there behind =>
      have := past _ there
      simp only [oldest] at behind
      omega
    | event there _ found =>
      have := past _ there
      have inside := (List.getElem?_eq_some_iff.mp found).1
      omega

theorem silent_unsubscribe (silent : (b.receive sub).1 = none) :
    ((b.unsubscribe other).receive sub).1 = none := by
  refine silent_iff.mpr fun p there => silent_iff.mp silent p ?_
  by_cases own : sub = other
  · subst own
    rw [position?_unsubscribe_self] at there
    exact absurd there (by simp)
  · rwa [show b.unsubscribe other = b.seek other none from rfl, position?_seek_ne own] at there

theorem silent_subscribe (silent : (b.receive sub).1 = none) :
    (b.subscribe.receive sub).1 = none := by
  refine silent_iff.mpr fun p there => ?_
  by_cases new : sub = b.nextSubscription
  · subst new
    rw [position?_subscribe_self] at there
    exact Nat.le_of_eq (Option.some.inj there)
  · exact silent_iff.mp silent p ((position?_subscribe_ne new).symm.trans there)

/-- What one hears is no news for others. -/
theorem silent_receive (silent : (b.receive sub).1 = none) (other : Nat) :
    ((b.receive other).2.receive sub).1 = none := by
  by_cases own : sub = other
  · subst own
    have received := b.receives sub
    generalize b.receive sub = r at received silent
    cases received with
    | silent past => exact silent_iff.mpr past
    | lagged | event => exact absurd silent (by simp)
  · have received := b.receives other
    generalize b.receive other = r at received
    cases received with
    | silent => exact silent
    | lagged | event =>
      refine silent_iff.mpr fun p there => silent_iff.mp silent p ?_
      rwa [position?_seek_ne own] at there

end EventBus

namespace Lock

variable {l : Lock} {a b : Actor}

theorem mem_of_mem_request (member : b ∈ (l.request a).actors) : b = a ∨ b ∈ l.actors := by
  unfold request at member
  cases holder : l.holder with
  | none => simpa [actors, holder] using member
  | some h =>
    simp only [holder] at member
    split at member
    · exact .inr member
    · simp only [actors, holder, List.mem_append, List.mem_singleton] at member ⊢
      tauto

/-- Asking takes a lock from nobody. -/
theorem holder_of_request (has : (l.request a).holder = some b) (other : b ≠ a) :
    l.holder = some b := by
  cases holder : l.holder with
  | none =>
    simp only [request, holder, Option.some.injEq] at has
    exact absurd has.symm other
  | some h => rwa [request_holder holder] at has

theorem mem_line_request (member : b ∈ l.line) (a : Actor) : b ∈ (l.request a).line := by
  unfold request
  cases l.holder with
  | none => exact member
  | some h =>
    dsimp only
    split
    · exact member
    · exact List.mem_append_left _ member

/-- One that does not get a lock waits for it in line. -/
theorem mem_line_of_request (hasNot : (l.request a).holder ≠ some a) : a ∈ (l.request a).line := by
  unfold request at hasNot ⊢
  cases holder : l.holder with
  | none => simp [holder] at hasNot
  | some h =>
    simp only [holder] at hasNot ⊢
    split
    · next there =>
      rw [if_pos there] at hasNot
      exact there.resolve_left fun same => hasNot (same ▸ holder)
    · exact List.mem_append_right _ (List.mem_singleton.mpr rfl)

theorem mem_of_mem_forget (member : b ∈ (l.forget a).actors) : b ∈ l.actors := by
  unfold forget at member
  split at member
  · rw [actors_leave] at member
    exact List.mem_append_right _ member
  · refine (List.mem_append.mp member).elim (List.mem_append_left _) fun line => ?_
    exact List.mem_append_right _ (List.mem_of_mem_filter line)

/-- Whoever waits in line gets the lock or goes on waiting when another one is gone. -/
theorem holder_or_mem_forget (member : b ∈ l.line) (other : b ≠ a) :
    (l.forget a).holder = some b ∨ b ∈ (l.forget a).line := by
  unfold forget
  split
  · have there : b ∈ l.leave.actors := by rwa [actors_leave]
    exact (List.mem_append.mp there).imp_left Option.mem_toList.mp
  · exact .inr (List.mem_filter.mpr ⟨member, by simpa using other⟩)

end Lock

namespace Session

open Traffic

/-! ## Who gets a turn -/

/-- Whether an actor has something that it may go on with, now or later. -/
def Present (s : Session) : Actor → Prop
  | .call i => s.stage? i ≠ none
  | .job n => s.task? n ≠ none
  | .poller n => s.poller? n ≠ none
  | .refresher n => s.refresher? n ≠ none
  | .writer | .reader => True

/-- **An actor that will have a turn**: it is in the queue, gave way, or waits for a lock. -/
def Attended (s : Session) (a : Actor) : Prop := a ∈ s.ready ∨ s.isHeldUp a = true

/-- **An actor that has nothing to do**, and no lock. -/
def AtEase (s : Session) (a : Actor) : Prop :=
  s.Waits a ∧ ∀ g, (s.locks.get g).holder ≠ some a

/-- **An actor that is not left out**: it has nothing to do, or will have a turn. -/
def Minded (s : Session) (a : Actor) : Prop := s.AtEase a ∨ s.Attended a

/-- Who acts, who is in the queue, who gave way, and who has which lock. -/
def agenda (s : Session) : Option Actor × List Actor × List Actor × Locks :=
  (s.acting, s.ready, s.yielded, s.locks)

variable {s t u : Session} {a b : Actor}

theorem present_congr (calls : t.calls = s.calls) (task : t.streamer.task = s.streamer.task)
    (refreshers : t.refreshers = s.refreshers)
    (connection : t.link.connection.map (·.pollers) = s.link.connection.map (·.pollers)) :
    t.Present b ↔ s.Present b := by
  cases b with
  | call i => simp only [Present, stage?_congr calls i]
  | job n => simp only [Present, task?, task]
  | poller n =>
    have same : t.poller? n = s.poller? n := by
      simp only [poller?]
      cases there : t.link.connection <;> cases here : s.link.connection <;>
        simp_all
    simp only [Present, same]
  | refresher n => simp only [Present, refresher?, refreshers]
  | writer | reader => rfl

theorem present_alike (alike : t.Alike s) : t.Present b ↔ s.Present b :=
  present_congr alike.2.2.2.1 (congrArg _ alike.2.2.1) alike.2.2.2.2.1
    (congrArg (·.connection.map (·.pollers)) alike.2.1)

theorem attended_congr (same : t.agenda = s.agenda) : t.Attended b ↔ s.Attended b := by
  simp only [agenda, Prod.mk.injEq] at same
  simp only [Attended, isHeldUp, same]

theorem Attended.wake (attended : s.Attended b) (a : Actor) : (s.wake a).Attended b := by
  unfold Session.wake
  split
  · exact attended
  · exact attended.imp_left fun queued => List.mem_append_left _ queued

theorem attended_wake (s : Session) (a : Actor) : (s.wake a).Attended a := by
  unfold wake
  split
  · next there => exact there
  · exact .inl (List.mem_append_right _ (List.mem_singleton.mpr rfl))

theorem Attended.wakeAll (attended : s.Attended b) (as : List Actor) :
    (s.wakeAll as).Attended b := by
  unfold Session.wakeAll
  induction as generalizing s with
  | nil => exact attended
  | cons a as ih => exact ih (attended.wake a)

theorem attended_wakeAll {as : List Actor} (member : b ∈ as) : (s.wakeAll as).Attended b := by
  unfold Session.wakeAll
  induction as generalizing s with
  | nil => exact absurd member (by simp)
  | cons a as ih =>
    rcases List.mem_cons.mp member with rfl | later
    · exact (attended_wake s b).wakeAll as
    · exact ih later

theorem AtEase.wakeAll (atEase : s.AtEase b) (as : List Actor) : (s.wakeAll as).AtEase b :=
  ⟨atEase.1.of_alike (alike_wakeAll s as), by simpa using atEase.2⟩

/-- **What is changed by an operation that wakes some** leaves nobody out, if it wakes whoever may
have got something to do. -/
theorem Minded.wakeAll (minded : s.Minded b) (same : t.agenda = s.agenda) {as : List Actor}
    (waits : s.Waits b → t.Waits b ∨ b ∈ as) : (t.wakeAll as).Minded b := by
  rcases minded with ⟨own, free⟩ | attended
  · rcases waits own with waits | woken
    · refine .inl (AtEase.wakeAll ⟨waits, ?_⟩ as)
      simp only [agenda, Prod.mk.injEq] at same
      simpa only [same] using free
    · exact .inr (attended_wakeAll woken)
  · exact .inr (((attended_congr same).mpr attended).wakeAll as)

/-! ## The queue -/

theorem ready_wake (s : Session) (a : Actor) :
    (s.wake a).ready = s.ready ∨
      (a ∉ s.ready ∧ a ∉ s.yielded ∧ (s.wake a).ready = s.ready ++ [a]) := by
  unfold wake
  split
  · exact .inl rfl
  · next absent =>
    simp only [isHeldUp, Bool.or_eq_true, decide_eq_true_eq, not_or] at absent
    exact .inr ⟨absent.1, absent.2.1, rfl⟩

@[simp] theorem acting_wakeAll (s : Session) (as : List Actor) :
    (s.wakeAll as).acting = s.acting := by
  unfold wakeAll
  induction as generalizing s with
  | nil => rfl
  | cons a as ih =>
    rw [List.foldl_cons, ih]
    unfold wake
    split <;> rfl

@[simp] theorem yielded_wakeAll (s : Session) (as : List Actor) :
    (s.wakeAll as).yielded = s.yielded := by
  unfold wakeAll
  induction as generalizing s with
  | nil => rfl
  | cons a as ih =>
    rw [List.foldl_cons, ih]
    unfold wake
    split <;> rfl

/-- **Those who are due for a turn**, besides the present actor. -/
def queue (s : Session) : List Actor := s.ready ++ s.yielded

theorem mem_queue_wakeAll {as : List Actor} (member : b ∈ (s.wakeAll as).queue) :
    b ∈ s.queue ∨ b ∈ as := by
  unfold wakeAll at member
  induction as generalizing s with
  | nil => exact .inl member
  | cons a as ih =>
    rcases ih member with before | later
    · have yielded : (s.wake a).yielded = s.yielded := yielded_wakeAll s [a]
      rw [queue, yielded, List.mem_append] at before
      rw [queue, List.mem_append]
      rcases ready_wake s a with same | ⟨-, -, more⟩
      · exact .inl (same ▸ before)
      · rw [more, List.mem_append, List.mem_singleton] at before
        rcases before with (before | rfl) | before
        · exact .inl (.inl before)
        · exact .inr List.mem_cons_self
        · exact .inl (.inr before)
    · exact .inr (List.mem_cons_of_mem _ later)

/-- Nobody is woken who is due for a turn already. -/
theorem count_queue_wakeAll (s : Session) (as : List Actor) (b : Actor) :
    (s.wakeAll as).queue.count b ≤ max 1 (s.queue.count b) := by
  unfold wakeAll
  induction as generalizing s with
  | nil => exact Nat.le_max_right _ _
  | cons a as ih =>
    refine Nat.le_trans (ih (s.wake a)) ?_
    have yielded : (s.wake a).yielded = s.yielded := yielded_wakeAll s [a]
    rcases ready_wake s a with same | ⟨notReady, notYielded, more⟩
    · rw [queue, yielded, same, ← queue]
    · simp only [queue, yielded, more, List.count_append, List.count_singleton]
      by_cases own : a = b
      · subst own
        rw [List.count_eq_zero.mpr notReady, List.count_eq_zero.mpr notYielded]
        simp
      · simp [own]


/-! ## During a turn -/

/-- **What the operations of a turn of `a` keep**: all who are there, or due for a turn, belong to a
`cast`, nobody is due for more than two turns, and nobody but `a` is left out. -/
structure Tended (cast : Finset Actor) (a : Actor) (s : Session) : Prop where
  acting : s.acting = none ∨ s.acting = some a
  self : a ∈ cast
  present : ∀ b, s.Present b → b ∈ cast
  turns : ∀ i ∈ s.streamer.turns, .call i ∈ cast
  locks : ∀ g, ∀ b ∈ (s.locks.get g).actors, b ∈ cast
  queue : ∀ b ∈ s.queue, b ∈ cast
  twice : ∀ b, (a :: s.queue).count b ≤ 2
  minded : ∀ b, b ≠ a → s.Minded b

variable {cast : Finset Actor}

theorem queue_congr (same : t.agenda = s.agenda) : t.queue = s.queue := by
  simp only [agenda, Prod.mk.injEq] at same
  simp only [Session.queue, same]

/-- **An operation that changes something and wakes some**, among them whoever may have got
something to do. -/
theorem Tended.change (tended : s.Tended cast a) (same : t.agenda = s.agenda) {l : List Actor}
    (present : ∀ b, t.Present b → s.Present b ∨ b ∈ cast)
    (turns : ∀ i ∈ t.streamer.turns, i ∈ s.streamer.turns ∨ .call i ∈ cast)
    (woken : ∀ b ∈ l, b ∈ cast)
    (waits : ∀ b, b ≠ a → s.Waits b → t.Waits b ∨ b ∈ l) : (t.wakeAll l).Tended cast a where
  acting := by
    simp only [agenda, Prod.mk.injEq] at same
    rw [acting_wakeAll, same.1]
    exact tended.acting
  self := tended.self
  present b there :=
    (present b ((present_alike (alike_wakeAll t l)).mp there)).elim (tended.present b) id
  turns i member := by
    rw [(alike_wakeAll t l).2.2.1] at member
    exact (turns i member).elim (tended.turns i) id
  locks g b member := by
    simp only [agenda, Prod.mk.injEq] at same
    rw [locks_wakeAll, same.2.2.2] at member
    exact tended.locks g b member
  queue b member := by
    rcases mem_queue_wakeAll member with before | now
    · exact tended.queue b (queue_congr same ▸ before)
    · exact woken b now
  twice b := by
    have before := tended.twice b
    have after := count_queue_wakeAll t l b
    have once : (if (a == b) = true then 1 else 0) ≤ 1 := by split <;> omega
    rw [queue_congr same] at after
    rw [List.count_cons] at before ⊢
    omega
  minded b other := (tended.minded b other).wakeAll same (waits b other)

namespace Tended

/-- An operation after which nobody has more to do. -/
theorem quiet (tended : s.Tended cast a) (same : t.agenda = s.agenda)
    (present : ∀ b, t.Present b → s.Present b)
    (turns : t.streamer.turns = s.streamer.turns)
    (waits : ∀ b, b ≠ a → s.Waits b → t.Waits b) : t.Tended cast a :=
  tended.change (l := []) same (fun b there => .inl (present b there))
    (fun i member => .inl (turns ▸ member)) (by simp) fun b other own => .inl (waits b other own)

theorem wakeAll (tended : s.Tended cast a) {as : List Actor} (known : ∀ b ∈ as, b ∈ cast) :
    (s.wakeAll as).Tended cast a :=
  tended.change rfl (fun _ there => .inl there) (fun _ member => .inl member) known
    fun _ _ own => .inl own

end Tended

/-! ## What they wait for -/

/-- What the call `i` waits for at a stage. -/
def StageWaits (s : Session) (i : Nat) : CallStage → Prop
  | .turn _ => s.streamer.turns.head? ≠ some i
  | .sending x _ => s.link.delivery? x = none
  | .awaitingAnswer x => s.link.answer? x = none
  | .awaitingIdle => s.streamer.state ≠ .idle
  | .confirming _ sub deadline => s.now < deadline ∧ (s.link.events.receive sub).1 = none
  | .begin _ | .counting .. | .lookingUp _ => False

/-- What a streaming task waits for. -/
def TaskWaits (s : Session) (k : StreamTask) : Prop :=
  match k.stage with
  | .ready => k.job.lines[k.cursor]? ≠ none ∧ s.streamer.state ≠ .running
    ∧ s.streamer.state ≠ .idle ∧ s.link.status.state ≠ .disconnected
  | .sending x => s.link.delivery? x = none
  | .awaiting x deadline => s.link.answer? x = none ∧ s.streamer.state ≠ .idle
    ∧ deadline.any (· ≤ s.now) = false

/-- What a poller or a refresher waits for. -/
def TimerWaits (s : Session) (due : Nat) (sending : Option Nat) : Prop :=
  match sending with
  | none => s.now < due
  | some x => s.link.delivery? x = none

theorem waits_of_gone {i : Nat} (gone : s.stage? i = none) : s.Waits (.call i) := by
  simp only [Waits, gone]

theorem waits_call_iff {i : Nat} {st : CallStage} (stage : s.stage? i = some st) :
    s.Waits (.call i) ↔ s.StageWaits i st := by
  simp only [Waits, stage]
  cases st <;> rfl

theorem waits_of_no_task? {n : Nat} (none : s.task? n = none) : s.Waits (.job n) := by
  simp only [Waits, none]

theorem waits_job_iff {n : Nat} {k : StreamTask} (task : s.task? n = some k) :
    s.Waits (.job n) ↔ s.TaskWaits k := by
  simp only [Waits, task]
  rfl

/-- A call at the same stage goes on waiting if what it waits for at that stage is still to come. -/
theorem Waits.call {i : Nat} {P : Prop} (waits : s.Waits (.call i)) (same : t.stage? i = s.stage? i)
    (own : ∀ st, s.stage? i = some st → s.StageWaits i st → t.StageWaits i st ∨ P) :
    t.Waits (.call i) ∨ P := by
  cases stage : s.stage? i with
  | none => exact .inl (waits_of_gone (same.trans stage))
  | some st =>
    exact (own st stage ((waits_call_iff stage).mp waits)).imp_left
      (waits_call_iff (same.trans stage)).mpr

theorem Waits.call_stays {i : Nat} (waits : s.Waits (.call i)) (same : t.stage? i = s.stage? i)
    (own : ∀ st, s.stage? i = some st → s.StageWaits i st → t.StageWaits i st) :
    t.Waits (.call i) :=
  (waits.call (P := False) same fun st stage still => .inl (own st stage still)).resolve_right id

theorem Waits.job {n : Nat} {P : Prop} (waits : s.Waits (.job n)) (same : t.task? n = s.task? n)
    (own : ∀ k, s.task? n = some k → s.TaskWaits k → t.TaskWaits k ∨ P) :
    t.Waits (.job n) ∨ P := by
  cases task : s.task? n with
  | none => exact .inl (waits_of_no_task? (same.trans task))
  | some k =>
    exact (own k task ((waits_job_iff task).mp waits)).imp_left
      (waits_job_iff (same.trans task)).mpr

theorem Waits.job_stays {n : Nat} (waits : s.Waits (.job n)) (same : t.task? n = s.task? n)
    (own : ∀ k, s.task? n = some k → s.TaskWaits k → t.TaskWaits k) : t.Waits (.job n) :=
  (waits.job (P := False) same fun k task still => .inl (own k task still)).resolve_right id

theorem waits_poller_iff {n : Nat} {p : Poller} (found : s.poller? n = some p) :
    s.Waits (.poller n) ↔ s.TimerWaits p.due p.sending := by
  simp only [Waits, found]
  rfl

theorem waits_refresher_iff {n : Nat} {r : Refresher} (found : s.refresher? n = some r) :
    s.Waits (.refresher n) ↔ s.TimerWaits r.due r.sending := by
  simp only [Waits, found]
  rfl

theorem Waits.poller_stays {n : Nat} (waits : s.Waits (.poller n))
    (same : t.poller? n = s.poller? n) (own : ∀ p, s.poller? n = some p →
      s.TimerWaits p.due p.sending → t.TimerWaits p.due p.sending) : t.Waits (.poller n) := by
  cases found : s.poller? n with
  | none => simp only [Waits, same, found]
  | some p =>
    exact (waits_poller_iff (same.trans found)).mpr
      (own p found ((waits_poller_iff found).mp waits))

theorem Waits.refresher_stays {n : Nat} (waits : s.Waits (.refresher n))
    (same : t.refresher? n = s.refresher? n) (own : ∀ r, s.refresher? n = some r →
      s.TimerWaits r.due r.sending → t.TimerWaits r.due r.sending) : t.Waits (.refresher n) := by
  cases found : s.refresher? n with
  | none => simp only [Waits, same, found]
  | some r =>
    exact (waits_refresher_iff (same.trans found)).mpr
      (own r found ((waits_refresher_iff found).mp waits))

/-- Who waits goes on waiting when the open connection changes in nothing that it waits for. -/
theorem Waits.withConnection {c c' : Connection} (waits : s.Waits b)
    (here : s.link.connection = some c) (pollers : c'.pollers = c.pollers)
    (writer : b = .writer → c'.writer = c.writer ∧ c'.realtime = c.realtime ∧ c'.lines = c.lines ∧
      (c.stalled = true → c'.stalled = true))
    (reader : b = .reader → c'.chores = c.chores ∧ c'.inbox = c.inbox) :
    (s.withConnection c').Waits b := by
  cases b with
  | poller n =>
    refine waits.poller_stays ?_ fun p _ own => own
    simp [poller?, Session.withConnection, here, pollers]
  | writer =>
    obtain ⟨stage, realtime, lines, stalled⟩ := writer rfl
    simp only [Waits, here] at waits
    simp only [Waits, Session.withConnection, stage, realtime, lines]
    cases at_ : c.writer with
    | writing x =>
      simp only [at_] at waits
      exact stalled waits
    | idle => simpa only [at_] using waits
    | taken | failed => simp only [at_] at waits
  | reader =>
    obtain ⟨chores, inbox⟩ := reader rfl
    simpa [Waits, Session.withConnection, here, chores, inbox] using waits
  | _ => exact waits

theorem mem_calls {i : Nat} {st : CallStage} (stage : s.stage? i = some st) :
    (i, st) ∈ s.calls := by
  obtain ⟨before, after, calls, -⟩ := List.lookup_eq_some_iff.mp stage
  simp [calls]

theorem mem_confirmers {i sub deadline : Nat} {key : String}
    (stage : s.stage? i = some (.confirming key sub deadline)) : .call i ∈ s.confirmers :=
  List.mem_filterMap.mpr ⟨_, mem_calls stage, rfl⟩

theorem mem_waiters {i : Nat} (stage : s.stage? i = some .awaitingIdle) : .call i ∈ s.waiters :=
  List.mem_filterMap.mpr ⟨_, mem_calls stage, rfl⟩

theorem mem_heldTask {n : Nat} {k : StreamTask} (task : s.task? n = some k)
    (ready : k.stage = .ready) : .job n ∈ s.heldTask := by
  obtain ⟨own, number⟩ := Option.filter_eq_some_iff.mp task
  obtain rfl : k.job.number = n := by simpa using number
  simp [heldTask, own, ready]

theorem mem_watchingTask {n : Nat} {k : StreamTask} (task : s.task? n = some k)
    (watching : ∀ x, k.stage ≠ .sending x) : .job n ∈ s.watchingTask := by
  obtain ⟨own, number⟩ := Option.filter_eq_some_iff.mp task
  obtain rfl : k.job.number = n := by simpa using number
  cases stage : k.stage with
  | sending x => exact absurd stage (watching x)
  | _ => simp [watchingTask, own, stage]

/-- Who waits for a report is there. -/
theorem present_of_confirmers (member : b ∈ s.confirmers) : s.Present b := by
  obtain ⟨c, among, same⟩ := List.mem_filterMap.mp member
  have own : b = .call c.1 := by
    split at same <;> simp_all
  subst own
  exact fun gone => List.lookup_eq_none_iff.mp gone c among |> bne_iff_ne.mp |> absurd rfl

theorem present_of_waiters (member : b ∈ s.waiters) : s.Present b := by
  obtain ⟨c, among, same⟩ := List.mem_filterMap.mp member
  have own : b = .call c.1 := by
    split at same <;> simp_all
  subst own
  exact fun gone => List.lookup_eq_none_iff.mp gone c among |> bne_iff_ne.mp |> absurd rfl

theorem present_of_watchingTask (member : b ∈ s.watchingTask) : s.Present b := by
  unfold watchingTask at member
  cases task : s.streamer.task with
  | none => simp [task] at member
  | some k =>
    have own : b = .job k.job.number := by
      simp only [task] at member
      split at member <;> simp_all
    subst own
    simp [Present, task?_number task]

theorem heldTask_subset (member : b ∈ s.heldTask) : b ∈ s.watchingTask := by
  unfold heldTask at member
  unfold watchingTask
  cases task : s.streamer.task with
  | none => simp [task] at member
  | some k =>
    simp only [task] at member ⊢
    split at member
    · next ready => simpa [ready] using member
    · simp at member

/-! ## Events, the job streamer and the calls -/

namespace Tended

/-- **Whoever waits for a report** is woken when something is published. -/
theorem publish (tended : s.Tended cast a) (e : LinkEvent) : (s.publish e).Tended cast a := by
  refine tended.change (t := { s with link.events := s.link.events.publish e }) rfl
    (fun b there => .inl there) (fun i member => .inl member)
    (fun b member => tended.present b (present_of_confirmers member)) fun b _ waits => ?_
  cases b with
  | call i =>
    refine waits.call rfl fun st stage own => ?_
    cases st with
    | confirming => exact .inr (mem_confirmers stage)
    | _ => exact .inl own
  | _ => exact .inl waits

/-- **A task that is held** is woken when the status changes. -/
theorem setStatus (tended : s.Tended cast a) (status : MachineStatus) :
    (s.setStatus status).Tended cast a := by
  refine tended.change (t := { s with link.status := status }) rfl (fun b there => .inl there)
    (fun i member => .inl member)
    (fun b member => tended.present b (present_of_watchingTask (heldTask_subset member)))
    fun b _ waits => ?_
  cases b with
  | job n =>
    refine waits.job rfl fun k task own => ?_
    cases stage : k.stage with
    | ready => exact .inr (mem_heldTask task stage)
    | sending | awaiting =>
      simp only [TaskWaits, stage] at own ⊢
      exact .inl own
  | _ => exact .inl waits

/-- **Whoever waits for the job streamer to be idle** is woken when its state changes. What the task
waits for can be over then, except when the job is paused. -/
theorem setState (tended : s.Tended cast a) {state : JobState}
    (task : state ≠ .paused → s.streamer.task = none) : (s.setState state).Tended cast a := by
  unfold Session.setState
  split
  · exact tended
  · refine tended.change
      (t := { s with
        streamer.state := state
        streamer.events := s.streamer.events.publish (.state state) })
      rfl (fun b there => .inl there) (fun i member => .inl member)
      (fun b member => tended.present b (present_of_waiters (s := s) member)) fun b _ waits => ?_
    cases b with
    | call i =>
      refine waits.call rfl fun st stage own => ?_
      cases st with
      | awaitingIdle => exact .inr (mem_waiters (s := s) stage)
      | _ => exact .inl own
    | job n =>
      refine waits.job rfl fun k there own => .inl ?_
      have paused : state = .paused := by
        by_contra other
        have gone := task other
        simp [task?, gone] at there
      subst paused
      unfold TaskWaits at own ⊢
      cases stage : k.stage <;> simp_all
    | _ => exact .inl waits

theorem announce (tended : s.Tended cast a) (e : JobEvent) : (s.announce e).Tended cast a :=
  tended.quiet rfl (fun _ there => there) rfl fun b _ waits => by cases b <;> exact waits

theorem conclude (tended : s.Tended cast a) (none : s.streamer.task = none) (reason : JobState) :
    (s.conclude reason).Tended cast a := by
  have dropped : ({ s with streamer.job := .none, streamer.progress := .none } : Session).Tended
      cast a :=
    tended.quiet rfl (fun _ there => there) rfl fun b _ waits => by cases b <;> exact waits
  unfold Session.conclude
  dsimp only
  split
  · exact dropped.setState fun _ => none
  · exact (dropped.announce _).setState fun _ => none

/-- **The task that is held** is woken when the job is resumed. -/
theorem resume (tended : s.Tended cast a) :
    ((s.setState .running).wakeAll (s.setState .running).watchingTask).Tended cast a := by
  unfold Session.setState
  split
  · exact tended.wakeAll fun b member => tended.present b (present_of_watchingTask member)
  · let running : Session :=
      { s with
        streamer.state := .running
        streamer.events := s.streamer.events.publish (.state .running) }
    show ((running.wakeAll running.waiters).wakeAll
      (running.wakeAll running.waiters).watchingTask).Tended
      cast a
    have task : (running.wakeAll running.waiters).watchingTask = s.watchingTask := by
      rw [watchingTask, (alike_wakeAll _ _).2.2.1]
      rfl
    rw [task, Session.wakeAll, Session.wakeAll, ← List.foldl_append, ← Session.wakeAll]
    refine tended.change (t := running) rfl (fun b there => .inl there)
      (fun i member => .inl member) (fun b member => ?_) fun b _ waits => ?_
    · refine tended.present b
        ((List.mem_append.mp member).elim (fun waiter => ?_) fun watching => ?_)
      · exact present_of_waiters (s := s) waiter
      · exact present_of_watchingTask watching
    · cases b with
      | call i =>
        refine waits.call rfl fun st stage own => ?_
        cases st with
        | awaitingIdle => exact .inr (List.mem_append_left _ (mem_waiters (s := s) stage))
        | _ => exact .inl own
      | job n =>
        refine waits.job rfl fun k there own => ?_
        cases stage : k.stage with
        | sending =>
          simp only [TaskWaits, stage] at own ⊢
          exact .inl own
        | _ => exact .inr (List.mem_append_right _ (mem_watchingTask there (by simp [stage])))
      | _ => exact .inl waits

/-- **The next call in the order of turns** is woken when a turn ends. -/
theorem endTurn (tended : s.Tended cast a) : s.endTurn.Tended cast a := by
  refine tended.change (t := { s with streamer.turns := s.streamer.turns.tail }) rfl
    (fun b there => .inl there) (fun i member => .inl (List.mem_of_mem_tail member))
    (fun b member => ?_) fun b _ waits => ?_
  · obtain ⟨i, first, rfl⟩ := List.mem_map.mp member
    exact tended.turns i (List.mem_of_mem_tail (List.mem_of_head? (Option.mem_toList.mp first)))
  · cases b with
    | call i =>
      refine waits.call rfl fun st stage own => ?_
      cases st with
      | turn c =>
        by_cases next : s.streamer.turns.tail.head? = some i
        · exact .inr (List.mem_map.mpr ⟨i, Option.mem_toList.mpr next, rfl⟩)
        · exact .inl next
      | _ => exact .inl own
    | _ => exact .inl waits

/-- What a call does to itself concerns no other. -/
theorem setStage {i : Nat} (tended : s.Tended cast (.call i)) (st : CallStage) :
    (s.setStage i st).Tended cast (.call i) := by
  refine tended.quiet rfl (fun b there => ?_) rfl fun b other waits => ?_
  · cases b with
    | call j =>
      intro gone
      refine there ?_
      rw [stage?_setStage]
      split
      · next own => simp [← own, gone]
      · exact gone
    | _ => exact there
  · cases b with
    | call j =>
      have apart : j ≠ i := fun same => other (congrArg Actor.call same)
      exact waits.call_stays (by rw [stage?_setStage, if_neg apart]) fun _ _ own => own
    | _ => exact waits

theorem finish {i : Nat} (tended : s.Tended cast (.call i)) (r : Result) :
    (s.finish i r).Tended cast (.call i) := by
  refine tended.quiet rfl (fun b there => ?_) rfl fun b other waits => ?_
  · cases b with
    | call j =>
      intro gone
      refine there ?_
      rw [stage?_finish]
      split
      · rfl
      · exact gone
    | _ => exact there
  · cases b with
    | call j =>
      have apart : j ≠ i := fun same => other (congrArg Actor.call same)
      exact waits.call_stays (by rw [stage?_finish, if_neg apart]) fun _ _ own => own
    | _ => exact waits

end Tended

end Session

end Cnc
