import Cnc.Proofs.Turns

/-!
# What a host call does to the job streamer

The calls that start, pause, resume or stop a job take turns, and only the
one that has its turn does anything to the job streamer. `Session.Controls`
lists what the turn of a host call can do to the job streamer and to the call
itself; the other calls are left alone (`Session.callTurn_handles`).
-/

namespace Cnc

open Traffic

/-- What decides what the job streamer does. -/
structure StreamerCore where
  state : JobState
  progress : JobProgress
  job : Option Job
  task : Option StreamTask
  turns : List Nat
  started : Nat

/-- What decides what the job streamer does. -/
def Streamer.core (m : Streamer) : StreamerCore :=
  ⟨m.state, m.progress, m.job, m.task, m.turns, m.started⟩

/-- Whether an errand belongs to a call that controls a job. -/
def Errand.isControl : Errand → Bool
  | .pause | .resume | .stop => true
  | _ => false

/-- The errand of a call that has handed over its payload and not finished. -/
def CallStage.errand? : CallStage → Option Errand
  | .sending _ e | .counting _ e => some e
  | _ => none

/-- Whether a call that controls a job is on its way. -/
def CallStage.controls (st : CallStage) : Bool := st.errand?.any Errand.isControl

/-- The payload that an errand is about. -/
def Errand.payload? : Errand → Option Payload
  | .realtime command => some (.realtime command)
  | .pause => some (.realtime .feedHold)
  | .resume => some (.realtime .cycleStart)
  | .stop => some (.realtime .softReset)
  | _ => none

/-! ## Stages of calls -/

theorem lookup_set (calls : List (Nat × CallStage)) (i j : Nat) (st : CallStage) :
    (calls.map fun c => if c.1 = i then (i, st) else c).lookup j
      = if j = i then (calls.lookup i).map fun _ => st else calls.lookup j := by
  induction calls with
  | nil => simp
  | cons c calls ih =>
    obtain ⟨k, old⟩ := c
    rw [List.map_cons]
    by_cases hk : k = i
    · subst hk
      by_cases hj : j = k
      · simp [hj]
      · simp only [if_true, List.lookup_cons, beq_false_of_ne hj, ih, if_neg hj]
    · by_cases hj : j = k
      · subst hj
        simp [hk]
      · simp only [if_neg hk, List.lookup_cons, beq_false_of_ne hj, beq_false_of_ne (Ne.symm hk),
          ih]

theorem lookup_remove (calls : List (Nat × CallStage)) (i j : Nat) :
    (calls.filter (·.1 ≠ i)).lookup j = if j = i then none else calls.lookup j := by
  induction calls with
  | nil => simp
  | cons c calls ih =>
    obtain ⟨k, old⟩ := c
    by_cases hk : k = i
    · subst hk
      rw [List.filter_cons_of_neg (by simp), ih]
      by_cases hj : j = k
      · simp [hj]
      · simp [hj, List.lookup_cons, beq_false_of_ne hj]
    · rw [List.filter_cons_of_pos (by simpa using hk), List.lookup_cons, List.lookup_cons, ih]
      by_cases hj : j = k
      · subst hj
        simp [hk]
      · simp [beq_false_of_ne hj]

namespace Session

/-- Whether it is the turn of a call that controls a job, and what the order of turns is then. -/
def HasTurn (s : Session) (i : Nat) (c : Control) (turns : List Nat) : Prop :=
  (s.stage? i = some (.begin (.control c)) ∧ s.streamer.turns = [] ∧ turns = [i])
    ∨ (s.stage? i = some (.turn c) ∧ s.streamer.turns.head? = some i ∧ turns = s.streamer.turns)

/-- The job streamer right after a program was started. -/
def started (s : Session) (program : String) (turns : List Nat) : StreamerCore where
  state := .running
  progress := ⟨0, (Job.linesOf program).length⟩
  job := some ⟨s.streamer.started, Job.linesOf program⟩
  task := some ⟨⟨s.streamer.started, Job.linesOf program⟩, 0, .ready⟩
  turns := turns
  started := s.streamer.started + 1

/-- **What a call that has its turn can do** to the job streamer and to itself. -/
inductive Steers (s : Session) (turns : List Nat) :
    Control → Option CallStage → StreamerCore → Prop
  | refuse (c : Control) : Steers s turns c none { s.streamer.core with turns := turns.tail }
  | start {program : String} (idle : s.streamer.state = .idle)
      (lines : Job.linesOf program ≠ []) :
    Steers s turns (.start program) none (s.started program turns.tail)
  | pause (running : s.streamer.state = .running) :
    Steers s turns .pause (some (.sending s.link.posts.length .pause))
      { s.streamer.core with state := .paused, turns }
  | pauseClosed (running : s.streamer.state = .running) :
    Steers s turns .pause none { s.streamer.core with state := .paused, turns := turns.tail }
  | resume (paused : s.streamer.state = .paused) :
    Steers s turns .resume (some (.sending s.link.posts.length .resume))
      { s.streamer.core with turns }
  | stop (active : s.streamer.state = .running ∨ s.streamer.state = .paused) :
    Steers s turns .stop (some (.sending s.link.posts.length .stop))
      { s.streamer.core with task := none, turns }
  | stopClosed (active : s.streamer.state = .running ∨ s.streamer.state = .paused) :
    Steers s turns .stop none
      { s.streamer.core with
        state := .idle, progress := .none, job := none, task := none, turns := turns.tail }

/-- **What a call that controls a job can do when it finishes.** -/
inductive Finishes (s : Session) : Errand → StreamerCore → Prop
  | aside {e : Errand} (other : e ≠ .stop) :
    Finishes s e { s.streamer.core with turns := s.streamer.turns.tail }
  | resume :
    Finishes s .resume { s.streamer.core with state := .running, turns := s.streamer.turns.tail }
  | stop :
    Finishes s .stop
      { s.streamer.core with
        state := .idle, progress := .none, job := none, turns := s.streamer.turns.tail }

/-- **What the turn of a host call can do** to the job streamer and to the call itself. -/
inductive Controls (s : Session) (i : Nat) : Option CallStage → StreamerCore → Prop
  | wait : Controls s i (s.stage? i) s.streamer.core
  /-- The call does not control a job, or has not come to that. -/
  | aside {st : Option CallStage} (before : (s.stage? i).any CallStage.controls = false)
      (after : st.any CallStage.controls = false) : Controls s i st s.streamer.core
  /-- Its payload was sent, and is to be counted. -/
  | count {x : Nat} {e : Errand} (stage : s.stage? i = some (.sending x e))
      (sent : s.link.delivery? x = some .sent) :
    Controls s i (some (.counting x e)) s.streamer.core
  | queue {c : Control} (stage : s.stage? i = some (.begin (.control c)))
      (taken : s.streamer.turns ≠ []) :
    Controls s i (some (.turn c)) { s.streamer.core with turns := s.streamer.turns ++ [i] }
  | steer {c : Control} {turns : List Nat} {st : Option CallStage} {m : StreamerCore}
      (turn : s.HasTurn i c turns) (steers : s.Steers turns c st m) : Controls s i st m
  | finish {st : CallStage} {e : Errand} {m : StreamerCore} (stage : s.stage? i = some st)
      (errand : st.errand? = some e) (control : e.isControl = true) (finishes : s.Finishes e m) :
    Controls s i none m

/-! ## Simplification -/

@[simp] theorem stage?_setStage (s : Session) (i j : Nat) (st : CallStage) :
    (s.setStage i st).stage? j = if j = i then (s.stage? i).map fun _ => st else s.stage? j :=
  lookup_set s.calls i j st

@[simp] theorem stage?_finish (s : Session) (i j : Nat) (r : Result) :
    (s.finish i r).stage? j = if j = i then none else s.stage? j :=
  lookup_remove s.calls i j

/-- Sessions with the same calls are at the same stages. -/
theorem stage?_congr {s t : Session} (h : s.calls = t.calls) (j : Nat) : s.stage? j = t.stage? j :=
  congrArg (List.lookup j) h

/-- A new call is at its beginning. -/
theorem stage?_added {s : Session} {i : Nat} (new : s.stage? i = none) (c : Call) (j : Nat) :
    ({ s with calls := s.calls ++ [(i, .begin c)] } : Session).stage? j
      = if j = i then some (.begin c) else s.stage? j := by
  rw [stage?, List.lookup_append]
  by_cases own : j = i
  · subst own
    simp [show s.calls.lookup j = none from new]
  · simp [stage?, List.lookup_cons, beq_false_of_ne own, own]

/-- **What the turn of the call `i` does to the calls and the job streamer.** -/
def Handles (s : Session) (i : Nat) (t : Session) : Prop :=
  s.Controls i (t.stage? i) t.streamer.core ∧ ∀ j, j ≠ i → t.stage? j = s.stage? j

section Handles

variable {s t : Session} {i : Nat}

/-- Nothing is done. -/
theorem Handles.wait (calls : t.calls = s.calls) (core : t.streamer.core = s.streamer.core) :
    s.Handles i t := by
  refine ⟨?_, fun j _ => stage?_congr calls j⟩
  rw [stage?_congr calls, core]
  exact .wait

/-- A call that does not control a job gives its last result. -/
theorem Handles.finish (calls : t.calls = s.calls) (core : t.streamer.core = s.streamer.core)
    (before : (s.stage? i).any CallStage.controls = false) (r : Result) :
    s.Handles i (t.finish i r) := by
  refine ⟨?_, fun j other => ?_⟩
  · rw [stage?_finish, if_pos rfl]
    exact core ▸ Controls.aside before rfl
  · rw [stage?_finish, if_neg other, stage?_congr calls]

/-- A call that does not control a job waits for something else. -/
theorem Handles.setStage (calls : t.calls = s.calls) (core : t.streamer.core = s.streamer.core)
    (before : (s.stage? i).any CallStage.controls = false) {st : CallStage}
    (after : st.controls = false) : s.Handles i (t.setStage i st) := by
  refine ⟨?_, fun j other => ?_⟩
  · rw [stage?_setStage, if_pos rfl]
    show s.Controls i _ t.streamer.core
    rw [core]
    refine .aside before ?_
    cases t.stage? i with
    | none => rfl
    | some _ => exact after
  · rw [stage?_setStage, if_neg other, stage?_congr calls]

/-- What is done afterwards concerns neither the calls nor the job streamer. -/
theorem Handles.congr {u : Session} (h : s.Handles i t) (calls : u.calls = t.calls)
    (core : u.streamer.core = t.streamer.core) : s.Handles i u := by
  refine ⟨?_, fun j other => ?_⟩
  · rw [stage?_congr calls, core]
    exact h.1
  · rw [stage?_congr calls]
    exact h.2 j other

end Handles

/-- Handing a payload over concerns neither the calls nor the job streamer. -/
theorem post?_streamer {s t : Session} {a : Actor} {p : Payload} {x : Nat}
    (posted : s.post? a p = some (x, t)) :
    x = s.link.posts.length ∧ t.calls = s.calls ∧ t.streamer = s.streamer := by
  cases here : s.link.connection with
  | none =>
    rw [post?_of_closed here] at posted
    exact absurd posted (by simp)
  | some c =>
    obtain ⟨u, hu, alike⟩ := post?_of_open here a p
    rw [hu] at posted
    obtain ⟨rfl, rfl⟩ := Prod.mk.inj (Option.some.inj posted)
    exact ⟨rfl, alike.2.2.2.1, alike.2.2.1⟩

attribute [local simp] withConnection announce unsubscribe Streamer.core

theorem send_handles {s : Session} {i : Nat} (p : Payload) {errand : Errand}
    (before : (s.stage? i).any CallStage.controls = false) (apart : errand.isControl = false) :
    s.Handles i (s.send i p errand) := by
  unfold send
  cases posted : s.post? (.call i) p with
  | none => exact .finish rfl rfl before _
  | some r =>
    obtain ⟨-, calls, streamer⟩ := post?_streamer posted
    exact .setStage calls (congrArg Streamer.core streamer) before apart

theorem connect_handles {s : Session} {i : Nat} (port : String) (refusal : Option DeviceFault)
    (before : (s.stage? i).any CallStage.controls = false) :
    s.Handles i (s.connect i port refusal) := by
  unfold connect
  cases s.link.connection with
  | some c => exact .finish rfl rfl before _
  | none =>
    cases refusal with
    | some f => exact .finish (by simp) (by simp) before _
    | none => exact .finish (by simp) (by simp) before _

theorem addPoller_handles {s : Session} {i : Nat} (interval : Nat)
    (before : (s.stage? i).any CallStage.controls = false) :
    s.Handles i (s.addPoller i interval) := by
  unfold addPoller
  cases s.link.connection with
  | none => exact .finish rfl rfl before _
  | some c =>
    dsimp only
    split
    · exact .finish rfl rfl before _
    · exact .finish (by simp) (by simp) before _

theorem beginConfirmation_handles {s : Session} {i : Nat} (id : UInt16) (value : String)
    (delay timeout : Nat) (before : (s.stage? i).any CallStage.controls = false) :
    s.Handles i (s.beginConfirmation i id value delay timeout) := by
  unfold beginConfirmation
  dsimp only
  split
  · exact .finish (by simp) (by simp) before (.linkError .notConnected)
  · next x t posted =>
    obtain ⟨-, calls, streamer⟩ := post?_streamer posted
    have same : t.calls = s.calls := calls
    refine .setStage same (congrArg Streamer.core streamer) before ?_
    rfl

/-! ## Calls that control a job -/

section Simplification

variable (s : Session) (j : Nat)

@[simp] theorem stage?_endTurn : s.endTurn.stage? j = s.stage? j :=
  stage?_congr (alike_endTurn s).2.2.2.1 j

@[simp] theorem streamer_finish (i : Nat) (r : Result) : (s.finish i r).streamer = s.streamer := rfl

@[simp] theorem streamer_setStage (i : Nat) (st : CallStage) :
    (s.setStage i st).streamer = s.streamer := rfl

end Simplification

/-- A call that has its turn acts. -/
theorem Handles.steer {s t : Session} {i : Nat} {c : Control} {turns : List Nat}
    (turn : s.HasTurn i c turns) (others : ∀ j, j ≠ i → t.stage? j = s.stage? j)
    (steers : s.Steers turns c (t.stage? i) t.streamer.core) : s.Handles i t :=
  ⟨.steer turn steers, others⟩

/-- A call that has its turn gives its result and ends its turn. -/
theorem Handles.leave {s t : Session} {i : Nat} {c : Control} {turns : List Nat} (r : Result)
    (turn : s.HasTurn i c turns) (calls : t.calls = s.calls)
    (steers : s.Steers turns c none t.endTurn.streamer.core) :
    s.Handles i (t.finish i r).endTurn := by
  refine .steer turn (fun j other => ?_) ?_
  · rw [stage?_endTurn, stage?_finish, if_neg other, stage?_congr calls]
  · rw [stage?_endTurn, stage?_finish, if_pos rfl]
    simpa using steers

theorem startJob_handles {s : Session} {i : Nat} {turns : List Nat} {program : String}
    (turn : s.HasTurn i (.start program) turns) :
    s.Handles i ({ s with streamer.turns := turns }.startJob i program) := by
  have refuse (r : Result) :
      s.Handles i ({ s with streamer.turns := turns }.finish i r).endTurn := by
    refine .leave r turn rfl ?_
    have refuse : s.Steers turns (.start program) none _ := .refuse _
    simpa using refuse
  unfold startJob
  dsimp only
  split
  · exact refuse _
  · next idle =>
    split
    · exact refuse _
    · next lines =>
      split
      · exact refuse _
      · refine .steer turn (fun j other => ?_) ?_
        · rw [stage?_finish, if_neg other]
          exact stage?_congr (by simp [withTask]) j
        · have start : s.Steers turns (.start program) none _ := .start (by simpa using idle) lines
          simpa [withTask, started] using start

/-- A call that has its turn hands over a realtime command, or finds the link closed. -/
theorem sendControl_handles {s t : Session} {i : Nat} {c : Control} {turns : List Nat}
    (command : Realtime) (errand : Errand) (closed : Session → Session)
    (turn : s.HasTurn i c turns) (calls : t.calls = s.calls) (posts : t.link.posts = s.link.posts)
    (sent : s.Steers turns c (some (.sending s.link.posts.length errand)) t.streamer.core)
    (unsent : s.Steers turns c none (closed t).endTurn.streamer.core)
    (calls' : (closed t).calls = t.calls) :
    s.Handles i (t.sendControl i command errand closed) := by
  unfold sendControl
  cases posted : t.post? (.call i) (.realtime command) with
  | none => exact .leave _ turn (calls'.trans calls) unsent
  | some r =>
    obtain ⟨ticket, same, streamer⟩ := post?_streamer posted
    have here : ∃ st, s.stage? i = some st := by
      rcases turn with ⟨stage, -⟩ | ⟨stage, -⟩ <;> exact ⟨_, stage⟩
    obtain ⟨st, stage⟩ := here
    refine .steer turn (fun j other => ?_) ?_
    · rw [stage?_setStage, if_neg other, stage?_congr (same.trans calls)]
    · rw [stage?_setStage, if_pos rfl, stage?_congr (same.trans calls), stage, ticket, posts]
      simpa [streamer] using sent

theorem control_handles {s : Session} {i : Nat} {c : Control} {turns : List Nat}
    (turn : s.HasTurn i c turns) :
    s.Handles i ({ s with streamer.turns := turns }.control i c) := by
  have refuse (r : Result) :
      s.Handles i ({ s with streamer.turns := turns }.finish i r).endTurn := by
    refine .leave r turn rfl ?_
    have refuse : s.Steers turns c none _ := .refuse c
    simpa using refuse
  unfold control
  cases c with
  | start program => exact startJob_handles turn
  | pause =>
    dsimp only
    split
    · next running =>
      refine sendControl_handles .feedHold .pause id turn (by simp) (by simp) ?_ ?_ rfl
      · have pause : s.Steers turns .pause _ _ := .pause running
        simpa using pause
      · have pause : s.Steers turns .pause none _ := .pauseClosed running
        simpa using pause
    · exact refuse _
  | resume =>
    dsimp only
    split
    · next paused =>
      refine sendControl_handles .cycleStart .resume id turn rfl rfl ?_ ?_ rfl
      · have resume : s.Steers turns .resume _ _ := .resume paused
        simpa using resume
      · have refuse : s.Steers turns .resume none _ := .refuse _
        simpa using refuse
    · exact refuse _
  | stop =>
    dsimp only
    split
    · next active =>
      refine sendControl_handles .softReset .stop _ turn (by simp) (by simp) ?_ ?_ (by simp)
      · have stop : s.Steers turns .stop _ _ := .stop active
        simpa using stop
      · have stop : s.Steers turns .stop none _ := .stopClosed active
        simpa using stop
    · exact refuse _

theorem takeTurn_handles {s : Session} {i : Nat} {c : Control}
    (stage : s.stage? i = some (.begin (.control c))) : s.Handles i (s.takeTurn i c) := by
  unfold takeTurn
  dsimp only
  split
  · next free =>
    have turn : s.HasTurn i c (s.streamer.turns ++ [i]) := .inl ⟨stage, free, by simp [free]⟩
    exact control_handles turn
  · next taken =>
    refine ⟨?_, fun j other => ?_⟩
    · have same : { s with streamer.turns := s.streamer.turns ++ [i] }.stage? i = s.stage? i := rfl
      rw [stage?_setStage, if_pos rfl, same, stage]
      exact .queue stage taken
    · rw [stage?_setStage, if_neg other]
      rfl

theorem beginCall_handles {s : Session} {i : Nat} {c : Call}
    (stage : s.stage? i = some (.begin c)) : s.Handles i (s.beginCall i c) := by
  have before : (s.stage? i).any CallStage.controls = false := by
    rw [stage]
    rfl
  unfold beginCall
  cases c with
  | connect port refusal => exact connect_handles port refusal before
  | disconnect =>
    cases here : s.link.connection with
    | none => exact .finish (by simp [endConnection, here]) (by simp [endConnection, here]) before _
    | some c =>
      have calls : s.endConnection.calls = s.calls := (alike_endConnection here).2.2.2.1
      have streamer : s.endConnection.streamer = s.streamer := (alike_endConnection here).2.2.1
      exact .finish calls (congrArg Streamer.core streamer) before _
  | write line => exact send_handles _ before rfl
  | writeAcked line => exact send_handles _ before rfl
  | realtime command => exact send_handles _ before rfl
  | control c => exact takeTurn_handles stage
  | wait =>
    dsimp only
    split
    · exact .finish rfl rfl before _
    · exact .setStage rfl rfl before rfl
  | poll interval => exact addPoller_handles interval before
  | writeSetting id value delay => exact send_handles _ before rfl
  | confirmSetting id value delay timeout =>
    exact beginConfirmation_handles id value delay timeout before
  | settings => exact .finish rfl rfl before _
  | resetSettings => exact .finish (s := s) rfl rfl before .ok
  | jobLines => exact .finish rfl rfl before _
  | ports => exact .finish rfl rfl before _

/-- A call that controls a job finishes. -/
theorem Handles.finished {s t : Session} {i : Nat} {st : CallStage} {e : Errand} (r : Result)
    (stage : s.stage? i = some st) (errand : st.errand? = some e) (control : e.isControl = true)
    (calls : t.calls = s.calls) (finishes : s.Finishes e t.endTurn.streamer.core) :
    s.Handles i (t.finish i r).endTurn := by
  refine ⟨?_, fun j other => ?_⟩
  · rw [stage?_endTurn, stage?_finish, if_pos rfl]
    refine .finish stage errand control ?_
    simpa using finishes
  · rw [stage?_endTurn, stage?_finish, if_neg other, stage?_congr calls]

theorem failErrand_handles {s t : Session} {i : Nat} {st : CallStage} {e : Errand}
    (stage : s.stage? i = some st) (errand : st.errand? = some e) (calls : t.calls = s.calls)
    (streamer : t.streamer = s.streamer) (f : LinkError) : s.Handles i (t.failErrand i e f) := by
  have before (apart : e.isControl = false) : (s.stage? i).any CallStage.controls = false := by
    rw [stage, Option.any_some, CallStage.controls, errand]
    exact apart
  unfold failErrand
  cases e with
  | report => exact .finish calls (congrArg _ streamer) (before rfl) _
  | reportAnswer => exact .finish calls (congrArg _ streamer) (before rfl) _
  | realtime command => exact .finish calls (congrArg _ streamer) (before rfl) _
  | pause =>
    refine .finished _ stage errand rfl calls ?_
    simpa [streamer] using Finishes.aside (s := s) (e := .pause) (by simp)
  | resume =>
    refine .finished _ stage errand rfl calls ?_
    simpa [streamer] using Finishes.aside (s := s) (e := .resume) (by simp)
  | stop =>
    refine .finished _ stage errand rfl (by simp [calls]) ?_
    simpa [streamer] using Finishes.stop (s := s)
  | setting delay confirmation =>
    cases confirmation with
    | none => exact .finish calls (congrArg _ streamer) (before rfl) _
    | some c =>
      refine .finish (t := t.unsubscribe c.subscription) calls ?_ (before rfl) (.linkError f)
      exact congrArg _ streamer

theorem doErrand_handles {s t : Session} {i x : Nat} {st : CallStage} {e : Errand}
    (stage : s.stage? i = some st) (errand : st.errand? = some e) (calls : t.calls = s.calls)
    (streamer : t.streamer = s.streamer) : s.Handles i (t.doErrand i x e) := by
  have before (apart : e.isControl = false) : (s.stage? i).any CallStage.controls = false := by
    rw [stage, Option.any_some, CallStage.controls, errand]
    exact apart
  unfold doErrand
  cases e with
  | report => exact .finish calls (congrArg _ streamer) (before rfl) _
  | reportAnswer =>
    have waits : s.Handles i ((t.give i .sent).setStage i (.awaitingAnswer x)) :=
      .setStage calls (congrArg _ streamer) (before rfl) rfl
    exact waits.congr rfl rfl
  | realtime command => exact .finish calls (congrArg _ streamer) (before rfl) _
  | pause =>
    refine .finished _ stage errand rfl calls ?_
    simpa [streamer] using Finishes.aside (s := s) (e := .pause) (by simp)
  | resume =>
    refine .finished _ stage errand rfl (by simp [calls]) ?_
    simpa [streamer] using Finishes.resume (s := s)
  | stop =>
    refine .finished _ stage errand rfl (by simp [calls]) ?_
    simpa [streamer] using Finishes.stop (s := s)
  | setting delay confirmation =>
    cases confirmation with
    | none =>
      exact .finish (by simp [spawnRefresher, calls]) (by simp [spawnRefresher, streamer])
        (before rfl) _
    | some c =>
      have waits : s.Handles i ((t.spawnRefresher delay).setStage i
          (.confirming c.key c.subscription (t.now + c.timeout))) :=
        .setStage (by simp [spawnRefresher, calls]) (by simp [spawnRefresher, streamer])
          (before rfl) rfl
      exact waits.congr rfl rfl

theorem countErrand_handles {s : Session} {i x : Nat} {e : Errand}
    (stage : s.stage? i = some (.sending x e)) (sent : s.link.delivery? x = some .sent) :
    s.Handles i (s.countErrand i x e) := by
  have counting {t : Session} (calls : t.calls = s.calls) (streamer : t.streamer = s.streamer) :
      s.Handles i ((t.setStage i (.counting x e)).again (.call i)) := by
    have counts : s.Handles i (t.setStage i (.counting x e)) := by
      refine ⟨?_, fun j other => ?_⟩
      · rw [stage?_setStage, if_pos rfl, stage?_congr calls, stage, streamer_setStage, streamer]
        exact .count stage sent
      · rw [stage?_setStage, if_neg other, stage?_congr calls]
    exact counts.congr rfl rfl
  unfold countErrand
  dsimp only
  split
  · rcases use_cases s (.call i) .slots dropAnswers
      (fun s => (s.setStage i (.counting x e)).again (.call i)) with h | ⟨u, hu, h⟩
    · exact .wait h.2.2.2.1 (congrArg _ h.2.2.1)
    · rw [h]
      have dropped : u.dropAnswers.calls = u.calls ∧ u.dropAnswers.streamer = u.streamer := by
        cases here : u.link.connection with
        | none => simp [dropAnswers, here]
        | some c => exact ⟨(alike_dropAnswers here).2.2.2.1, (alike_dropAnswers here).2.2.1⟩
      exact counting (by simp [dropped, hu]) (by simp [dropped, hu])
  · exact counting rfl rfl

theorem confirmTurn_handles {s : Session} {i : Nat} {key : String} {sub deadline : Nat}
    (stage : s.stage? i = some (.confirming key sub deadline)) :
    s.Handles i (s.confirmTurn i key sub deadline) := by
  have before : (s.stage? i).any CallStage.controls = false := by
    rw [stage]
    rfl
  unfold confirmTurn
  dsimp only
  split
  · split
    · exact .finish (s := s) (t := s.unsubscribe sub) rfl rfl before (.reported none)
    · exact .wait rfl rfl
  · split
    · split
      · exact .finish (s := s) (t := s.unsubscribe sub) rfl rfl before (.reported none)
      · exact .wait rfl rfl
    · next heard events _ =>
      split
      · exact .wait rfl rfl
      · have looks : s.Handles i
            (({ s with link.events := events }.spend.unsubscribe sub).setStage i
              (.lookingUp key)) :=
          .setStage (s := s) rfl rfl before rfl
        exact looks.congr rfl rfl
      · exact .finish (s := s) (t := { s with link.events := events }.spend.unsubscribe sub) rfl rfl
          before (.linkError .notConnected)

/-- **What the turn of a host call does** to the calls and the job streamer. -/
theorem callTurn_handles (s : Session) (i : Nat) : s.Handles i (s.callTurn i) := by
  unfold callTurn
  cases stage : s.stage? i with
  | none => exact .wait rfl rfl
  | some st =>
    have before (apart : st.controls = false) : (s.stage? i).any CallStage.controls = false := by
      rw [stage]
      exact apart
    cases st with
    | begin c => exact beginCall_handles stage
    | turn c =>
      dsimp only
      split
      · next first => exact control_handles (.inr ⟨stage, first, rfl⟩)
      · exact .wait rfl rfl
    | sending x errand =>
      dsimp only
      cases delivery : s.link.delivery? x with
      | none => exact .wait rfl rfl
      | some d =>
        cases d with
        | sent => exact countErrand_handles stage delivery
        | failed f => exact failErrand_handles stage rfl rfl rfl _
        | lost => exact failErrand_handles stage rfl rfl rfl _
    | counting x errand =>
      dsimp only
      rcases use_cases s (.call i) .stats (·.countSent x) (·.doErrand i x errand)
        with h | ⟨u, hu, h⟩
      · exact .wait h.2.2.2.1 (congrArg _ h.2.2.1)
      · rw [h]
        have counted : (u.countSent x).calls = u.calls ∧ (u.countSent x).streamer = u.streamer := by
          unfold countSent
          split <;> exact ⟨rfl, rfl⟩
        exact doErrand_handles stage rfl (by simp [counted, hu]) (by simp [counted, hu])
    | awaitingAnswer x =>
      dsimp only
      split
      · exact .wait rfl rfl
      · exact .finish rfl rfl (before rfl) _
      · exact .finish rfl rfl (before rfl) _
    | awaitingIdle =>
      dsimp only
      split
      · exact .finish rfl rfl (before rfl) _
      · exact .wait rfl rfl
    | confirming key sub deadline => exact confirmTurn_handles stage
    | lookingUp key =>
      dsimp only
      rcases use_cases s (.call i) .settings id
        (fun s => s.finish i (.reported (s.link.settings.get? key))) with h | ⟨u, hu, h⟩
      · exact .wait h.2.2.2.1 (congrArg _ h.2.2.1)
      · rw [h]
        exact .finish (by simp [hu]) (by simp [hu]) (before rfl) _

end Session

end Cnc
