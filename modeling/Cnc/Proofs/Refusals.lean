import Cnc.Proofs.Announcements
import Cnc.Proofs.Transfers

/-!
# What a refused call leaves behind

A call that starts, pauses or resumes a job may return an error: the state
does not fit, the program has no command, the link is closed, or the command
for the controller cannot be written. Whatever others do meanwhile, the turns
of such a call leave the job streamer as it was, with one exception. A pause
changes the state before it hands its command over, so a pause that finds the
link closed, or whose command fails, has paused the job all the same
(`Session.untouched_iff_of_refused`).

A resume hands its command over first, and changes the state once it is sent.
-/

namespace Cnc

/-- What a call does once the command for the controller was handed over; a start needs none. -/
def Control.errand? : Control → Option Errand
  | .start _ => none
  | .pause => some .pause
  | .resume => some .resume
  | .stop => some .stop

namespace Session

variable {s t u : Session} {i : Nat} {c : Control} {e : Event} {handed : Bool}

/-! ## The job streamer stays, or is paused -/

/-- **The job streamer stays as it is**, but for whose turn it is. -/
def Unmoved (s t : Session) : Prop := t.streamer = { s.streamer with turns := t.streamer.turns }

instance (s t : Session) : Decidable (s.Unmoved t) := inferInstanceAs (Decidable (_ = _))

/-- A session whose job has just been paused. -/
def paused (s : Session) : Session :=
  { s with
    streamer.state := .paused
    streamer.events := s.streamer.events.publish (.state .paused) }

/-- **A running job is paused**, which is announced. -/
def Halts (s t : Session) : Prop := s.streamer.state = .running ∧ s.paused.Unmoved t

theorem Unmoved.of_streamer (same : t.streamer = s.streamer) : s.Unmoved t := by
  rw [Unmoved, same]

/-- Whose turn it was before, and whose it is afterwards, make no difference. -/
theorem Unmoved.reorder {s' : Session} (turns turns' : List Nat) (unmoved : s.Unmoved t)
    (before : s.streamer = { s'.streamer with turns })
    (after : u.streamer = { t.streamer with turns := turns' }) : s'.Unmoved u := by
  have same : t.streamer = { s.streamer with turns := t.streamer.turns } := unmoved
  rw [Unmoved, after, same, before]

theorem Unmoved.endTurn (unmoved : s.Unmoved t) : s.Unmoved t.endTurn :=
  unmoved.reorder s.streamer.turns t.streamer.turns.tail rfl (alike_endTurn t).2.2.1

/-- A job that is paused does not stay as it is. -/
theorem Halts.not_unmoved (halts : s.Halts t) : ¬ s.Unmoved t := by
  intro unmoved
  have kept := congrArg Streamer.state unmoved
  have changed := congrArg Streamer.state halts.2
  exact absurd (halts.1.symm.trans (kept.symm.trans changed)) (by simp [paused])

/-! ## The turns of a call -/

/-- **The turns of the call `i`** in a run: the sessions before and after each. -/
def turnsOf (s : Session) (i : Nat) (es : List Event) : List (Session × Session) :=
  ((s.history es).filter (·.2 = .act (.call i))).map fun h => (h.1, h.1.next h.2)

/-- **All these turns leave the job streamer as it is.** -/
def Untouched (turns : List (Session × Session)) : Prop := ∀ h ∈ turns, h.1.Unmoved h.2

instance (turns : List (Session × Session)) : Decidable (Untouched turns) :=
  inferInstanceAs (Decidable (∀ h ∈ turns, _))

/-- **One of these turns pauses the job**, and the others leave the job streamer as it is. -/
def HaltsOnce (turns : List (Session × Session)) : Prop :=
  ∃ before h after, turns = before ++ h :: after ∧ h.1.Halts h.2 ∧ Untouched (before ++ after)

theorem turnsOf_own (s : Session) (i : Nat) (es : List Event) :
    s.turnsOf i (es ++ [.act (.call i)])
      = s.turnsOf i es ++ [(s.after es, (s.after es).callTurn i)] := by
  simp [turnsOf, history_concat, next, act]

theorem turnsOf_other {es : List Event} (other : e ≠ .act (.call i)) :
    s.turnsOf i (es ++ [e]) = s.turnsOf i es := by
  simp [turnsOf, history_concat, other]

variable {turns : List (Session × Session)}

theorem Untouched.concat (before : Untouched turns) (unmoved : s.Unmoved t) :
    Untouched (turns ++ [(s, t)]) :=
  List.forall_mem_append.mpr ⟨before, by simpa using unmoved⟩

theorem Untouched.halts (before : Untouched turns) (halts : s.Halts t) :
    HaltsOnce (turns ++ [(s, t)]) :=
  ⟨turns, (s, t), [], by simp, halts, by simpa using before⟩

theorem HaltsOnce.concat (once : HaltsOnce turns) (unmoved : s.Unmoved t) :
    HaltsOnce (turns ++ [(s, t)]) := by
  obtain ⟨before, h, after, rfl, halts, others⟩ := once
  refine ⟨before, h, after ++ [(s, t)], by simp, halts, ?_⟩
  rw [← List.append_assoc]
  exact others.concat unmoved

theorem HaltsOnce.not_untouched (once : HaltsOnce turns) : ¬ Untouched turns := by
  obtain ⟨before, h, after, rfl, halts, -⟩ := once
  exact fun untouched => halts.not_unmoved (untouched h (by simp))

/-! ## What a call does in its turn -/

/-- **How far a call that controls a job has come** before it returns: whether it has handed its
command over. -/
inductive Underway (t : Session) (i : Nat) (c : Control) : Bool → Prop
  | begin (stage : t.stage? i = some (.begin (.control c))) : Underway t i c false
  | turn (stage : t.stage? i = some (.turn c)) : Underway t i c false
  | sending {x : Nat} {errand : Errand} (own : c.errand? = some errand)
    (stage : t.stage? i = some (.sending x errand)) : Underway t i c true
  | counting {x : Nat} {errand : Errand} (own : c.errand? = some errand)
    (stage : t.stage? i = some (.counting x errand)) : Underway t i c true

/-- What a call does to the job streamer before it hands its command over. -/
def Prepares (s : Session) (c : Control) (t : Session) : Prop :=
  c = .pause ∧ s.Halts t ∨ c ≠ .pause ∧ s.Unmoved t

/-- **What a call does in its turn**, if it does not stop a job. -/
inductive TakesTurn (s : Session) (i : Nat) (c : Control) (handed : Bool) (t : Session) : Prop
  | goesOn (pending : t.resultsOf i = s.resultsOf i) (underway : t.Underway i c handed)
    (unmoved : s.Unmoved t)
  /-- It hands its command over. A pause changes the state first. -/
  | hands (pending : t.resultsOf i = s.resultsOf i) (first : handed = false)
    (underway : t.Underway i c true) (prepares : s.Prepares c t)
  | succeeds (result : t.resultsOf i = s.resultsOf i ++ [.ok])
  | fails {r : JobError} (result : t.resultsOf i = s.resultsOf i ++ [.jobError r])
    (fits : c = .pause → (handed = true ↔ ∃ f, r = .link f)) (unmoved : s.Unmoved t)
  /-- A pause changes the state before it finds the link closed. -/
  | closed (result : t.resultsOf i = s.resultsOf i ++ [.jobError (.link .notConnected)])
    (pause : c = .pause) (first : handed = false) (halts : s.Halts t)

theorem resultsOf_finished (s : Session) (i : Nat) {r : Result} (real : r ≠ .noDevice) :
    (s.finish i r).endTurn.resultsOf i = s.resultsOf i ++ [r] :=
  (resultsOf_congr (alike_endTurn _).2.2.2.2.2.2).trans (resultsOf_finish s i real)

namespace TakesTurn

/-- The call returns an error and ends its turn. -/
theorem refuse {r : JobError} (fits : c = .pause → (handed = true ↔ ∃ f, r = .link f)) :
    s.TakesTurn i c handed (s.finish i (.jobError r)).endTurn :=
  .fails (resultsOf_finished s i (by simp)) fits (Unmoved.of_streamer rfl).endTurn

/-- The call returns and ends its turn. -/
theorem done (results : t.results = s.results) :
    s.TakesTurn i c handed (t.finish i .ok).endTurn := by
  refine .succeeds ((resultsOf_finished t i (by simp)).trans ?_)
  rw [resultsOf_congr results]

/-- The call goes on waiting. -/
theorem wait (underway : s.Underway i c handed) (alike : t.Alike s) :
    s.TakesTurn i c handed t := by
  refine .goesOn (resultsOf_congr alike.2.2.2.2.2.2) ?_ (.of_streamer alike.2.2.1)
  cases underway with
  | begin stage => exact .begin ((alike.stage? i).trans stage)
  | turn stage => exact .turn ((alike.stage? i).trans stage)
  | sending own stage => exact .sending own ((alike.stage? i).trans stage)
  | counting own stage => exact .counting own ((alike.stage? i).trans stage)

/-- Whose turn it was before makes no difference. -/
theorem reorder {turns : List Nat}
    (takes : { s with streamer.turns := turns }.TakesTurn i c handed t) :
    s.TakesTurn i c handed t := by
  have unmoved (same : { s with streamer.turns := turns }.Unmoved t) : s.Unmoved t :=
    same.reorder turns t.streamer.turns rfl rfl
  have halts (same : { s with streamer.turns := turns }.Halts t) : s.Halts t :=
    ⟨same.1, same.2.reorder turns t.streamer.turns rfl rfl⟩
  cases takes with
  | goesOn pending underway same => exact .goesOn pending underway (unmoved same)
  | hands pending first underway prepares =>
    exact .hands pending first underway
      (prepares.imp (fun h => ⟨h.1, halts h.2⟩) fun h => ⟨h.1, unmoved h.2⟩)
  | succeeds result => exact .succeeds result
  | fails result fits same => exact .fails result fits (unmoved same)
  | closed result pause first same => exact .closed result pause first (halts same)

end TakesTurn

theorem startJob_takesTurn (s : Session) (i : Nat) (program : String) :
    s.TakesTurn i (.start program) false (s.startJob i program) := by
  unfold startJob
  dsimp only
  split
  · exact .refuse (by simp)
  · split
    · exact .refuse (by simp)
    · split
      · exact .refuse (by simp)
      · refine .succeeds ((resultsOf_finish _ i (by simp)).trans ?_)
        congr 1
        exact resultsOf_congr (by simp [withTask, announce])

/-- A call hands its command over, or finds the link closed. -/
theorem sendControl_takesTurn {st : CallStage} {command : Realtime} {errand : Errand}
    (own : c.errand? = some errand) (stage : s.stage? i = some st) (calls : t.calls = s.calls)
    (results : t.results = s.results) (prepares : s.Prepares c t) :
    s.TakesTurn i c false (t.sendControl i command errand id) := by
  unfold sendControl
  split
  · show s.TakesTurn i c false (t.finish i (.jobError (.link .notConnected))).endTurn
    have result : (t.finish i (.jobError (.link .notConnected))).endTurn.resultsOf i
        = s.resultsOf i ++ [.jobError (.link .notConnected)] := by
      rw [resultsOf_finished t i (by simp), resultsOf_congr results]
    have finished {s' : Session} (unmoved : s'.Unmoved t) :
        s'.Unmoved (t.finish i (.jobError (.link .notConnected))).endTurn :=
      Unmoved.endTurn (t := t.finish i _) unmoved
    rcases prepares with ⟨pause, running, halts⟩ | ⟨other, unmoved⟩
    · exact .closed result pause rfl ⟨running, finished halts⟩
    · exact .fails result (fun pause => absurd pause other) (finished unmoved)
  · next x u posted =>
    have controlled := post?_controlled posted
    have streamer : u.streamer = t.streamer := congrArg Controlled.streamer controlled
    refine .hands (resultsOf_congr ?_) rfl (.sending own (x := x) ?_) ?_
    · exact (congrArg Controlled.results controlled).trans results
    · have before : u.stage? i = some st :=
        (stage?_congr ((congrArg Controlled.calls controlled).trans calls) i).trans stage
      rw [stage?_setStage, if_pos rfl, before]
      rfl
    · have reorder {s' : Session} (unmoved : s'.Unmoved t) :
          s'.Unmoved (u.setStage i (.sending x errand)) :=
        unmoved.reorder s'.streamer.turns t.streamer.turns rfl streamer
      exact prepares.imp (fun h => ⟨h.1, h.2.1, reorder h.2.2⟩) fun h => ⟨h.1, reorder h.2⟩

/-- What a call does when it has its turn at the job streamer. -/
theorem control_takesTurn {st : CallStage} (stage : s.stage? i = some st) (notStop : c ≠ .stop) :
    s.TakesTurn i c false (s.control i c) := by
  unfold control
  cases c with
  | start program => exact startJob_takesTurn s i program
  | pause =>
    dsimp only
    split
    · next running =>
      refine sendControl_takesTurn rfl stage (by simp) (by simp) (.inl ⟨rfl, running, ?_⟩)
      simp [Unmoved, paused, stateEvents, running]
    · exact .refuse (by simp)
  | resume =>
    dsimp only
    split
    · exact sendControl_takesTurn rfl stage rfl rfl (.inr ⟨by simp, .of_streamer rfl⟩)
    · exact .refuse (by simp)
  | stop => exact absurd rfl notStop

/-- **The turn of a call that starts, pauses or resumes a job.** -/
theorem callTurn_takesTurn (underway : s.Underway i c handed) (notStop : c ≠ .stop) :
    s.TakesTurn i c handed (s.callTurn i) := by
  cases underway with
  | begin stage =>
    have turn : s.callTurn i = s.takeTurn i c := by simp [callTurn, stage, beginCall]
    rw [turn]
    unfold takeTurn
    dsimp only
    split
    · exact (control_takesTurn (s := { s with streamer.turns := s.streamer.turns ++ [i] }) stage
        notStop).reorder
    · have queued : { s with streamer.turns := s.streamer.turns ++ [i] }.stage? i
          = some (.begin (.control c)) := stage
      refine .goesOn (resultsOf_congr rfl) (.turn ?_) rfl
      rw [stage?_setStage, if_pos rfl, queued]
      rfl
  | turn stage =>
    have turn : s.callTurn i
        = if s.streamer.turns.head? = some i then s.control i c else s := by
      simp [callTurn, stage]
    rw [turn]
    split
    · exact control_takesTurn stage notStop
    · exact .wait (.turn stage) (.refl s)
  | @sending x errand own stage =>
    cases told : s.link.delivery? x with
    | none =>
      have turn : s.callTurn i = s := by simp [callTurn, stage, told]
      exact turn.symm ▸ .wait (.sending own stage) (.refl s)
    | some d =>
      cases fails : d.error? with
      | some f =>
        have turn : s.callTurn i = s.failErrand i errand f := by
          simp [callTurn, stage, told, fails]
        rw [turn]
        cases c with
        | start program => exact absurd own (by simp [Control.errand?])
        | stop => exact absurd rfl notStop
        | pause | resume =>
          obtain rfl := Option.some.inj own
          exact .refuse (by simp)
      | none =>
        have turn : s.callTurn i = s.countErrand i x errand := by
          simp [callTurn, stage, told, fails]
        have notReset : errand.isReset = false := by
          cases c with
          | start program => exact absurd own (by simp [Control.errand?])
          | stop => exact absurd rfl notStop
          | pause | resume => obtain rfl := Option.some.inj own; rfl
        rw [turn, countErrand, if_neg (by simp [notReset])]
        refine .goesOn (resultsOf_congr rfl) (.counting own (x := x) ?_) (.of_streamer rfl)
        show (s.setStage i _).stage? i = _
        rw [stage?_setStage, if_pos rfl, stage]
        rfl
  | @counting x errand own stage =>
    have turn : s.callTurn i = s.use (.call i) .stats (·.countSent x) (·.doErrand i x errand) := by
      simp [callTurn, stage]
    rw [turn]
    rcases use_cases s (.call i) .stats (·.countSent x) (·.doErrand i x errand)
      with alike | ⟨u, alike, same⟩
    · exact .wait (.counting own stage) alike
    · rw [same]
      have results : ((u.countSent x).leave .stats).results = s.results :=
        (alike_leave _ _).2.2.2.2.2.2.trans
          ((countSent_results u x).trans alike.2.2.2.2.2.2)
      cases c with
      | start program => exact absurd own (by simp [Control.errand?])
      | stop => exact absurd rfl notStop
      | pause =>
        obtain rfl := Option.some.inj own
        exact .done results
      | resume =>
        obtain rfl := Option.some.inj own
        have resumed (u : Session) :
            ((u.setState .running).wakeAll (u.setState .running).watchingTask).results
              = u.results := by simp
        exact .done ((resumed _).trans results)

/-! ## Whole runs -/

/-- A call that has begun goes on while others act. -/
theorem Underway.aside (underway : s.Underway i c handed) (other : e ≠ .act (.call i)) :
    (s.next e).Underway i c handed := by
  cases underway with
  | begin stage => exact .begin (stage?_next s other stage)
  | turn stage => exact .turn (stage?_next s other stage)
  | sending own stage => exact .sending own (stage?_next s other stage)
  | counting own stage => exact .counting own (stage?_next s other stage)

/-- **What the turns of a call have done so far**: whether they have paused the job. -/
def Left (c : Control) (halted : Prop) (turns : List (Session × Session)) : Prop :=
  c = .pause ∧ halted ∧ HaltsOnce turns ∨ ¬ (c = .pause ∧ halted) ∧ Untouched turns

theorem Left.concat {halted : Prop} (left : Left c halted turns) (unmoved : s.Unmoved t) :
    Left c halted (turns ++ [(s, t)]) :=
  left.imp (fun h => ⟨h.1, h.2.1, h.2.2.concat unmoved⟩) fun h => ⟨h.1, h.2.concat unmoved⟩

theorem Left.untouched (left : Left c (handed = true) turns) (first : handed = false) :
    Untouched turns := by
  rcases left with ⟨-, late, -⟩ | ⟨-, untouched⟩
  · exact absurd (first.symm.trans late) (by simp)
  · exact untouched

/-- **A call that has not returned** has paused the job if it is a pause that has handed its command
over, and has left the job streamer as it was otherwise. -/
theorem underway_after (new : s.stage? i = none) (notStop : c ≠ .stop) (fs : List Event)
    (pending : (s.after (.call i (.control c) :: fs)).resultsOf i = s.resultsOf i) :
    ∃ handed, (s.after (.call i (.control c) :: fs)).Underway i c handed ∧
      Left c (handed = true) (s.turnsOf i (.call i (.control c) :: fs)) := by
  induction fs using List.reverseRecOn with
  | nil =>
    have none : s.turnsOf i [.call i (.control c)] = [] := by simp [turnsOf, history]
    refine ⟨false, .begin ?_, ?_⟩
    · have opened : s.next (.call i (.control c)) = s.begin i (.call (.control c)) := by
        simp [Session.next, new]
      rw [after_cons, after_nil, opened]
      exact ((alike_wake _ _).stage? i).trans ((stage?_added new _ i).trans (if_pos rfl))
    · rw [none]
      exact .inr ⟨by simp, fun _ member => absurd member (by simp)⟩
  | append_singleton fs e ih =>
    rw [← List.cons_append] at pending ⊢
    generalize Event.call i (.control c) :: fs = es at ih pending ⊢
    have last : s.after (es ++ [e]) = (s.after es).next e := after_append s es [e]
    rw [last] at pending ⊢
    have same : (s.after es).resultsOf i = s.resultsOf i := by
      have later := resultsOf_kept (s.after es) e i
      rw [pending] at later
      exact later.eq_of_length_le (resultsOf_kept_after s es i).length_le
    obtain ⟨handed, underway, left⟩ := ih same
    by_cases own : e = .act (.call i)
    · subst own
      rw [turnsOf_own]
      have returned {r : Result} (result : ((s.after es).callTurn i).resultsOf i
          = (s.after es).resultsOf i ++ [r]) : False := by
        have unchanged : ((s.after es).callTurn i).resultsOf i = s.resultsOf i := pending
        rw [result, same] at unchanged
        exact absurd unchanged (by simp)
      cases callTurn_takesTurn underway notStop with
      | goesOn _ underway unmoved => exact ⟨handed, underway, left.concat unmoved⟩
      | hands _ first underway prepares =>
        have before := left.untouched first
        refine ⟨true, underway, ?_⟩
        rcases prepares with ⟨pause, halts⟩ | ⟨other, unmoved⟩
        · exact .inl ⟨pause, rfl, before.halts halts⟩
        · exact .inr ⟨fun h => other h.1, before.concat unmoved⟩
      | succeeds result | fails result | closed result => exact (returned result).elim
    · rw [turnsOf_other own]
      exact ⟨handed, underway.aside own, left⟩

/-- What a call has done when it returns an error. -/
theorem left_of_refused (new : s.stage? i = none) (notStop : c ≠ .stop) (fs : List Event)
    (e : Event) (pending : (s.after (.call i (.control c) :: fs)).resultsOf i = s.resultsOf i)
    {r : JobError} (refused : (s.after (.call i (.control c) :: fs ++ [e])).resultsOf i
      = s.resultsOf i ++ [.jobError r]) :
    Left c (∃ f, r = .link f) (s.turnsOf i (.call i (.control c) :: fs ++ [e])) := by
  obtain ⟨handed, underway, left⟩ := underway_after new notStop fs pending
  generalize Event.call i (.control c) :: fs = es at pending refused underway left ⊢
  have last : s.after (es ++ [e]) = (s.after es).next e := after_append s es [e]
  rw [last, ← pending] at refused
  have own : e = .act (.call i) := by
    by_contra other
    rw [resultsOf_next _ other] at refused
    exact absurd refused (by simp)
  subst own
  have refused : ((s.after es).callTurn i).resultsOf i
      = (s.after es).resultsOf i ++ [.jobError r] := refused
  have returned {r' : Result} (result : ((s.after es).callTurn i).resultsOf i
      = (s.after es).resultsOf i ++ [r']) : r' = .jobError r := by
    simpa using List.append_cancel_left (result.symm.trans refused)
  rw [turnsOf_own]
  cases callTurn_takesTurn underway notStop with
  | goesOn still | hands still =>
    rw [still] at refused
    exact absurd refused (by simp)
  | succeeds result => exact absurd (returned result) (by simp)
  | fails result fits unmoved =>
    obtain rfl := Result.jobError.inj (returned result)
    refine Left.concat ?_ unmoved
    exact left.imp (fun h => ⟨h.1, (fits h.1).mp h.2.1, h.2.2⟩)
      fun h => ⟨fun link => h.1 ⟨link.1, (fits link.1).mpr link.2⟩, h.2⟩
  | closed result pause first halts =>
    obtain rfl := Result.jobError.inj (returned result)
    exact .inl ⟨pause, ⟨_, rfl⟩, (left.untouched first).halts halts⟩

/-- **What a call that starts, pauses or resumes a job leaves behind when it returns an error**: its
turns left the job streamer as it was – the state, the job, the progress and the published events –
exactly if it was not a pause that failed because of the link. Such a pause has paused the job. -/
theorem untouched_iff_of_refused (s : Session) {i : Nat} {c : Control} (new : s.stage? i = none)
    (notStop : c ≠ .stop) (fs : List Event) (e : Event)
    (pending : (s.after (.call i (.control c) :: fs)).resultsOf i = s.resultsOf i) {r : JobError}
    (refused : (s.after (.call i (.control c) :: fs ++ [e])).resultsOf i
      = s.resultsOf i ++ [.jobError r]) :
    let turns := s.turnsOf i (.call i (.control c) :: fs ++ [e])
    (Untouched turns ↔ ¬ (c = .pause ∧ ∃ f, r = .link f)) ∧
      (c = .pause → (∃ f, r = .link f) → HaltsOnce turns) := by
  rcases left_of_refused new notStop fs e pending refused with ⟨pause, link, once⟩ | ⟨other, all⟩
  · exact ⟨iff_of_false once.not_untouched (by simp [pause, link]), fun _ _ => once⟩
  · exact ⟨iff_of_true all other, fun pause link => absurd ⟨pause, link⟩ other⟩

/-- A job of two lines, the first of which went over the wire, on a device that fails the next
write. -/
def heldBack : List Event :=
  Event.swift 0 (.connect "/dev/mock0" none) ++
    Event.swift 1 (.control (.start "G1 X10\nG1 X20")) ++
    .act (.job 0) :: List.replicate 3 (.act .writer) ++ [.act (.job 0), .device 2 (.failWrites 1)]

/-- The same when the job is paused. -/
def heldBackPaused : List Event :=
  heldBack.dropLast ++ Event.swift 2 (.control .pause) ++ List.replicate 2 (.act .writer) ++
    List.replicate 2 (.act (.call 2)) ++ [.device 3 (.failWrites 1)]

/-- A call hands its command over, and the writer tries to write it. -/
def unsent (i : Nat) : List Event := [.act (.call i), .act .writer, .act .writer]

/-- A resume whose command is not written leaves the job paused. -/
theorem untouched_unsentResume :
    let s := (initial none).after heldBackPaused
    s.streamer.state = .paused ∧
      Untouched (s.turnsOf 4 (.call 4 (.control .resume) :: unsent 4 ++ [.act (.call 4)])) := by
  have refused := untouched_iff_of_refused ((initial none).after heldBackPaused) (i := 4)
    (c := .resume) (by decide +kernel) (by decide) (unsent 4) (.act (.call 4))
    (by decide +kernel) (r := .link (.transfer "write fault")) (by decide +kernel)
  exact ⟨by decide +kernel, refused.1.mpr (by simp)⟩

/-- A pause whose command is not written returns the error and has paused the job. -/
theorem halted_unsentPause :
    let s := (initial none).after heldBack
    let es := .call 3 (.control .pause) :: unsent 3 ++ [.act (.call 3)]
    s.stage? 3 = none ∧ s.streamer.state = .running ∧
      (s.after es).resultsOf 3
        = s.resultsOf 3 ++ [.jobError (.link (.transfer "write fault"))] ∧
      (s.after es).streamer.state = .paused ∧
      (s.after es).streamer.events.log = s.streamer.events.log ++ [.state .paused] ∧
      ¬ Untouched (s.turnsOf 3 es) := by
  decide +kernel

end Session

end Cnc
