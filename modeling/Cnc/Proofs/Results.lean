import Cnc.Proofs.ClosedLink
import Cnc.Proofs.Writing

/-!
# The results of calls

A call gives its results itself, in its own turns, and nobody gives a result
for another (`Session.resultsOf_next`).
-/

namespace Cnc

namespace Session

open Traffic

variable {s t : Session} {e : Event} {i : Nat}

theorem post?_results {a : Actor} {p : Payload} {x : Nat} (posted : s.post? a p = some (x, t)) :
    t.results = s.results :=
  congrArg Controlled.results (post?_controlled posted)

theorem countSent_results (s : Session) (x : Nat) : (s.countSent x).results = s.results :=
  congrArg Controlled.results (countSent_controlled s x)

/-! ## The turn of a call -/

/-- **Only results of the call `i` were given.** -/
def Adds (s : Session) (i : Nat) (t : Session) : Prop :=
  ∃ new : List Result, t.results = s.results ++ new.map fun r => (i, r)

namespace Adds

/-- No result was given. -/
theorem nothing (same : t.results = s.results) : s.Adds i t := ⟨[], by simp [same]⟩

theorem give (same : t.results = s.results) (r : Result) : s.Adds i (t.give i r) :=
  ⟨[r], by simp [Session.give, same]⟩

theorem finish (same : t.results = s.results) (r : Result) : s.Adds i (t.finish i r) :=
  give same r

theorem finished (same : t.results = s.results) (r : Result) : s.Adds i (t.finish i r).endTurn := by
  obtain ⟨new, added⟩ := Adds.finish (i := i) same r
  exact ⟨new, (alike_endTurn _).2.2.2.2.2.2.trans added⟩

theorem congr {u : Session} (adds : s.Adds i t) (same : u.results = t.results) : s.Adds i u := by
  obtain ⟨new, added⟩ := adds
  exact ⟨new, same.trans added⟩

/-- What was done before gave no result. -/
theorem after {u : Session} (adds : t.Adds i u) (same : t.results = s.results) : s.Adds i u := by
  obtain ⟨new, added⟩ := adds
  exact ⟨new, by rw [added, same]⟩

/-- Using a guarded part: the call waits for it, or gets through. -/
theorem use {a : Actor} {g : Guarded} {inside after : Session → Session}
    (within : ∀ u, (inside u).results = u.results) (through : ∀ u : Session, u.Adds i (after u)) :
    s.Adds i (s.use a g inside after) := by
  rcases use_cases s a g inside after with alike | ⟨u, alike, same⟩
  · exact nothing alike.2.2.2.2.2.2
  · rw [same]
    refine (through _).after ?_
    exact (alike_leave _ g).2.2.2.2.2.2.trans ((within u).trans alike.2.2.2.2.2.2)

end Adds

theorem send_adds (p : Payload) (errand : Errand) : s.Adds i (s.send i p errand) := by
  unfold send
  split
  · exact Adds.finish rfl _
  · next posted => exact Adds.nothing (post?_results posted :)

theorem sendControl_adds (same : t.results = s.results) (command : Realtime)
    (errand : Errand) {closed : Session → Session} (kept : (closed t).results = t.results) :
    s.Adds i (t.sendControl i command errand closed) := by
  unfold sendControl
  split
  · exact Adds.finished (kept.trans same) _
  · next posted => exact Adds.nothing ((post?_results posted).trans same)

theorem startJob_adds (program : String) : s.Adds i (s.startJob i program) := by
  unfold startJob
  dsimp only
  split
  · exact Adds.finished rfl _
  · split
    · exact Adds.finished rfl _
    · split
      · exact Adds.finished rfl _
      · exact Adds.finish (by simp [announce, withTask]) _

theorem control_adds (c : Control) : s.Adds i (s.control i c) := by
  unfold control
  cases c with
  | start program => exact startJob_adds program
  | pause =>
    dsimp only
    split
    · exact sendControl_adds (by simp) _ _ rfl
    · exact Adds.finished rfl _
  | resume =>
    dsimp only
    split
    · exact sendControl_adds rfl _ _ rfl
    · exact Adds.finished rfl _
  | stop =>
    dsimp only
    split
    · exact sendControl_adds (by simp) _ _ (by simp)
    · exact Adds.finished rfl _

theorem connect_adds (port : String) (refusal : Option DeviceFault) :
    s.Adds i (s.connect i port refusal) := by
  unfold connect
  split
  · exact Adds.finish rfl _
  · split
    · exact Adds.finish (by simp) _
    · exact Adds.finish (by simp) _

theorem beginCall_adds (c : Call) : s.Adds i (s.beginCall i c) := by
  unfold beginCall
  cases c with
  | connect port refusal => exact connect_adds port refusal
  | disconnect => exact Adds.finish (congrArg Controlled.results (endConnection_controlled s)) _
  | write | writeAcked | realtime | writeSetting => exact send_adds _ _
  | control c =>
    dsimp only [takeTurn]
    split
    · exact (control_adds c).after rfl
    · exact Adds.nothing rfl
  | wait =>
    dsimp only
    split
    · exact Adds.finish rfl _
    · exact Adds.nothing rfl
  | poll interval =>
    dsimp only [addPoller]
    split
    · exact Adds.finish rfl _
    · split
      · exact Adds.finish rfl _
      · exact Adds.finish (by simp [withConnection]) _
  | confirmSetting id value delay timeout =>
    dsimp only [beginConfirmation]
    split
    · exact Adds.finish rfl _
    · next posted => exact Adds.nothing (post?_results posted :)
  | settings | resetSettings | jobLines | ports => exact Adds.finish rfl _

theorem failErrand_adds (errand : Errand) (f : LinkError) : s.Adds i (s.failErrand i errand f) := by
  unfold failErrand
  cases errand with
  | report | reportAnswer | realtime => exact Adds.finish rfl _
  | pause | resume => exact Adds.finished rfl _
  | stop => exact Adds.finished (by simp) _
  | setting delay confirmation => cases confirmation <;> exact Adds.finish rfl _

theorem doErrand_adds (x : Nat) (errand : Errand) : s.Adds i (s.doErrand i x errand) := by
  unfold doErrand
  cases errand with
  | report | realtime => exact Adds.finish rfl _
  | reportAnswer => exact (Adds.give rfl .sent).congr rfl
  | pause => exact Adds.finished rfl _
  | resume => exact Adds.finished (by simp) _
  | stop => exact Adds.finished (by simp) _
  | setting delay confirmation =>
    cases confirmation with
    | none => exact Adds.finish (by simp [spawnRefresher]) _
    | some c => exact Adds.nothing (by simp [spawnRefresher, setStage])

theorem callTurn_adds : s.Adds i (s.callTurn i) := by
  unfold callTurn
  split
  · exact Adds.nothing rfl
  · exact beginCall_adds _
  · split
    · exact control_adds _
    · exact Adds.nothing rfl
  · split
    · exact Adds.nothing rfl
    · split
      · exact failErrand_adds _ _
      · unfold countErrand
        dsimp only
        split
        · exact Adds.use (fun u => congrArg Controlled.results (dropAnswers_controlled u))
            fun u => Adds.nothing rfl
        · exact Adds.nothing rfl
  · exact Adds.use (fun u => countSent_results u _) fun u => doErrand_adds _ _
  · split
    · exact Adds.nothing rfl
    · exact Adds.finish rfl _
    · exact Adds.finish rfl _
  · split
    · exact Adds.finish rfl _
    · exact Adds.nothing rfl
  · unfold confirmTurn
    dsimp only
    split
    · split
      · exact Adds.finish rfl _
      · exact Adds.nothing rfl
    · split
      · split
        · exact Adds.finish rfl _
        · exact Adds.nothing rfl
      · split
        · exact Adds.nothing rfl
        · exact Adds.nothing rfl
        · exact Adds.finish rfl _
  · exact Adds.use (fun u => rfl) fun u => Adds.finish rfl _

/-! ## Every event -/

/-- **What an event gives** are results of the call that acts. A device step on a link that was
never opened is told so. -/
theorem next_results (s : Session) (e : Event) :
    ∃ new, (s.next e).results = s.results ++ new ∧
      ∀ r ∈ new, e = .act (.call r.1) ∨ r.2 = .noDevice := by
  have aside {t : Session} (same : t.results = s.results) :
      ∃ new, t.results = s.results ++ new ∧ ∀ r ∈ new, e = .act (.call r.1) ∨ r.2 = .noDevice :=
    ⟨[], by simp [same], by simp⟩
  cases e with
  | schedule | elapse | observe => exact aside rfl
  | act a =>
    cases a with
    | call i =>
      obtain ⟨new, added⟩ := callTurn_adds (s := s) (i := i)
      refine ⟨_, added, fun r hr => .inl ?_⟩
      obtain ⟨r, -, rfl⟩ := List.mem_map.mp hr
      rfl
    | job n =>
      refine aside ?_
      show (s.jobTurn n).results = _
      unfold jobTurn
      split
      · exact (taskTurn_aside s _).2
      · rfl
    | poller n => exact aside (congrArg Controlled.results (pollerTurn_controlled s n))
    | refresher n => exact aside (congrArg Controlled.results (refresherTurn_controlled s n))
    | writer => exact aside (congrArg Controlled.results (writerTurn_controlled s))
    | reader => exact aside (congrArg Controlled.results (readerTurn_controlled s))
  | call j c =>
    refine aside ?_
    show (if _ then _ else _ : Session).results = _
    split
    · rfl
    · simp [begin]
  | device j d =>
    show ∃ new, (if s.link.opened = 0 then s.give j .noDevice else s.deviceAct d).results = _ ∧ _
    split
    · exact ⟨[(j, .noDevice)], rfl, by simp⟩
    · refine aside ?_
      unfold deviceAct
      split
      · rfl
      · cases d <;> simp [withConnection]

/-- **What the call `i` has given.** -/
def resultsOf (s : Session) (i : Nat) : List Result :=
  (s.results.filter fun r => r.1 = i ∧ r.2 ≠ .noDevice).map (·.2)

theorem resultsOf_congr (same : t.results = s.results) : t.resultsOf i = s.resultsOf i := by
  rw [resultsOf, same, resultsOf]

theorem resultsOf_give (s : Session) (i : Nat) {r : Result} (real : r ≠ .noDevice) :
    (s.give i r).resultsOf i = s.resultsOf i ++ [r] := by
  simp [resultsOf, give, real]

theorem resultsOf_finish (s : Session) (i : Nat) {r : Result} (real : r ≠ .noDevice) :
    (s.finish i r).resultsOf i = s.resultsOf i ++ [r] :=
  (resultsOf_congr rfl).trans (resultsOf_give s i real)

/-- A call gives its results in its own turns. -/
theorem resultsOf_next (s : Session) (other : e ≠ .act (.call i)) :
    (s.next e).resultsOf i = s.resultsOf i := by
  obtain ⟨new, added, own⟩ := next_results s e
  have none : new.filter (fun r => r.1 = i ∧ r.2 ≠ .noDevice) = [] := by
    refine List.filter_eq_nil_iff.mpr fun r hr mine => ?_
    obtain ⟨rfl, real⟩ := of_decide_eq_true mine
    rcases own r hr with act | noDevice
    · exact other act
    · exact real noDevice
  rw [resultsOf, added, List.filter_append, none, List.append_nil, resultsOf]

/-- No result is taken back. -/
theorem resultsOf_kept (s : Session) (e : Event) (i : Nat) :
    s.resultsOf i <+: (s.next e).resultsOf i := by
  obtain ⟨new, added, -⟩ := next_results s e
  rw [resultsOf, resultsOf, added, List.filter_append, List.map_append]
  exact List.prefix_append _ _

theorem resultsOf_kept_after (s : Session) (es : List Event) (i : Nat) :
    s.resultsOf i <+: (s.after es).resultsOf i :=
  after_induction (P := fun t => s.resultsOf i <+: t.resultsOf i) List.prefix_rfl
    (fun t e before => before.trans (resultsOf_kept t e i)) es

end Session

end Cnc
