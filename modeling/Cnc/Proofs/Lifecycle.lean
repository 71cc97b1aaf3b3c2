import Cnc.Proofs.Streaming

/-!
# The life of a call

A call begins, waits for its turn if it controls a job, hands its payload
over, learns that it was sent, counts it, and finishes its errand; some calls
then wait for something else. `CallStage.Follows` says what can come next, and
no turn takes a call anywhere else (`Session.callTurn_goesOn`). A call is at
its beginning only if it was there all the time.
-/

namespace Cnc

/-- Whether an errand is that of a call. -/
def Errand.fits : Errand → Call → Bool
  | .report, .write _ | .reportAnswer, .writeAcked _ => true
  | .realtime command, .realtime command' => command = command'
  | .pause, .control .pause | .resume, .control .resume | .stop, .control .stop => true
  | .setting _ none, .writeSetting .. | .setting _ (some _), .confirmSetting .. => true
  | _, _ => false

/-- **What can come next for a call** that does not give its last result. -/
inductive CallStage.Follows : CallStage → CallStage → Prop
  | stay (st : CallStage) : Follows st st
  | queue (c : Control) : Follows (.begin (.control c)) (.turn c)
  | send {c : Call} (x : Nat) {e : Errand} (fits : e.fits c = true) :
    Follows (.begin c) (.sending x e)
  | steer {c : Control} (x : Nat) {e : Errand} (fits : e.fits (.control c) = true) :
    Follows (.turn c) (.sending x e)
  | count (x : Nat) (e : Errand) : Follows (.sending x e) (.counting x e)
  | answer (x : Nat) : Follows (.counting x .reportAnswer) (.awaitingAnswer x)
  | idle : Follows (.begin .wait) .awaitingIdle
  | confirm (x delay deadline : Nat) (c : Confirmation) :
    Follows (.counting x (.setting delay (some c))) (.confirming c.key c.subscription deadline)
  | lookUp (key : String) (sub deadline : Nat) :
    Follows (.confirming key sub deadline) (.lookingUp key)

namespace CallStage.Follows

variable {st st' : CallStage}

/-- Nothing leads to the beginning of a call. -/
theorem begin_iff {c : Call} (follows : st.Follows st') (begins : st' = .begin c) :
    st = .begin c := by
  cases follows <;> simp_all

end CallStage.Follows

namespace Session

/-- **Where the call `i` goes on from a stage**, if it does. -/
def GoesOn (i : Nat) (st : CallStage) (t : Session) : Prop :=
  ∀ st', t.stage? i = some st' → st.Follows st'

variable {s t : Session} {i : Nat} {st : CallStage}

namespace GoesOn

theorem finish (t : Session) (r : Result) : GoesOn i st (t.finish i r) := by
  intro st' stage
  rw [stage?_finish, if_pos rfl] at stage
  exact absurd stage (by simp)

theorem congr {u : Session} (goes : GoesOn i st t) (calls : u.calls = t.calls) : GoesOn i st u := by
  intro st' stage
  exact goes st' ((stage?_congr calls i).symm.trans stage)

theorem finished (t : Session) (r : Result) : GoesOn i st (t.finish i r).endTurn :=
  (finish t r).congr (alike_endTurn _).2.2.2.1

theorem setStage (t : Session) {new : CallStage} (follows : st.Follows new) :
    GoesOn i st (t.setStage i new) := by
  intro st' stage
  rw [stage?_setStage, if_pos rfl] at stage
  obtain ⟨-, -, rfl⟩ := Option.map_eq_some_iff.mp stage
  exact follows

/-- The call stays where it is. -/
theorem stay (stage : s.stage? i = some st) (calls : t.calls = s.calls) : GoesOn i st t := by
  intro st' stage'
  obtain rfl := Option.some.inj (stage.symm.trans ((stage?_congr calls i).symm.trans stage'))
  exact .stay st

/-- Using a guarded part: the call stays where it is, or gets through. -/
theorem use {g : Guarded} {inside after : Session → Session} (stage : s.stage? i = some st)
    (through : ∀ u, GoesOn i st (after u)) : GoesOn i st (s.use (.call i) g inside after) := by
  rcases use_cases s (.call i) g inside after with alike | ⟨u, -, same⟩
  · exact .stay stage alike.2.2.2.1
  · exact same ▸ through _

end GoesOn

theorem send_goesOn {c : Call} {e : Errand} (p : Payload) (fits : e.fits c = true) :
    GoesOn i (.begin c) (s.send i p e) := by
  unfold send
  split
  · exact .finish _ _
  · exact .setStage _ (.send _ fits)

theorem sendControl_goesOn {command : Realtime} {e : Errand} {closed : Session → Session}
    (follows : ∀ x, st.Follows (.sending x e)) :
    GoesOn i st (s.sendControl i command e closed) := by
  unfold sendControl
  split
  · exact .finished _ _
  · exact .setStage _ (follows _)

theorem control_goesOn {c : Control}
    (follows : ∀ x e, Errand.fits e (.control c) = true → st.Follows (.sending x e)) :
    GoesOn i st (s.control i c) := by
  unfold control
  cases c with
  | start program =>
    dsimp only [startJob]
    split
    · exact .finished _ _
    · split
      · exact .finished _ _
      · split
        · exact .finished _ _
        · exact .finish _ _
  | _ =>
    dsimp only
    split
    · exact sendControl_goesOn fun x => follows x _ rfl
    · exact .finished _ _

theorem beginCall_goesOn {c : Call} : GoesOn i (.begin c) (s.beginCall i c) := by
  unfold beginCall
  cases c with
  | connect port refusal =>
    dsimp only [connect]
    split
    · exact .finish _ _
    · split <;> exact .finish _ _
  | write line => exact send_goesOn _ rfl
  | writeAcked line => exact send_goesOn _ rfl
  | realtime command => exact send_goesOn _ (by simp [Errand.fits])
  | control c =>
    dsimp only [takeTurn]
    split
    · exact control_goesOn fun x e fits => .send x fits
    · exact .setStage _ (.queue c)
  | wait =>
    dsimp only
    split
    · exact .finish _ _
    · exact .setStage _ .idle
  | poll interval =>
    dsimp only [addPoller]
    split
    · exact .finish _ _
    · split <;> exact .finish _ _
  | writeSetting id value delay => exact send_goesOn _ rfl
  | confirmSetting id value delay timeout =>
    dsimp only [beginConfirmation]
    split
    · exact .finish _ _
    · exact .setStage _ (.send _ rfl)
  | disconnect | settings | resetSettings | jobLines | ports => exact .finish _ _

theorem failErrand_goesOn (e : Errand) (f : LinkError) : GoesOn i st (s.failErrand i e f) := by
  unfold failErrand
  cases e with
  | pause | resume | stop => exact .finished _ _
  | _ => exact .finish _ _

theorem doErrand_goesOn {x : Nat} {e : Errand} : GoesOn i (.counting x e) (s.doErrand i x e) := by
  unfold doErrand
  cases e with
  | report | realtime => exact .finish _ _
  | reportAnswer => exact (GoesOn.setStage _ (.answer x)).congr rfl
  | pause | resume | stop => exact .finished _ _
  | setting delay confirmation =>
    cases confirmation with
    | none => exact .finish _ _
    | some c => exact (GoesOn.setStage _ (.confirm x delay _ c)).congr rfl

/-- **A turn takes a call to what can come next.** -/
theorem callTurn_goesOn (stage : s.stage? i = some st) : GoesOn i st (s.callTurn i) := by
  have stay : GoesOn i st s := .stay stage rfl
  unfold callTurn
  rw [stage]
  cases st with
  | begin c => exact beginCall_goesOn
  | turn c =>
    dsimp only
    split
    · exact control_goesOn fun x e fits => .steer x fits
    · exact stay
  | sending x e =>
    dsimp only
    split
    · exact stay
    · split
      · exact failErrand_goesOn e _
      · unfold countErrand
        dsimp only
        split
        · exact .use stage fun u => (GoesOn.setStage u (.count x e)).congr rfl
        · exact (GoesOn.setStage _ (.count x e)).congr rfl
  | counting x e => exact .use stage fun u => doErrand_goesOn
  | awaitingAnswer x =>
    dsimp only
    split
    · exact stay
    · exact .finish _ _
    · exact .finish _ _
  | awaitingIdle =>
    dsimp only
    split
    · exact .finish _ _
    · exact stay
  | confirming key sub deadline =>
    dsimp only [confirmTurn]
    split
    · split
      · exact .finish _ _
      · exact .stay stage rfl
    · split
      · split
        · exact .finish _ _
        · exact stay
      · split
        · exact .stay stage rfl
        · exact (GoesOn.setStage _ (.lookUp key sub deadline)).congr rfl
        · exact .finish _ _
  | lookingUp key => exact .use stage fun u => .finish _ _

/-- **What a call is doing follows what it did**, or it has just begun. -/
theorem next_follows (s : Session) (e : Event) {i : Nat} {st' : CallStage}
    (stage' : (s.next e).stage? i = some st') :
    (∃ st, s.stage? i = some st ∧ st.Follows st') ∨
      (∃ c, e = .call i c ∧ s.stage? i = none ∧ st' = .begin c) := by
  have same {t : Session} (calls : t.calls = s.calls) (stage' : t.stage? i = some st') :
      ∃ st, s.stage? i = some st ∧ st.Follows st' :=
    ⟨st', (stage?_congr calls i).symm.trans stage', .stay st'⟩
  by_cases own : e = .act (.call i)
  · subst own
    cases stage : s.stage? i with
    | none =>
      have gone : s.next (.act (.call i)) = s := by
        show s.callTurn i = s
        simp [callTurn, stage]
      rw [gone, stage] at stage'
      exact absurd stage' (by simp)
    | some st => exact .inl ⟨st, rfl, callTurn_goesOn stage st' stage'⟩
  · have steps := next_steps s e
    generalize s.next e = t at steps stage'
    cases steps with
    | call handles =>
      have other : i ≠ _ := fun same => own (by rw [same])
      exact .inl ⟨st', (handles.2 i other).symm.trans stage', .stay st'⟩
    | stream task streams calls => exact .inl (same calls stage')
    | gone => exact .inl (same rfl stage')
    | @begin j c _ new begun others =>
      by_cases here : i = j
      · subst here
        exact .inr ⟨c, rfl, new, Option.some.inj (stage'.symm.trans begun)⟩
      · exact .inl ⟨st', (others i here).symm.trans stage', .stay st'⟩
    | aside notJob calls => exact .inl (same calls stage')

end Session

end Cnc
