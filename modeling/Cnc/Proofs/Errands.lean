import Cnc.Proofs.Filing
import Cnc.Proofs.Streaming

/-!
# What a call waits for

A call that waits to know what became of a payload has handed that payload
over itself, and the payload is the one that its errand is about
(`Session.carrying_after`). So a call that is about to give up all answers has
posted a soft reset.
-/

namespace Cnc

open Traffic

/-- Whether the post with a ticket is one that the call `i` handed over for an errand. -/
def Traffic.Carries (t : Traffic) (i x : Nat) (e : Errand) : Prop :=
  ∃ c p, t.origin? x = some (c, .call i, p) ∧ ∀ q, e.payload? = some q → p = q

namespace Session

/-- **What the call `i` waits for after a turn** is what it waited for before, or a payload that it
has just handed over. -/
def Sends (s : Session) (i : Nat) (t : Session) : Prop :=
  ∀ x e, t.stage? i = some (.sending x e) → s.stage? i = some (.sending x e) ∨
    (x = s.link.posts.length ∧ ∃ p, (∀ q, e.payload? = some q → p = q) ∧
      Move s.link.traffic (.post (.call i) p) t.link.traffic)

namespace Sends

variable {s t u : Session} {i : Nat}

/-- The call does not wait for a payload. -/
theorem of_stage (h : ∀ x e, t.stage? i ≠ some (.sending x e)) : s.Sends i t :=
  fun x e stage => absurd stage (h x e)

/-- The call waits for what it waited for before. -/
theorem wait (calls : t.calls = s.calls) : s.Sends i t := by
  intro x e stage
  exact .inl (by rwa [stage?_congr calls] at stage)

/-- The call waits for something else than a payload. -/
theorem setStage {st : CallStage} (other : ∀ x e, st ≠ .sending x e) :
    s.Sends i (t.setStage i st) := by
  refine of_stage fun x e => ?_
  rw [stage?_setStage, if_pos rfl]
  cases t.stage? i with
  | none => exact nofun
  | some _ => exact fun same => other x e (Option.some.inj same)

theorem finish (r : Result) : s.Sends i (t.finish i r) := by
  refine of_stage fun x e => ?_
  rw [stage?_finish, if_pos rfl]
  exact nofun

/-- What is done afterwards concerns neither the calls nor the traffic. -/
theorem congr (h : s.Sends i t) (calls : u.calls = t.calls)
    (same : u.link.traffic = t.link.traffic) : s.Sends i u := by
  intro x e stage
  rw [stage?_congr calls] at stage
  rw [same]
  exact h x e stage

theorem finished (r : Result) : s.Sends i (t.finish i r).endTurn :=
  (finish r).congr (alike_endTurn _).2.2.2.1 (congrArg Link.traffic (alike_endTurn _).2.1)

/-- The call waits for a payload that it has just handed over. -/
theorem post {p : Payload} {x : Nat} {e : Errand} (posted : t.post? (.call i) p = some (x, u))
    (same : t.link.traffic = s.link.traffic) (own : ∀ q, e.payload? = some q → p = q) :
    s.Sends i (u.setStage i (.sending x e)) := by
  obtain ⟨ticket, move⟩ := post?_move posted
  intro y f stage
  rw [stage?_setStage, if_pos rfl] at stage
  cases before : u.stage? i with
  | none => exact absurd stage (by simp [before])
  | some st =>
    obtain ⟨rfl, rfl⟩ : x = y ∧ e = f := by simpa [before] using stage
    have length : t.link.posts.length = s.link.posts.length :=
      congrArg (fun v => v.posts.length) same
    exact .inr ⟨by rw [ticket, length], p, own, same ▸ move⟩

end Sends

theorem send_sends (s : Session) (i : Nat) (p : Payload) (e : Errand)
    (own : ∀ q, e.payload? = some q → p = q) : s.Sends i (s.send i p e) := by
  unfold send
  split
  · exact .finish _
  · next posted => exact .post posted rfl own

theorem sendControl_sends {s t : Session} {i : Nat} {command : Realtime} {e : Errand}
    {closed : Session → Session} (same : t.link.traffic = s.link.traffic)
    (own : e.payload? = some (.realtime command)) :
    s.Sends i (t.sendControl i command e closed) := by
  unfold sendControl
  split
  · exact .finished _
  · next posted => exact .post posted same fun q hq => Option.some.inj (own.symm.trans hq)

theorem control_sends {s t : Session} {i : Nat} (c : Control)
    (same : t.link.traffic = s.link.traffic) : s.Sends i (t.control i c) := by
  unfold control
  cases c with
  | start program =>
    dsimp only
    unfold startJob
    dsimp only
    split
    · exact .finished _
    · split
      · exact .finished _
      · split
        · exact .finished _
        · exact .finish _
  | pause =>
    dsimp only
    split
    · exact sendControl_sends (by simpa [Link.traffic] using same) rfl
    · exact .finished _
  | resume =>
    dsimp only
    split
    · exact sendControl_sends same rfl
    · exact .finished _
  | stop =>
    dsimp only
    split
    · exact sendControl_sends (by simpa [Link.traffic] using same) rfl
    · exact .finished _

theorem beginCall_sends (s : Session) (i : Nat) (c : Call) : s.Sends i (s.beginCall i c) := by
  unfold beginCall
  cases c with
  | connect port refusal =>
    dsimp only [connect]
    split
    · exact .finish _
    · split
      · exact .finish _
      · exact .finish _
  | control c =>
    dsimp only [takeTurn]
    split
    · exact control_sends c rfl
    · exact .setStage (by simp)
  | wait =>
    dsimp only
    split
    · exact .finish _
    · exact .setStage (by simp)
  | poll interval =>
    dsimp only [addPoller]
    split
    · exact .finish _
    · split
      · exact .finish _
      · exact .finish _
  | confirmSetting id value delay timeout =>
    dsimp only [beginConfirmation]
    split
    · exact .finish _
    · next posted => exact .post posted rfl (by simp [Errand.payload?])
  | write line => exact send_sends s i _ _ (by simp [Errand.payload?])
  | writeAcked line => exact send_sends s i _ _ (by simp [Errand.payload?])
  | realtime command => exact send_sends s i _ _ (by simp [Errand.payload?])
  | writeSetting id value delay => exact send_sends s i _ _ (by simp [Errand.payload?])
  | disconnect | settings | resetSettings | jobLines | ports => exact .finish _

theorem failErrand_sends (s : Session) (i : Nat) (e : Errand) (f : LinkError) :
    s.Sends i (s.failErrand i e f) := by
  unfold failErrand
  cases e with
  | pause | resume | stop => exact .finished _
  | report | reportAnswer | realtime => exact .finish _
  | setting delay confirmation => exact .finish _

theorem doErrand_sends {s t : Session} (i x : Nat) (e : Errand) : s.Sends i (t.doErrand i x e) := by
  have again {st : CallStage} {u : Session} (other : ∀ x e, st ≠ .sending x e) :
      s.Sends i ((u.setStage i st).again (.call i)) := (Sends.setStage other).congr rfl rfl
  unfold doErrand
  cases e with
  | report | realtime => exact .finish _
  | reportAnswer => exact again (by simp)
  | pause | resume | stop => exact .finished _
  | setting delay confirmation =>
    cases confirmation with
    | none => exact .finish _
    | some c => exact again (by simp)

theorem callTurn_sends (s : Session) (i : Nat) : s.Sends i (s.callTurn i) := by
  have again {st : CallStage} {u : Session} (other : ∀ x e, st ≠ .sending x e) :
      s.Sends i ((u.setStage i st).again (.call i)) := (Sends.setStage other).congr rfl rfl
  have using_ {g : Guarded} {inside after : Session → Session} (h : ∀ u, s.Sends i (after u)) :
      s.Sends i (s.use (.call i) g inside after) := by
    rcases use_cases s (.call i) g inside after with same | ⟨u, -, same⟩
    · exact .wait same.2.2.2.1
    · exact same ▸ h _
  unfold callTurn
  cases stage : s.stage? i with
  | none => exact .wait rfl
  | some st =>
    cases st with
    | begin c => exact beginCall_sends s i c
    | turn c =>
      dsimp only
      split
      · exact control_sends c rfl
      · exact .wait rfl
    | sending x e =>
      dsimp only
      split
      · exact .wait rfl
      · split
        · exact failErrand_sends s i e _
        · unfold countErrand
          dsimp only
          split
          · exact using_ fun u => again (by simp)
          · exact again (by simp)
    | counting x e => exact using_ fun u => doErrand_sends i x e
    | awaitingAnswer x =>
      dsimp only
      split
      · exact .wait rfl
      · exact .finish _
      · exact .finish _
    | awaitingIdle =>
      dsimp only
      split
      · exact .finish _
      · exact .wait rfl
    | confirming key sub deadline =>
      dsimp only [confirmTurn]
      split
      · split
        · exact .finish _
        · exact .wait rfl
      · split
        · split
          · exact .finish _
          · exact .wait rfl
        · split
          · exact .wait rfl
          · exact again (by simp)
          · exact .finish _
    | lookingUp key => exact using_ fun u => .finish _

/-! ## Runs -/

/-- **Every call waits for a payload that it handed over itself.** -/
def Carrying (s : Session) : Prop :=
  ∀ i x e, s.stage? i = some (.sending x e) → s.link.traffic.Carries i x e

/-- What a call waits for after an event is what it waited for before, or a payload that it has just
handed over. -/
theorem next_sends (s : Session) {e : Event} {i x : Nat} {errand : Errand}
    (stage : (s.next e).stage? i = some (.sending x errand)) :
    s.stage? i = some (.sending x errand) ∨
      (e = .act (.call i) ∧ x = s.link.posts.length ∧ ∃ p, (∀ q, errand.payload? = some q → p = q) ∧
        Move s.link.traffic (.post (.call i) p) (s.next e).link.traffic) := by
  by_cases own : e = .act (.call i)
  · subst own
    rcases callTurn_sends s i x errand stage with before | new
    · exact .inl before
    · exact .inr ⟨rfl, new⟩
  · left
    have steps := next_steps s e
    generalize s.next e = t at steps stage
    cases steps with
    | call handles =>
      have other : i ≠ _ := fun same => own (by rw [same])
      rwa [handles.2 i other] at stage
    | stream task streams calls => rwa [stage?_congr calls] at stage
    | gone => exact stage
    | @begin j c _ new begun others =>
      by_cases same : i = j
      · rw [same, begun] at stage
        exact absurd stage (by simp)
      · rwa [others i same] at stage
    | aside notJob calls => rwa [stage?_congr calls] at stage

theorem next_carrying {s : Session} (filed : s.link.traffic.Filed) (carrying : s.Carrying)
    (e : Event) : (s.next e).Carrying := by
  intro i x errand stage
  rcases next_sends s stage with before | ⟨-, rfl, p, own, move⟩
  · obtain ⟨ds, moves, -⟩ := next_trades s e
    obtain ⟨c, p, origin, own⟩ := carrying i x errand before
    have known : x < s.link.traffic.posts.length := by
      obtain ⟨q, found, -⟩ := Option.map_eq_some_iff.mp origin
      exact (List.getElem?_eq_some_iff.mp found).1
    exact ⟨c, p, by rw [origin?_of_kept (moves.onward filed).2.origins known, origin], own⟩
  · rcases move.origins with ⟨-, notPost⟩ | ⟨c, a, q, post, -, added⟩
    · exact absurd rfl (notPost _ _)
    · obtain ⟨rfl, rfl⟩ : Actor.call i = a ∧ p = q := by simpa using post
      refine ⟨c.number, p, ?_, own⟩
      rw [← getElem?_origins, added]
      have length : s.link.traffic.origins.length = s.link.posts.length := length_origins _
      rw [← length, List.getElem?_concat_length]

/-- **In every session that can be reached, a call waits for what it handed over.** -/
theorem carrying_after {s : Session} (filed : s.link.traffic.Filed) (carrying : s.Carrying)
    (es : List Event) : (s.after es).Carrying := by
  induction es generalizing s with
  | nil => exact carrying
  | cons e es ih =>
    obtain ⟨ds, moves, -⟩ := next_trades s e
    exact ih (moves.onward filed).1 (next_carrying filed carrying e)

theorem carrying_initial (timeout : Option Nat) : (initial timeout).Carrying :=
  fun _ _ _ stage => absurd stage (by simp [initial, stage?])

end Session

end Cnc
