import Mathlib.Data.List.Induction
import Cnc.Proofs.Control
import Cnc.Proofs.Transfers

/-!
# What pending calls wait for

A call that waits its turn at the job streamer, or has it, is in the order of
turns, and nobody else is (`Session.Queued`). So if somebody waits, somebody
has the turn. A call that waits for the answer to a line knows that the line
was sent (`Session.Expecting`), so an answer is expected for the line until
it is there.
-/

namespace Cnc

/-- Whether a call waits its turn at the job streamer, or has it. -/
def CallStage.inTurn : CallStage → Bool
  | .turn _ => true
  | st => st.controls

/-- The line whose answer a call waits for, or will wait for when the line was sent. -/
def CallStage.expects? : CallStage → Option Nat
  | .sending x .reportAnswer | .counting x .reportAnswer | .awaitingAnswer x => some x
  | _ => none

theorem CallStage.inTurn_of_controls {st : CallStage} (controls : st.controls = true) :
    st.inTurn = true := by
  cases st <;> simp_all [inTurn]

/-- A call that has neither begun nor come to its turn, and does not control a job, does not come to
wait for a turn. -/
theorem CallStage.Follows.inTurn {st st' : CallStage} (follows : st.Follows st')
    (notTurn : ∀ c, st ≠ .begin (.control c) ∧ st ≠ .turn c) (before : st.controls = false) :
    st'.inTurn = false := by
  cases follows with
  | stay =>
    cases st with
    | turn c => exact absurd rfl (notTurn c).2
    | _ => exact before
  | queue c => exact absurd rfl (notTurn c).1
  | @send c x e fits =>
    cases e with
    | pause | resume | stop =>
      cases c with
      | control c => exact absurd rfl (notTurn c).1
      | _ => exact absurd fits (by simp [Errand.fits])
    | _ => rfl
  | steer => exact absurd rfl (notTurn _).2
  | count x e => exact before
  | _ => rfl

namespace Session

open Traffic

variable {s t : Session} {e : Event} {i : Nat}

/-! ## The order of turns -/

/-- **The call waits its turn**, or has it. -/
def InTurn (s : Session) (i : Nat) : Prop := ∃ st, s.stage? i = some st ∧ st.inTurn = true

/-- **The order of turns** holds whoever waits for a turn or has it, once. -/
structure Queued (s : Session) : Prop where
  nodup : s.streamer.turns.Nodup
  mem : ∀ i, i ∈ s.streamer.turns ↔ s.InTurn i

theorem not_inTurn_of_none (gone : t.stage? i = none) : ¬ t.InTurn i := by
  rintro ⟨st, stage, -⟩
  exact absurd (gone.symm.trans stage) (by simp)

theorem inTurn_congr (same : t.stage? i = s.stage? i) : t.InTurn i ↔ s.InTurn i := by
  rw [InTurn, InTurn, same]

/-- **What the turn of the call `i` does to the order of turns.** -/
inductive Shifts (s : Session) (i : Nat) (t : Session) : Prop
  | same (turns : t.streamer.turns = s.streamer.turns) (own : t.InTurn i ↔ s.InTurn i)
  | joins (before : ¬ s.InTurn i) (after : t.InTurn i)
      (turns : t.streamer.turns = s.streamer.turns ++ [i])
  | leaves (first : s.streamer.turns.head? = some i) (after : ¬ t.InTurn i)
      (turns : t.streamer.turns = s.streamer.turns.tail)

theorem Queued.shifts (queued : s.Queued) (others : ∀ j, j ≠ i → t.stage? j = s.stage? j)
    (shifts : s.Shifts i t) : t.Queued := by
  have apart (j : Nat) (other : j ≠ i) : t.InTurn j ↔ s.InTurn j :=
    inTurn_congr (others j other)
  cases shifts with
  | same turns own =>
    refine ⟨by rw [turns]; exact queued.nodup, fun j => ?_⟩
    rw [turns, queued.mem]
    by_cases other : j = i
    · exact other ▸ own.symm
    · exact (apart j other).symm
  | joins before after turns =>
    have new : i ∉ s.streamer.turns := fun there => before ((queued.mem i).mp there)
    refine ⟨?_, fun j => ?_⟩
    · rw [turns]
      exact List.nodup_append.mpr ⟨queued.nodup, by simp, by
        rintro x old y here rfl
        exact new (List.mem_singleton.mp here ▸ old)⟩
    · rw [turns, List.mem_append, List.mem_singleton, queued.mem]
      by_cases other : j = i
      · subst other
        exact ⟨fun _ => after, fun _ => .inr rfl⟩
      · rw [apart j other]
        simp [other]
  | leaves first after turns =>
    cases order : s.streamer.turns with
    | nil => simp [order] at first
    | cons h rest =>
      obtain rfl : h = i := by simpa [order] using first
      have nodup := queued.nodup
      rw [order, List.nodup_cons] at nodup
      rw [order, List.tail_cons] at turns
      refine ⟨turns ▸ nodup.2, fun j => ?_⟩
      rw [turns]
      by_cases other : j = h
      · subst other
        exact ⟨fun there => absurd there nodup.1, fun there => absurd there after⟩
      · rw [apart j other, ← queued.mem, order, List.mem_cons]
        simp [other]

/-- **What a call that has its turn does**: it returns and ends its turn, or waits to know what
became of its command. -/
inductive UsesTurn (turns : List Nat) (i : Nat) (t : Session) : Prop
  | leaves (gone : t.stage? i = none) (after : t.streamer.turns = turns.tail)
  | keeps {x : Nat} {errand : Errand} (stage : t.stage? i = some (.sending x errand))
      (control : errand.isControl = true) (after : t.streamer.turns = turns)

theorem finish_usesTurn {turns : List Nat} (same : t.streamer.turns = turns) (r : Result) :
    UsesTurn turns i (t.finish i r).endTurn :=
  .leaves (by simp) (by simp [same])

theorem sendControl_usesTurn {turns : List Nat} {command : Realtime} {errand : Errand}
    {closed : Session → Session} (control : errand.isControl = true)
    (pending : t.stage? i ≠ none) (same : t.streamer.turns = turns)
    (kept : (closed t).streamer.turns = t.streamer.turns) :
    UsesTurn turns i (t.sendControl i command errand closed) := by
  unfold sendControl
  cases posted : t.post? (.call i) (.realtime command) with
  | none => exact finish_usesTurn (kept.trans same) _
  | some r =>
    obtain ⟨-, calls, streamer⟩ := post?_streamer posted
    obtain ⟨st, stage⟩ := Option.ne_none_iff_exists'.mp pending
    refine .keeps (x := r.1) ?_ control (by simp [streamer, same])
    rw [stage?_setStage, if_pos rfl, stage?_congr calls, stage]
    rfl

theorem control_usesTurn (pending : s.stage? i ≠ none) (c : Control) :
    UsesTurn s.streamer.turns i (s.control i c) := by
  unfold control
  cases c with
  | start program =>
    dsimp only [startJob]
    split
    · exact finish_usesTurn rfl _
    · split
      · exact finish_usesTurn rfl _
      · split
        · exact finish_usesTurn rfl _
        · exact .leaves (by simp) (by simp [withTask, announce])
  | pause =>
    dsimp only
    split
    · exact sendControl_usesTurn rfl (by simpa [stage?] using pending) (by simp) rfl
    · exact finish_usesTurn rfl _
  | resume =>
    dsimp only
    split
    · exact sendControl_usesTurn rfl pending rfl rfl
    · exact finish_usesTurn rfl _
  | stop =>
    dsimp only
    split
    · exact sendControl_usesTurn rfl (by simpa [stage?] using pending) (by simp) (by simp)
    · exact finish_usesTurn rfl _

/-- A call that does not wait for a turn stays out of the order, or leaves it when it has
finished. -/
theorem shifts_of_handles {st : CallStage} (governed : Governed s.stage? s.streamer.core)
    (stage : s.stage? i = some st) (notTurn : ∀ c, st ≠ .begin (.control c) ∧ st ≠ .turn c)
    (handles : s.Handles i t) (goesOn : GoesOn i st t) : s.Shifts i t := by
  obtain ⟨controls, -⟩ := handles
  have inTurn (before : st.controls = false) : ¬ s.InTurn i ∧ ¬ t.InTurn i := by
    constructor
    · rintro ⟨st', stage', inTurn⟩
      obtain rfl := Option.some.inj (stage.symm.trans stage')
      have outside := (CallStage.Follows.stay st).inTurn notTurn before
      exact absurd inTurn (by simp [outside])
    · rintro ⟨st', stage', inTurn⟩
      have outside := (goesOn st' stage').inTurn notTurn before
      exact absurd inTurn (by simp [outside])
  generalize own : t.stage? i = st' at controls
  generalize core : t.streamer.core = m at controls
  have turns : t.streamer.turns = m.turns := congrArg StreamerCore.turns core
  cases controls with
  | wait => exact .same turns (inTurn_congr own)
  | aside before =>
    have before : st.controls = false := by simpa [stage] using before
    exact .same turns (iff_of_false (inTurn before).2 (inTurn before).1)
  | @count x errand stage' =>
    obtain rfl := Option.some.inj (stage.symm.trans stage')
    refine .same turns ⟨?_, ?_⟩
    · rintro ⟨st', here, inTurn⟩
      obtain rfl := Option.some.inj (own.symm.trans here)
      exact ⟨_, stage, inTurn⟩
    · rintro ⟨st', here, inTurn⟩
      obtain rfl := Option.some.inj (stage.symm.trans here)
      exact ⟨_, own, inTurn⟩
  | queue stage' => exact absurd (Option.some.inj (stage.symm.trans stage')) (notTurn _).1
  | steer turn =>
    rcases turn with ⟨stage', -⟩ | ⟨stage', -⟩
    · exact absurd (Option.some.inj (stage.symm.trans stage')) (notTurn _).1
    · exact absurd (Option.some.inj (stage.symm.trans stage')) (notTurn _).2
  | @finish st' errand _ stage' carries control finishes =>
    have controls : st'.controls = true := by
      rw [CallStage.controls, carries]
      exact control
    refine .leaves (governed.turn i st' stage' controls) (not_inTurn_of_none own) ?_
    cases finishes <;> exact turns

/-- **The turn of a call** lets nobody else into the order of turns or out of it. -/
theorem callTurn_shifts (governed : Governed s.stage? s.streamer.core) (i : Nat) :
    s.Shifts i (s.callTurn i) := by
  cases stage : s.stage? i with
  | none =>
    have same : s.callTurn i = s := by simp [callTurn, stage]
    exact same.symm ▸ .same rfl Iff.rfl
  | some st =>
    have pending : s.stage? i ≠ none := by simp [stage]
    by_cases begins : ∃ c, st = .begin (.control c)
    · obtain ⟨c, rfl⟩ := begins
      have outside : ¬ s.InTurn i := by
        rintro ⟨st', stage', inTurn⟩
        rw [← Option.some.inj (stage.symm.trans stage')] at inTurn
        exact absurd inTurn (by simp [CallStage.inTurn, CallStage.controls, CallStage.errand?])
      have turn : s.callTurn i = s.takeTurn i c := by simp only [callTurn, stage, beginCall]
      rw [turn]
      unfold takeTurn
      dsimp only
      split
      · next free =>
        have uses := control_usesTurn (s := { s with streamer.turns := s.streamer.turns ++ [i] })
          (i := i) pending c
        cases uses with
        | leaves gone after =>
          refine .same (by rw [after, free]; rfl) ⟨fun inTurn => ?_, fun inTurn => ?_⟩
          · exact absurd inTurn (not_inTurn_of_none gone)
          · exact absurd inTurn outside
        | keeps stage' control after =>
          exact .joins outside ⟨_, stage', CallStage.inTurn_of_controls control⟩ after
      · refine .joins outside ⟨.turn c, ?_, rfl⟩ rfl
        rw [stage?_setStage, if_pos rfl]
        show (s.stage? i).map _ = _
        rw [stage]
        rfl
    · by_cases waits : ∃ c, st = .turn c
      · obtain ⟨c, rfl⟩ := waits
        have turn : s.callTurn i
            = if s.streamer.turns.head? = some i then s.control i c else s := by
          simp only [callTurn, stage]
        rw [turn]
        split
        · next first =>
          cases control_usesTurn pending c with
          | leaves gone after => exact .leaves first (not_inTurn_of_none gone) after
          | keeps stage' control after =>
            refine .same after ⟨fun _ => ⟨_, stage, rfl⟩, fun _ => ?_⟩
            exact ⟨_, stage', CallStage.inTurn_of_controls control⟩
        · exact .same rfl Iff.rfl
      · have notTurn (c : Control) : st ≠ .begin (.control c) ∧ st ≠ .turn c :=
          ⟨fun same => begins ⟨c, same⟩, fun same => waits ⟨c, same⟩⟩
        exact shifts_of_handles governed stage notTurn (callTurn_handles s i)
          (callTurn_goesOn stage)

/-- What an event does to the order of turns and its members. -/
theorem Queued.next (governed : Governed s.stage? s.streamer.core) (queued : s.Queued) (e : Event) :
    (s.next e).Queued := by
  have aside {t : Session} (turns : t.streamer.turns = s.streamer.turns)
      (stages : ∀ j, t.InTurn j ↔ s.InTurn j) : t.Queued := by
    refine ⟨turns ▸ queued.nodup, fun j => ?_⟩
    rw [turns, queued.mem, stages]
  by_cases call : ∃ i, e = .act (.call i)
  · obtain ⟨i, rfl⟩ := call
    exact queued.shifts (callTurn_handles s i).2 (callTurn_shifts governed i)
  · have steps := next_steps s e
    generalize s.next e = t at steps
    cases steps with
    | call => exact absurd ⟨_, rfl⟩ call
    | gone => exact queued
    | aside _ calls core =>
      exact aside (congrArg StreamerCore.turns core) fun j => inTurn_congr (stage?_congr calls j)
    | @begin i c _ new begun others _ core =>
      refine aside (congrArg StreamerCore.turns core) fun j => ?_
      by_cases own : j = i
      · subst own
        refine ⟨?_, fun inTurn => absurd inTurn (not_inTurn_of_none new)⟩
        rintro ⟨st, stage, inTurn⟩
        rw [← Option.some.inj (begun.symm.trans stage)] at inTurn
        exact absurd inTurn (by simp [CallStage.inTurn, CallStage.controls, CallStage.errand?])
      · exact inTurn_congr (others j own)
    | stream _ streams calls =>
      refine aside ?_ fun j => inTurn_congr (stage?_congr calls j)
      show t.streamer.core.turns = s.streamer.core.turns
      generalize t.streamer.core = m at streams
      generalize t.link.traffic = u at streams
      cases streams <;> rfl

theorem queued_initial (timeout : Option Nat) : (initial timeout).Queued where
  nodup := by simp [initial, Streamer.initial]
  mem := by simp [initial, Streamer.initial, InTurn, stage?]

/-- **In every session that can be reached**, the order of turns holds whoever waits for a turn. -/
theorem queued_after (timeout : Option Nat) (es : List Event) :
    ((initial timeout).after es).Queued := by
  induction es using List.reverseRecOn with
  | nil => exact queued_initial timeout
  | append_singleton es e ih =>
    rw [after_append, after_cons, after_nil]
    exact ih.next (governed_after timeout es) e

/-! ## Answers -/

/-- **A call that waits for an answer** waits for the answer to a line, and knows that the line was
sent. -/
structure Expecting (s : Session) : Prop where
  line : ∀ i st x, s.stage? i = some st → st.expects? = some x → s.link.traffic.isLine x = true
  counted : ∀ i x errand, s.stage? i = some (.counting x errand) → s.link.delivery? x = some .sent
  sent : ∀ i x, s.stage? i = some (.awaitingAnswer x) → s.link.delivery? x = some .sent

/-- A call whose payload was not sent does not count it. -/
theorem sent_of_counting {x : Nat} {errand : Errand}
    (before : s.stage? i = some (.sending x errand))
    (after_ : (s.callTurn i).stage? i = some (.counting x errand)) :
    s.link.delivery? x = some .sent := by
  cases told : s.link.delivery? x with
  | none =>
    have turn : s.callTurn i = s := by simp [callTurn, before, told]
    exact absurd (before.symm.trans (turn ▸ after_)) (by simp)
  | some d =>
    cases fails : d.error? with
    | none => cases d <;> simp_all [Delivery.error?]
    | some f =>
      have turn : s.callTurn i = s.failErrand i errand f := by simp [callTurn, before, told, fails]
      rw [turn, stage?_failErrand] at after_
      exact absurd after_ (by simp)

/-- What a call hands over to wait for its answer is a line. -/
theorem isLine_of_writeAcked {line : String} {x : Nat}
    (before : s.stage? i = some (.begin (.writeAcked line)))
    (after_ : (s.callTurn i).stage? i = some (.sending x .reportAnswer)) :
    (s.callTurn i).link.traffic.isLine x = true := by
  have turn : s.callTurn i = s.send i (.ofLine line) .reportAnswer := by
    simp only [callTurn, before, beginCall]
  rw [turn] at after_ ⊢
  unfold send at after_ ⊢
  cases posted : s.post? (.call i) (.ofLine line) with
  | none =>
    rw [posted] at after_
    exact absurd after_ (by simp)
  | some r =>
    simp only [posted] at after_ ⊢
    obtain ⟨ticket, move⟩ := post?_move posted
    rw [stage?_setStage, if_pos rfl] at after_
    obtain ⟨-, -, same⟩ := Option.map_eq_some_iff.mp after_
    obtain rfl : r.1 = x := (CallStage.sending.inj same).1
    show r.2.link.traffic.isLine r.1 = true
    rw [ticket, show s.link.posts.length = s.link.traffic.posts.length from rfl]
    generalize r.2.link.traffic = u at move
    cases move
    simp [isLine, payload?, Payload.ofLine, Payload.isLine]

theorem Expecting.next (filed : s.link.traffic.Filed) (expecting : s.Expecting) (e : Event) :
    (s.next e).Expecting := by
  have onward := (onward_next filed e).2
  have kept {x : Nat} (line : s.link.traffic.isLine x = true) :
      (s.next e).link.traffic.isLine x = true := by
    have known : x < s.link.traffic.posts.length := by
      by_contra unknown
      simp [isLine, payload?, List.getElem?_eq_none (Nat.le_of_not_lt unknown)] at line
    rw [isLine_of_kept onward.origins known, line]
  -- a call that has gone on has had its turn
  have own {i : Nat} {st st' : CallStage} (stage : s.stage? i = some st)
      (stage' : (s.next e).stage? i = some st') (moved : st ≠ st') : e = .act (.call i) := by
    by_contra other
    exact moved (Option.some.inj ((stage?_next s other stage).symm.trans stage'))
  have told {x : Nat} (sent : s.link.delivery? x = some .sent) :
      (s.next e).link.delivery? x = some .sent := onward.told x _ sent
  constructor
  case line =>
    intro i st' x stage' expects
    rcases next_follows s e stage' with ⟨st, stage, follows⟩ | ⟨c, -, -, rfl⟩
    · cases follows with
      | stay => exact kept (expecting.line i st' x stage expects)
      | @send c y errand fits =>
        cases errand with
        | reportAnswer =>
          obtain rfl := Option.some.inj expects
          cases c with
          | writeAcked line =>
            obtain rfl := own stage stage' (by simp)
            exact isLine_of_writeAcked stage stage'
          | _ => exact absurd fits (by simp [Errand.fits])
        | _ => exact absurd expects (by simp [CallStage.expects?])
      | @steer c y errand fits =>
        cases errand with
        | reportAnswer => exact absurd fits (by simp [Errand.fits])
        | _ => exact absurd expects (by simp [CallStage.expects?])
      | count y errand =>
        cases errand with
        | reportAnswer => exact kept (expecting.line i _ x stage expects)
        | _ => exact absurd expects (by simp [CallStage.expects?])
      | answer y => exact kept (expecting.line i _ x stage expects)
      | _ => exact absurd expects (by simp [CallStage.expects?])
    · exact absurd expects (by simp [CallStage.expects?])
  case counted =>
    intro i x errand stage'
    rcases next_follows s e stage' with ⟨st, stage, follows⟩ | ⟨c, -, -, begins⟩
    · cases follows with
      | stay => exact told (expecting.counted i x errand stage)
      | count =>
        obtain rfl := own stage stage' (by simp)
        exact told (sent_of_counting stage stage')
    · exact absurd begins (by simp)
  case sent =>
    intro i x stage'
    rcases next_follows s e stage' with ⟨st, stage, follows⟩ | ⟨c, -, -, begins⟩
    · cases follows with
      | stay => exact told (expecting.sent i x stage)
      | answer => exact told (expecting.counted i x _ stage)
    · exact absurd begins (by simp)

theorem expecting_initial (timeout : Option Nat) : (initial timeout).Expecting := by
  constructor <;> simp [initial, stage?]

/-- **In every session that can be reached**, whoever waits for an answer waits for the answer to a
line that was sent. -/
theorem expecting_after (timeout : Option Nat) (es : List Event) :
    ((initial timeout).after es).Expecting := by
  induction es using List.reverseRecOn with
  | nil => exact expecting_initial timeout
  | append_singleton es e ih =>
    rw [after_append, after_cons, after_nil]
    exact ih.next (filed_after timeout es) e

end Session

end Cnc
