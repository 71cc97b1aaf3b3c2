import Cnc.Proofs.Relief

/-!
# A session comes to rest

Every turn that does anything at all does some of what is left to be done, or
hears an event (`Session.act_labours`). What is left is finite, so in whatever
order the turns are taken, no more of them than that change anything
(`Session.Reachable.after_labours`), and some lead to where nobody has
anything to do (`Session.Reachable.exists_quiescent`). On a closed link, on
which no port is being opened, the link stays closed meanwhile
(`Session.Closed.comes_to_rest`).
-/

namespace Cnc

namespace Session

variable {s t u : Session} {a : Actor} {e : Event} {i n : Nat} {calls : Finset Nat}

/-- What a call has left to do is its own. -/
theorem stage?_act (s : Session) (other : a ≠ .call i) : (s.act a).stage? i = s.stage? i := by
  cases stage : s.stage? i with
  | some st => exact stage?_next (e := .act a) s (by simpa using other) stage
  | none => exact (gone_after stage [.act a] (by simp [Event.isTurn])).1

/-- What one call hears is no news for another. -/
theorem callEar_receive_le (s : Session) (sub j : Nat) :
    Session.callEar { s with link.events := (s.link.events.receive sub).2 } j ≤ s.callEar j := by
  have same : ({ s with link.events := (s.link.events.receive sub).2 } : Session).stage? j
      = s.stage? j := rfl
  rw [callEar, callEar, same]
  cases s.stage? j with
  | none => exact Nat.le_refl _
  | some st =>
    have capacity : (s.link.events.receive sub).2.capacity = s.link.events.capacity := by
      have received := s.link.events.receives sub
      generalize s.link.events.receive sub = r at received
      cases received <;> rfl
    cases st with
    | confirming key other deadline => exact EventBus.behind_receive_le _ _ _
    | _ => simp [CallStage.ear, capacity]

/-- An actor besides the calls that does some of what is left, leaves what the calls have to do. -/
theorem labour_lt_of_aside (other : ∀ i, a ≠ .call i) (less : (s.act a).sideWork < s.sideWork) :
    (s.act a).labour calls < s.labour calls := by
  refine labour_lt_of_burden ?_ (act_ear s a)
  have same (i : Nat) : (s.act a).callWork i = s.callWork i := by
    rw [callWork, callWork, stage?_act s (other i)]
  rw [burden, burden, Finset.sum_congr rfl fun i _ => same i]
  exact Nat.add_lt_add_left less _

/-- A call that does some of what is left, leaves what the others have to do. -/
theorem burden_lt_of_eases (own : i ∈ calls) (eases : s.Eases i (s.callTurn i)) :
    (s.act (.call i)).burden calls < s.burden calls := by
  have others : ∑ j ∈ calls.erase i, (s.act (.call i)).callWork j
      = ∑ j ∈ calls.erase i, s.callWork j := by
    refine Finset.sum_congr rfl fun j apart => ?_
    have other : Actor.call i ≠ .call j := fun same =>
      Finset.ne_of_mem_erase apart (Actor.call.inj same).symm
    rw [callWork, callWork, stage?_act s other]
  have less : (s.act (.call i)).callWork i + (s.act (.call i)).sideWork
      < s.callWork i + s.sideWork := eases
  rw [burden, burden, ← Finset.add_sum_erase calls _ own, ← Finset.add_sum_erase calls _ own,
    others]
  omega

/-- **A call** does nothing, or some of what is left, or hears an event. -/
theorem call_labours (all : ∀ i, i ∉ calls → s.stage? i = none) (i : Nat) :
    s.Lapses (.call i) (s.act (.call i)) ∨ (s.act (.call i)).labour calls < s.labour calls := by
  have member {st : CallStage} (pending : s.stage? i = some st) : i ∈ calls := by
    by_contra absent
    exact absurd (pending.symm.trans (all i absent)) (by simp)
  have labours := callTurn_labours s i
  change s.Lapses _ (s.callTurn i) ∨ (s.callTurn i).labour calls < _
  cases labours with
  | lapses lapses => exact .inl lapses
  | eases eases =>
    refine .inr (labour_lt_of_burden (burden_lt_of_eases ?_ eases) (act_ear s (.call i)))
    cases stage : s.stage? i with
    | some st => exact member stage
    | none =>
      have same : s.callTurn i = s := by simp [callTurn, stage]
      rw [same] at eases
      exact absurd eases (Nat.lt_irrefl _)
  | @hears key sub deadline h stage heard alike =>
    right
    rw [alike.labour]
    refine labour_lt_of_ear (i := i) rfl (member stage) ?_ fun j => callEar_receive_le s sub j
    have same : ({ s with link.events := (s.link.events.receive sub).2 } : Session).stage? i
        = s.stage? i := rfl
    rw [callEar, callEar, same, stage]
    exact EventBus.behind_receive_lt heard

/-- **Every turn that does anything at all** does some of what is left to be done, or hears an
event. -/
theorem act_labours (sound : s.Sound) (sized : s.streamer.core.Sized)
    (all : ∀ i, i ∉ calls → s.stage? i = none) (a : Actor) :
    s.Lapses a (s.act a) ∨ (s.act a).labour calls < s.labour calls := by
  have aside {a : Actor} (other : ∀ i, a ≠ .call i) (relieves : s.Relieves a (s.act a)) :
      s.Lapses a (s.act a) ∨ (s.act a).labour calls < s.labour calls :=
    relieves.imp_right (labour_lt_of_aside other)
  cases a with
  | call i => exact call_labours all i
  | job n =>
    refine aside (by simp) ?_
    show s.Relieves _ (s.jobTurn n)
    unfold jobTurn
    cases found : s.task? n with
    | none => exact .inl (.idle s _)
    | some k =>
      obtain ⟨task, number⟩ := Option.filter_eq_some_iff.mp found
      obtain rfl : k.job.number = n := by simpa using number
      exact taskTurn_relieves task sized
  | refresher n => exact aside (by simp) (refresherTurn_relieves s n)
  | poller n => exact aside (by simp) (pollerTurn_relieves sound n)
  | writer => exact aside (by simp) (writerTurn_relieves s)
  | reader => exact aside (by simp) (readerTurn_relieves sound)

theorem Reachable.sound (reachable : s.Reachable) : s.Sound := by
  obtain ⟨timeout, es, rfl⟩ := reachable
  exact sound_after timeout es

theorem Reachable.sized (reachable : s.Reachable) : s.streamer.core.Sized := by
  obtain ⟨timeout, es, rfl⟩ := reachable
  exact sized_after timeout es

/-! ## Rest -/

/-- Whether an event changes more than who acts next. -/
def changes (x : Session × Event) : Bool := decide (¬ (x.1.next x.2).Alike x.1)

theorem Reachable.next_labours (reachable : s.Reachable)
    (all : ∀ i, i ∉ calls → s.stage? i = none) (turn : e.isTurn = true) :
    (s.next e).labour calls + (if changes (s, e) then 1 else 0) ≤ s.labour calls := by
  have idle (alike : (s.next e).Alike s) :
      (s.next e).labour calls + (if changes (s, e) then 1 else 0) ≤ s.labour calls := by
    rw [if_neg (by simp [changes, alike]), alike.labour]
    exact Nat.le_refl _
  cases e with
  | schedule => exact idle ⟨rfl, rfl, rfl, rfl, rfl, rfl, rfl⟩
  | act a =>
    rcases act_labours reachable.sound reachable.sized all a with lapses | less
    · exact idle lapses.alike
    · have less : (s.next (.act a)).labour calls < s.labour calls := less
      split <;> omega
  | _ => exact absurd turn (by simp [Event.isTurn])

/-- **In whatever order the turns are taken**, no more of them change anything than there is left
to be done. -/
theorem Reachable.after_labours (reachable : s.Reachable)
    (all : ∀ i, i ∉ calls → s.stage? i = none) (fs : List Event)
    (turns : ∀ f ∈ fs, f.isTurn = true) :
    (s.after fs).labour calls + (s.history fs).countP changes ≤ s.labour calls := by
  induction fs generalizing s with
  | nil => exact Nat.le_refl _
  | cons f fs ih =>
    have turn : f.isTurn = true := turns f List.mem_cons_self
    have first := reachable.next_labours all turn
    have rest := ih (reachable.next f)
      (fun i absent => (gone_after (all i absent) [f] (by simpa using turn)).1)
      fun g member => turns g (List.mem_cons_of_mem _ member)
    rw [show s.history (f :: fs) = (s, f) :: (s.next f).history fs from rfl, List.countP_cons,
      after_cons]
    omega

/-- **However the turns were ordered**, some lead to where nobody has anything to do. -/
theorem Reachable.exists_quiescent (reachable : s.Reachable) {calls : Finset Nat}
    (all : ∀ i, i ∉ calls → s.stage? i = none) :
    ∃ fs, (∀ f ∈ fs, f.isTurn = true) ∧ (s.after fs).Quiescent := by
  -- by induction on what is left to be done
  induction left : s.labour calls using Nat.strong_induction_on generalizing s with
  | h n ih =>
    by_cases quiescent : s.Quiescent
    · exact ⟨[], by simp, quiescent⟩
    · obtain ⟨a, busy⟩ := not_forall.mp quiescent
      let fresh : Event := .schedule s.ready s.acting stretchCredit s.yielded s.stretches
      have alike : Alike (s.next fresh) s := ⟨rfl, rfl, rfl, rfl, rfl, rfl, rfl⟩
      have reachable' := reachable.next fresh
      have labours : (s.after [fresh, .act a]).labour calls < s.labour calls :=
        (act_labours reachable'.sound reachable'.sized
          (fun i absent => (alike.stage? i).trans (all i absent)) a).resolve_left fun idle =>
            busy (idle.alike.trans alike)
      have turns : ∀ f ∈ [fresh, .act a], f.isTurn = true := by simp [fresh, Event.isTurn]
      obtain ⟨fs, later, rest⟩ := ih _ (left ▸ labours) (reachable.after _)
        (fun i absent => (gone_after (all i absent) _ turns).1) rfl
      refine ⟨[fresh, .act a] ++ fs, fun f member => ?_, ?_⟩
      · exact (List.mem_append.mp member).elim (turns f) (later f)
      · rwa [after_append]

/-- **The session comes to rest**: however the turns are ordered, only so many of them change
anything, and some lead to where nobody has anything to do. -/
structure ComesToRest (s : Session) : Prop where
  bound : ∃ n, ∀ fs, (∀ f ∈ fs, f.isTurn = true) → (s.history fs).countP changes ≤ n
  rests : ∃ fs, (∀ f ∈ fs, f.isTurn = true) ∧ (s.after fs).link.opened = s.link.opened ∧
    (s.after fs).Quiescent

/-- A closed link stays closed in all turns, as no port is being opened. -/
theorem Closed.opened_after (closed : s.Closed) (fs : List Event)
    (turns : ∀ f ∈ fs, f.isTurn = true) : (s.after fs).link.opened = s.link.opened := by
  induction fs generalizing s with
  | nil => rfl
  | cons f fs ih =>
    have turn : f.isTurn = true := turns f List.mem_cons_self
    have first : (s.next f).link.opened = s.link.opened :=
      congrArg Traffic.opened (closed.traffic f)
    rw [after_cons, ih (closed.next turn) fun g member => turns g (List.mem_cons_of_mem _ member),
      first]

/-- **A closed link comes to rest** if no port is being opened. -/
theorem Closed.comes_to_rest (closed : s.Closed) (reachable : s.Reachable) : s.ComesToRest := by
  have all (i : Nat) (absent : i ∉ s.callers) : s.stage? i = none :=
    stage?_of_not_mem_callers absent
  refine ⟨⟨s.labour s.callers, fun fs turns => ?_⟩, ?_⟩
  · exact Nat.le_trans (Nat.le_add_left _ _) (reachable.after_labours all fs turns)
  · obtain ⟨fs, turns, quiescent⟩ := reachable.exists_quiescent all
    exact ⟨fs, turns, closed.opened_after fs turns, quiescent⟩

end Session

end Cnc
