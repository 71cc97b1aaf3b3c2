import Mathlib.Data.List.Induction
import Cnc.Proofs.Errands
import Cnc.Proofs.Lifecycle
import Cnc.Proofs.Outlook

/-!
# Turns on a closed link

Connections are opened one after the other, and a connection that lasts for a
run is the same one all along (`Session.Lasts`). As long as the link is closed
and no port is opened, nothing happens to the traffic
(`Session.traffic_of_closed`), and nothing is received
(`Session.rests_of_closed`): the status stays what it is.
-/

namespace Cnc

/-- **Nothing was received**: what is known of the machine is the same, apart from the time and from
settings that were forgotten. -/
structure Outlook.Rests (o o' : Outlook) : Prop where
  status : o'.status = o.status
  settings : o'.settings = o.settings ∨ o'.settings = .empty
  bytesReceived : o'.bytesReceived = o.bytesReceived
  framesReceived : o'.framesReceived = o.framesReceived
  framesRejected : o'.framesRejected = o.framesRejected
  events : o'.events = o.events

namespace Outlook.Rests

theorem refl (o : Outlook) : o.Rests o := ⟨rfl, .inl rfl, rfl, rfl, rfl, rfl⟩

theorem of_eq {o o' : Outlook} (same : o' = o) : o.Rests o' := same ▸ refl o

theorem trans {o o' o'' : Outlook} (h : o.Rests o') (k : o'.Rests o'') : o.Rests o'' where
  status := k.status.trans h.status
  settings := k.settings.elim (fun same => h.settings.imp same.trans same.trans) .inr
  bytesReceived := k.bytesReceived.trans h.bytesReceived
  framesReceived := k.framesReceived.trans h.framesReceived
  framesRejected := k.framesRejected.trans h.framesRejected
  events := k.events.trans h.events

end Outlook.Rests

/-- A closed link makes no move but one that opens a port. -/
theorem Traffic.Moves.of_closed {t u : Traffic} {ds : List Deed} (h : Moves t ds u)
    (closed : t.connection = none) : u = t ∨ .open ∈ ds ∧ t.opened < u.opened := by
  cases h with
  | nil t => exact .inl rfl
  | cons first rest =>
    cases first with
    | «open» => exact .inr ⟨List.mem_cons_self, rest.opened_le⟩
    | post _ _ here | takeRealtime here | takeLine here | place here | send here | refuseLine here
    | refuseRealtime here | spoilLine here | spoilRealtime here | giveUp here | settle here
    | chore here | read here | timeout here | device _ here | poll _ here | clear here
    | close here =>
      exact absurd (closed.symm.trans here) (by simp)

namespace Session

variable {s t : Session} {e : Event}

/-! ## One connection after the other -/

theorem opened_next (s : Session) (e : Event) : s.link.opened ≤ (s.next e).link.opened := by
  obtain ⟨ds, moves, -⟩ := next_trades s e
  exact moves.opened_le

theorem opened_after (s : Session) (es : List Event) :
    s.link.opened ≤ (s.after es).link.opened := by
  induction es generalizing s with
  | nil => exact Nat.le_refl _
  | cons e es ih => exact Nat.le_trans (opened_next s e) (ih (s.next e))

/-- If no port is opened in a run, none is opened at its beginning or later. -/
theorem opened_split (es fs : List Event)
    (still : (s.after (es ++ fs)).link.opened = s.link.opened) :
    (s.after es).link.opened = s.link.opened ∧
      ((s.after es).after fs).link.opened = (s.after es).link.opened := by
  rw [after_append] at still
  have first := opened_after s es
  have second := opened_after (s.after es) fs
  omega

/-- **A connection lasts** for a whole run. -/
structure Lasts (s : Session) (es : List Event) : Prop where
  isOpen : (s.after es).link.connection.isSome = true
  opened : (s.after es).link.opened = s.link.opened

/-- A connection that lasts for a run lasts for the beginning of it. -/
theorem Lasts.init {es : List Event} (lasts : s.Lasts (es ++ [e])) :
    s.Lasts es ∧ ((s.after es).next e).link.opened = (s.after es).link.opened := by
  obtain ⟨first, last⟩ := opened_split es [e] lasts.opened
  have isOpen := lasts.isOpen
  rw [after_append, after_cons, after_nil] at isOpen
  obtain ⟨c', there⟩ := Option.isSome_iff_exists.mp isOpen
  obtain ⟨ds, moves, -⟩ := next_trades (s.after es) e
  obtain ⟨c, here, -⟩ := moves.connected there last
  exact ⟨⟨Option.isSome_iff_exists.mpr ⟨c, here⟩, first⟩, last⟩

/-- A connection that lasts is there from the beginning, and is the same one at the end. -/
theorem Lasts.start {es : List Event} (lasts : s.Lasts es) {c' : Connection}
    (there : (s.after es).link.connection = some c') :
    ∃ c, s.link.connection = some c ∧ c'.number = c.number := by
  induction es using List.reverseRecOn generalizing c' with
  | nil => exact ⟨c', there, rfl⟩
  | append_singleton es e ih =>
    obtain ⟨before, last⟩ := lasts.init
    rw [after_append, after_cons, after_nil] at there
    obtain ⟨ds, moves, -⟩ := next_trades (s.after es) e
    obtain ⟨b, between, same⟩ := moves.connected there last
    obtain ⟨c, here, number⟩ := ih before between
    exact ⟨c, here, same.trans number⟩

/-- **Nothing is done to the traffic of a closed link** if no port is opened. -/
theorem traffic_of_closed (closed : s.link.connection = none)
    (still : (s.next e).link.opened = s.link.opened) :
    (s.next e).link.traffic = s.link.traffic := by
  obtain ⟨ds, moves, -⟩ := next_trades s e
  rcases moves.of_closed closed with same | ⟨-, more⟩
  · exact same
  · exact absurd still (Nat.ne_of_gt more)

/-- **A closed link receives nothing**, unless a call opens a port. -/
theorem rests_of_closed (closed : s.link.connection = none)
    (notConnect : ∀ i port refusal, e = .act (.call i) →
      s.stage? i ≠ some (.begin (.connect port refusal))) :
    s.outlook.Rests (s.next e).outlook := by
  cases e with
  | act a =>
    by_cases reader : a = .reader
    · subst reader
      have same : s.next (.act .reader) = s := by
        show s.readerTurn = s
        simp [readerTurn, closed]
      exact .of_eq (congrArg outlook same)
    · by_cases begins : ∃ i c, a = .call i ∧ s.stage? i = some (.begin c) ∧ c.clears = true
      · obtain ⟨i, c, rfl, stage, clears⟩ := begins
        have turn : s.next (.act (.call i)) = s.beginCall i c := by
          show s.callTurn i = _
          simp only [callTurn, stage]
        rw [turn]
        cases c with
        | connect port refusal => exact absurd stage (notConnect i port refusal rfl)
        | disconnect =>
          have same : s.beginCall i .disconnect = s.finish i .ok := by
            simp [beginCall, endConnection, closed]
          exact .of_eq ((congrArg outlook same).trans rfl)
        | resetSettings => exact ⟨rfl, .inr rfl, rfl, rfl, rfl, rfl⟩
        | _ => exact absurd clears (by simp [Call.clears])
      · refine .of_eq (act_outlook reader fun i c own stage => ?_)
        by_contra clears
        exact begins ⟨i, c, own, stage, by simpa using clears⟩
  | call i c =>
    show s.outlook.Rests (if _ then _ else _ : Session).outlook
    split
    · exact .refl _
    · exact .of_eq (alike_wake _ _).outlook
  | device i d =>
    show s.outlook.Rests (if _ then _ else _ : Session).outlook
    split
    · exact .refl _
    · have same : s.deviceAct d = s := by simp [deviceAct, closed]
      exact .of_eq (congrArg outlook same)
  | observe => exact ⟨rfl, .inl rfl, rfl, rfl, rfl, EventBus.drain_log s.link.events 0⟩
  | schedule | elapse => exact ⟨rfl, .inl rfl, rfl, rfl, rfl, rfl⟩

/-- **The link is closed, and no port is being opened.** -/
structure Closed (s : Session) : Prop where
  connection : s.link.connection = none
  connect : ∀ i port refusal, s.stage? i ≠ some (.begin (.connect port refusal))

/-- In a turn, no call begins. -/
theorem stage?_begin_of_isTurn (turn : e.isTurn = true) {i : Nat} {c : Call}
    (stage : (s.next e).stage? i = some (.begin c)) : s.stage? i = some (.begin c) := by
  rcases next_follows s e stage with ⟨st, before, follows⟩ | ⟨c', rfl, -, -⟩
  · rw [before, follows.begin_iff rfl]
  · exact absurd turn (by simp [Event.isTurn])

/-- **Nothing is done to the traffic of a closed link**, unless a port is opened. -/
theorem Closed.traffic (closed : s.Closed) (e : Event) :
    (s.next e).link.traffic = s.link.traffic := by
  obtain ⟨ds, moves, does⟩ := next_trades s e
  rcases moves.of_closed closed.connection with same | ⟨opens, -⟩
  · exact same
  · cases does _ opens with
    | «open» stage => exact absurd stage (closed.connect _ _ _)
    | write own => exact absurd own (by simp [Traffic.Deed.byWriter])

theorem Closed.next (closed : s.Closed) (turn : e.isTurn = true) : (s.next e).Closed where
  connection := (congrArg Traffic.connection (closed.traffic e)).trans closed.connection
  connect i port refusal stage :=
    closed.connect i port refusal (stage?_begin_of_isTurn turn stage)

theorem Closed.rests (closed : s.Closed) (e : Event) : s.outlook.Rests (s.next e).outlook :=
  rests_of_closed closed.connection fun i port refusal _ => closed.connect i port refusal

/-- A closed link takes nothing: a call that waits for a payload has waited for it before. -/
theorem Closed.sending (closed : s.Closed) {i x : Nat} {errand : Errand}
    (stage : (s.next e).stage? i = some (.sending x errand)) :
    s.stage? i = some (.sending x errand) := by
  rcases next_sends s stage with before | ⟨-, -, p, -, move⟩
  · exact before
  · generalize (s.next e).link.traffic = after at move
    cases move with
    | post _ _ here => exact absurd (closed.connection.symm.trans here) (by simp)

end Session

end Cnc
