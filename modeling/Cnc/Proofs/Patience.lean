import Cnc.Proofs.ClosedLink
import Cnc.Proofs.Jobs
import Cnc.Proofs.Quiescence

/-!
# Runs in which things happen one after the other

A run is patient if something from outside – a call, the device, time, the
observer – happens only when nobody has anything left to do. The steps of a
session are made in this way (`Session.played_prompt`), but the order of the
turns in between is free.

A connection can end in a turn of the reader, which has come to the end of
the input, or in a turn of a call that disconnects. In a patient run nothing
else is going on then: no port is being opened, and no call that resumes a
job knows more than that its command was handed over
(`Session.Patient.settled`).
-/

namespace Cnc

namespace Session

/-- **Something from outside happens only when everybody waits.** -/
def Patient (s : Session) (es : List Event) : Prop :=
  ∀ fs e gs, es = fs ++ e :: gs → e.isTurn = false → (s.after fs).Quiescent

/-- **No port is being opened, and no call that resumes a job knows that its command was sent.** -/
structure Settled (s : Session) : Prop where
  connect : ∀ i port refusal, s.stage? i ≠ some (.begin (.connect port refusal))
  sending : ∀ i x, s.stage? i = some (.sending x .resume) → s.link.delivery? x ≠ some .sent
  counting : ∀ i x, s.stage? i ≠ some (.counting x .resume)

variable {s t : Session} {e : Event} {es : List Event}

theorem Patient.init (patient : s.Patient (es ++ [e])) : s.Patient es := by
  rintro fs f gs rfl outside
  exact patient fs f (gs ++ [e]) (by simp) outside

/-! ## Who ends a connection -/

/-- **An actor that ends the connection when it has a turn.** -/
inductive Closing (s : Session) : Actor → Prop
  | hangUp {c : Connection} {x : Incoming} {rest : List Incoming}
      (here : s.link.connection = some c) (done : c.chores = []) (first : c.inbox = x :: rest)
      (ends : x.ends = true) : Closing s .reader
  | disconnect {i : Nat} (stage : s.stage? i = some (.begin .disconnect)) : Closing s (.call i)

theorem Closing.of_alike {a : Actor} (closing : s.Closing a) (alike : t.Alike s) : t.Closing a := by
  cases closing with
  | hangUp here done first ends => exact .hangUp (alike.2.1 ▸ here) done first ends
  | disconnect stage => exact .disconnect ((alike.stage? _).trans stage)

/-- What a closing actor does is end the connection. -/
theorem Closing.act {a : Actor} (closing : s.Closing a) :
    (s.act a).link = s.endConnection.link ∧ (s.act a).streamer = s.streamer := by
  have still : s.endConnection.streamer = s.streamer :=
    congrArg Controlled.streamer (endConnection_controlled s)
  cases closing with
  | @hangUp c x rest here done first ends =>
    have reads : s.act .reader = s.endConnection := by
      show s.readerTurn = _
      unfold readerTurn
      cases x with
      | bytes bs => simp [Incoming.ends] at ends
      | eof => simp only [here, done, first]
      | fault f =>
        cases f with
        | timedOut => simp [Incoming.ends] at ends
        | _ => simp only [here, done, first]
    rw [reads]
    exact ⟨rfl, still⟩
  | @disconnect i stage =>
    have acts : s.act (.call i) = s.endConnection.finish i .ok := by
      show s.callTurn i = _
      unfold callTurn
      rw [stage]
      rfl
    rw [acts]
    exact ⟨rfl, still⟩

theorem endConnection_connection (s : Session) : s.endConnection.link.connection = none := by
  cases here : s.link.connection with
  | none => simp [endConnection, here]
  | some c => simp [alike_endConnection here]

/-- **The link after a closing turn.** -/
theorem Closing.link {a : Actor} {c : Connection} (closing : s.Closing a)
    (here : s.link.connection = some c) : (s.act a).link =
      { s.link with
        posts := markDelivered (markAnswered s.link.posts c.slots .lost) c.waiting .lost
        connection := none
        status := .disconnected
        events := s.link.events.publish .disconnected } :=
  closing.act.1.trans (alike_endConnection here).2.1

theorem Closing.move {a : Actor} {c : Connection} (closing : s.Closing a)
    (here : s.link.connection = some c) :
    Traffic.Move s.link.traffic .close (s.act a).link.traffic := by
  rw [closing.link here]
  exact .close here

/-- **A connection ends in the turn of a closing actor.** -/
theorem closing_of_closed (isOpen : s.link.connection.isSome = true)
    (closed : (s.next e).link.connection = none) : ∃ a, e = .act a ∧ s.Closing a := by
  obtain ⟨ds, moves, does⟩ := next_trades s e
  have close : .close ∈ ds := by
    clear does
    generalize here : s.link.traffic = t at moves
    generalize there : (s.next e).link.traffic = u at moves
    replace isOpen : t.connection.isSome = true := here ▸ isOpen
    replace closed : u.connection = none := there ▸ closed
    clear here there
    induction moves with
    | nil t => simp [closed] at isOpen
    | @cons t v u d ds first rest ih =>
      by_cases lasts : v.connection.isSome = true
      · exact List.mem_cons_of_mem _ (ih lasts closed)
      · cases first with
        | close => exact List.mem_cons_self
        | _ => exact absurd rfl lasts
  cases does _ close with
  | hangUp here done first ends => exact ⟨_, rfl, .hangUp here done first ends⟩
  | disconnect stage => exact ⟨_, rfl, .disconnect stage⟩
  | write own => exact absurd own (by simp [Traffic.Deed.byWriter])

/-! ## What is left to be done -/

/-- **Nobody is about to end the connection**, now or in a later turn. -/
structure Undisturbed (s : Session) : Prop where
  inbox : ∀ c, s.link.connection = some c → ∀ x ∈ c.inbox, x.ends = false
  calls : ∀ i, s.stage? i ≠ some (.begin .disconnect)

theorem Undisturbed.not_closing (undisturbed : s.Undisturbed) (a : Actor) : ¬ s.Closing a := by
  intro closing
  cases closing with
  | hangUp here done first ends =>
    have lasts := undisturbed.inbox _ here _ (first ▸ List.mem_cons_self)
    exact absurd ends (by simp [lasts])
  | disconnect stage => exact undisturbed.calls _ stage

/-- In a turn, the device does nothing. -/
theorem not_device_of_isTurn (turn : e.isTurn = true) {d : Traffic.Deed} (does : s.Does e d)
    (a : DeviceAction) : d ≠ .device a := by
  rintro rfl
  obtain ⟨i, rfl⟩ := does.of_device
  exact absurd turn (by simp [Event.isTurn])

/-- What is in the inbox was there before, or is the rest of some bytes. -/
theorem inbox_of_move {t u : Traffic} {d : Traffic.Deed} (h : Traffic.Move t d u)
    (notDevice : ∀ a, d ≠ .device a) {c' : Connection} (there : u.connection = some c')
    {x : Incoming} (member : x ∈ c'.inbox) :
    x.ends = false ∨ ∃ c, t.connection = some c ∧ x ∈ c.inbox := by
  cases h with
  | post _ _ here =>
    obtain rfl := Option.some.inj there
    exact .inr ⟨_, here, by simpa using member⟩
  | device a here => exact absurd rfl (notDevice a)
  | @read c bs rest here done first =>
    obtain rfl := Option.some.inj there
    simp only [Connection.readPiece] at member
    split at member
    · exact .inr ⟨_, here, first ▸ List.mem_cons_of_mem _ member⟩
    · rcases List.mem_cons.mp member with rfl | later
      · exact .inl rfl
      · exact .inr ⟨_, here, first ▸ List.mem_cons_of_mem _ later⟩
  | timeout here done first =>
    obtain rfl := Option.some.inj there
    exact .inr ⟨_, here, first ▸ List.mem_cons_of_mem _ member⟩
  | close here => exact absurd there (by simp)
  | «open» port closed =>
    obtain rfl := Option.some.inj there
    exact absurd member (by simp [Connection.fresh])
  | takeRealtime here | takeLine here | place here | send here | refuseLine here
  | refuseRealtime here | spoilLine here | spoilRealtime here | giveUp here | settle here
  | chore here | poll _ here | clear here =>
    obtain rfl := Option.some.inj there
    exact .inr ⟨_, here, member⟩

theorem Undisturbed.next (undisturbed : s.Undisturbed) (turn : e.isTurn = true) :
    (s.next e).Undisturbed := by
  refine ⟨?_, fun i stage => undisturbed.calls i (stage?_begin_of_isTurn turn stage)⟩
  obtain ⟨ds, moves, does⟩ := next_trades s e
  have keeps : ∀ d ∈ ds, ∀ a, d ≠ .device a := fun d made => not_device_of_isTurn turn (does d made)
  have start := undisturbed.inbox
  show ∀ c, (s.next e).link.traffic.connection = some c → ∀ x ∈ c.inbox, x.ends = false
  change ∀ c, s.link.traffic.connection = some c → ∀ x ∈ c.inbox, x.ends = false at start
  clear does undisturbed
  generalize s.link.traffic = t at moves start
  generalize (s.next e).link.traffic = u at moves
  induction moves with
  | nil t => exact start
  | cons first rest ih =>
    refine ih (fun d made => keeps d (List.mem_cons_of_mem _ made)) fun c' there x member => ?_
    rcases inbox_of_move first (keeps _ List.mem_cons_self) there member with
      lasts | ⟨c, here, before⟩
    · exact lasts
    · exact start c here x before

/-! ## One thing after the other -/

/-- **All but one wait, and that one ends the connection.** -/
structure Poised (s : Session) (a : Actor) : Prop where
  closing : s.Closing a
  others : ∀ b, b ≠ a → s.Waits b

/-- One that waits has begun what it does. -/
theorem Waits.begun {i : Nat} (waits : s.Waits (.call i)) (c : Call) :
    s.stage? i ≠ some (.begin c) := by
  intro stage
  simp [Waits, stage] at waits

/-- Calls that wait, but for one that disconnects, open no port and know of no command that was
sent. -/
theorem settled_of_waits (waits : ∀ i st, s.stage? i = some st → st ≠ .begin .disconnect →
    s.Waits (.call i)) : s.Settled := by
  refine ⟨fun i port refusal stage => ?_, fun i x stage => ?_, fun i x stage => ?_⟩
  · exact (waits i _ stage (by simp)).begun _ stage
  · have unknown := waits i _ stage (by simp)
    simp only [Waits, stage] at unknown
    simp [unknown]
  · have never := waits i _ stage (by simp)
    simp only [Waits, stage] at never

theorem Poised.settled {a : Actor} (poised : s.Poised a) : s.Settled := by
  refine settled_of_waits fun i st stage other => poised.others _ fun same => ?_
  have closing := poised.closing
  rw [← same] at closing
  cases closing with
  | disconnect here => exact other (Option.some.inj (stage.symm.trans here))

theorem Settled.of_alike (settled : s.Settled) (alike : t.Alike s) : t.Settled where
  connect i port refusal stage := settled.connect i port refusal ((alike.stage? i).symm.trans stage)
  sending i x stage := by
    rw [alike.2.1]
    exact settled.sending i x ((alike.stage? i).symm.trans stage)
  counting i x stage := settled.counting i x ((alike.stage? i).symm.trans stage)

/-- What an actor waits for does not depend on the other calls. -/
theorem Waits.of_calls {a : Actor} (waits : s.Waits a) (now : t.now = s.now)
    (link : t.link = s.link) (streamer : t.streamer = s.streamer)
    (refreshers : t.refreshers = s.refreshers)
    (own : ∀ i, a = .call i → t.stage? i = s.stage? i) : t.Waits a := by
  cases a with
  | call i => simpa only [Waits, now, link, streamer, own i rfl] using waits
  | _ =>
    simpa only [Waits, task?, poller?, refresher?, now, link, streamer, refreshers] using waits

/-- What an actor other than the reader waits for does not depend on the inbox. -/
theorem Waits.of_inbox {a : Actor} {c : Connection} (waits : s.Waits a) (notReader : a ≠ .reader)
    (here : s.link.connection = some c) (inbox : List Incoming)
    (alike : t.Alike (s.withConnection { c with inbox })) : t.Waits a := by
  refine Waits.of_alike alike ?_
  cases a with
  | reader => exact absurd rfl notReader
  | poller n => simpa [Waits, poller?, withConnection, Link.delivery?, here] using waits
  | writer => simpa [Waits, withConnection, here] using waits
  | _ => exact waits

theorem undisturbed_of_waits (waits : ∀ a, s.Waits a) : s.Undisturbed where
  inbox c here := by
    have reader := waits .reader
    simp only [Waits, here] at reader
    simp [reader.2]
  calls i := (waits (.call i)).begun _

theorem Undisturbed.of_same (undisturbed : s.Undisturbed) (calls : t.calls = s.calls)
    (inbox : ∀ c', t.link.connection = some c' →
      ∀ x ∈ c'.inbox, x.ends = false ∨ ∃ c, s.link.connection = some c ∧ x ∈ c.inbox) :
    t.Undisturbed where
  inbox c' there x member := by
    rcases inbox c' there x member with lasts | ⟨c, here, before⟩
    · exact lasts
    · exact undisturbed.inbox c here x before
  calls i stage := undisturbed.calls i ((stage?_congr calls i).symm.trans stage)

/-- The device changes the open connection. -/
theorem alike_deviceAct {c : Connection} (here : s.link.connection = some c) (d : DeviceAction) :
    (s.deviceAct d).Alike (s.withConnection (c.driven d)) := by
  unfold deviceAct
  rw [here]
  cases d with
  | send | hangUp | failRead | unstall => exact alike_wake _ _
  | _ => exact .refl _

/-- The device ends the connection, or sends something that does not. -/
theorem driven_inbox (c : Connection) (d : DeviceAction) :
    (∃ x, x.ends = true ∧ c.driven d = { c with inbox := c.inbox ++ [x] }) ∨
      ∀ x ∈ (c.driven d).inbox, x.ends = false ∨ x ∈ c.inbox := by
  have sends (x : Incoming) (lasts : x.ends = false) :
      ∀ y ∈ c.inbox ++ [x], y.ends = false ∨ y ∈ c.inbox := by
    intro y member
    rcases List.mem_append.mp member with before | new
    · exact .inr before
    · exact .inl (by rw [List.mem_singleton.mp new, lasts])
  cases d with
  | send bs => exact .inr (sends _ rfl)
  | hangUp => exact .inl ⟨.eof, rfl, rfl⟩
  | failRead f =>
    cases f with
    | timedOut => exact .inr (sends _ rfl)
    | _ => exact .inl ⟨_, rfl, rfl⟩
  | _ => exact .inr fun x member => .inr member

/-- **Something from outside lets at most one actor end the connection**, when everybody waits. -/
theorem outside_of_waits (waits : ∀ a, s.Waits a) (outside : e.isTurn = false) :
    (s.next e).Undisturbed ∨ ∃ a, (s.next e).Poised a := by
  have undisturbed := undisturbed_of_waits waits
  cases e with
  | schedule | act => exact absurd outside (by simp [Event.isTurn])
  | elapse | observe =>
    exact .inl (undisturbed.of_same rfl fun c here x member => .inr ⟨c, here, member⟩)
  | call i c =>
    by_cases taken : (s.stage? i).isSome = true
    · rw [show s.next (.call i c) = s from if_pos taken]
      exact .inl undisturbed
    · have absent : s.stage? i = none := Option.not_isSome_iff_eq_none.mp taken
      rw [show s.next (.call i c) = s.begin i (.call c) from if_neg taken]
      have alike : (s.begin i (.call c)).Alike { s with calls := s.calls ++ [(i, .begin c)] } :=
        alike_wake _ _
      have stage (j : Nat) : (s.begin i (.call c)).stage? j
          = if j = i then some (.begin c) else s.stage? j :=
        (alike.stage? j).trans (stage?_added absent c j)
      by_cases ends : c = .disconnect
      · refine .inr ⟨.call i, .disconnect (by rw [stage, if_pos rfl, ends]), fun a other => ?_⟩
        refine (waits a).of_calls alike.1 alike.2.1 alike.2.2.1 alike.2.2.2.2.1 fun j own => ?_
        rw [stage, if_neg fun same => other (by rw [own, same])]
      · refine .inl ⟨fun c here x member => ?_, fun j begins => ?_⟩
        · exact undisturbed.inbox c (alike.2.1 ▸ here) x member
        · rw [stage] at begins
          split at begins
          · exact ends (CallStage.begin.inj (Option.some.inj begins))
          · exact undisturbed.calls j begins
  | device i d =>
    by_cases never : s.link.opened = 0
    · rw [show s.next (.device i d) = s.give i .noDevice from if_pos never]
      exact .inl (undisturbed.of_same rfl fun c here x member => .inr ⟨c, here, member⟩)
    · rw [show s.next (.device i d) = s.deviceAct d from if_neg never]
      cases here : s.link.connection with
      | none => exact .inl (by simpa [deviceAct, here] using undisturbed)
      | some c =>
        have alike := alike_deviceAct here d
        have reader := waits .reader
        simp only [Waits, here] at reader
        rcases driven_inbox c d with ⟨x, ends, driven⟩ | lasts
        · rw [driven] at alike
          refine .inr ⟨.reader, Closing.of_alike ?_ alike, fun a other => ?_⟩
          · exact .hangUp rfl reader.1 (by rw [reader.2]; rfl) ends
          · exact (waits a).of_inbox other here _ alike
        · refine .inl ⟨fun c' there x member => ?_, fun j stage => ?_⟩
          · obtain rfl := Option.some.inj (there.symm.trans (congrArg Link.connection alike.2.1))
            refine (lasts x member).elim id fun before => ?_
            exact undisturbed.inbox c here x before
          · exact undisturbed.calls j ((alike.stage? j).symm.trans stage)

/-- **What is going on in a patient run**: nobody is about to end the connection, or one actor is
and all others wait, or the link is closed. -/
theorem Patient.cases (timeout : Option Nat) (patient : (initial timeout).Patient es) :
    ((initial timeout).after es).Undisturbed
      ∨ (∃ t a, Poised t a ∧ ((initial timeout).after es).Alike t)
      ∨ ((initial timeout).after es).Closed := by
  induction es using List.reverseRecOn with
  | nil => exact .inl ⟨by simp [initial, Link.initial], by simp [initial, stage?]⟩
  | append_singleton es e ih =>
    rw [after_append, after_cons, after_nil]
    by_cases turn : e.isTurn = true
    · rcases ih patient.init with undisturbed | ⟨t, a, poised, alike⟩ | closed
      · exact .inl (undisturbed.next turn)
      · generalize (initial timeout).after es = s at alike
        cases e with
        | schedule => exact .inr (.inl ⟨t, a, poised, alike⟩)
        | act b =>
          by_cases own : b = a
          · subst own
            refine .inr (.inr ⟨?_, fun i port refusal stage => ?_⟩)
            · show (s.act b).link.connection = none
              rw [(poised.closing.of_alike alike).act.1, endConnection_connection]
            · exact (poised.settled.of_alike alike).connect i port refusal
                (stage?_begin_of_isTurn turn stage)
          · have waits := (poised.others b own).of_alike alike
            exact .inr (.inl ⟨t, a, poised, waits.act.trans alike⟩)
        | _ => exact absurd turn (by simp [Event.isTurn])
      · exact .inr (.inr (closed.next turn))
    · have outside : e.isTurn = false := by simpa using turn
      have quiescent := patient es e [] rfl outside
      have waits := (locked_after timeout es).quiescent_iff.mp quiescent
      rcases outside_of_waits waits outside with undisturbed | ⟨a, poised⟩
      · exact .inl undisturbed
      · exact .inr (.inl ⟨_, a, poised, .refl _⟩)

/-- **When a connection ends in a patient run, nothing else is going on.** -/
theorem Patient.settled (timeout : Option Nat) (patient : (initial timeout).Patient es)
    (isOpen : ((initial timeout).after es).link.connection.isSome = true)
    (closed : (((initial timeout).after es).next e).link.connection = none) :
    ((initial timeout).after es).Settled := by
  obtain ⟨a, -, closing⟩ := closing_of_closed isOpen closed
  rcases patient.cases timeout with undisturbed | ⟨t, b, poised, alike⟩ | before
  · exact absurd closing (undisturbed.not_closing a)
  · exact poised.settled.of_alike alike
  · exact absurd isOpen (by simp [before.connection])

end Session

end Cnc
