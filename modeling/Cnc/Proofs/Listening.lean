import Mathlib.Data.List.Induction
import Cnc.Proofs.Outlook
import Cnc.Proofs.Transfers

/-!
# Calls that listen to the link

A call that waits for a setting to be reported has a subscription to the
events of the link from when it begins until it finishes. The subscription is
its own (`Session.Listening`), so the call misses nothing: where it is on the
bus is where it was when it began, past what it has heard since
(`Session.next_hears`). Only events that it has let too many others follow
are lost.
-/

namespace Cnc

namespace EventBus

variable {E : Type} {b b' : EventBus E} {sub p : Nat} {q : Option Nat}

/-- What a subscriber will hear of the events so far. -/
def unheard (b : EventBus E) (sub : Nat) : List E :=
  ((b.position? sub).map fun p => b.log.drop (max p b.oldest)).getD []

/-- The bus with one subscriber elsewhere. -/
def seek (b : EventBus E) (sub : Nat) (q : Option Nat) : EventBus E :=
  { b with positions := b.positions.set sub q }

/-- **The subscribers are where they were**, and some events were published. -/
structure Grows (b b' : EventBus E) : Prop where
  capacity : b'.capacity = b.capacity
  log : b.log <+: b'.log
  positions : b'.positions = b.positions

theorem Grows.refl (b : EventBus E) : b.Grows b := ⟨rfl, List.prefix_rfl, rfl⟩

theorem Grows.publish (b : EventBus E) (e : E) : b.Grows (b.publish e) :=
  ⟨rfl, List.prefix_append _ _, rfl⟩

theorem Grows.position? (h : b.Grows b') (sub : Nat) : b'.position? sub = b.position? sub := by
  rw [EventBus.position?, EventBus.position?, h.positions]

theorem position?_seek_self (there : b.position? sub = some p) :
    (b.seek sub q).position? sub = q := by
  have inside : sub < b.positions.length := by
    by_contra outside
    simp [position?, List.getElem?_eq_none (Nat.le_of_not_lt outside)] at there
  simp [position?, seek, inside]

theorem position?_seek_ne {other : Nat} (apart : other ≠ sub) :
    (b.seek sub q).position? other = b.position? other := by
  simp [position?, seek, Ne.symm apart]

/-- Whoever leaves is nowhere. -/
theorem position?_unsubscribe_self (b : EventBus E) (sub : Nat) :
    (b.unsubscribe sub).position? sub = none := by
  rcases Nat.lt_or_ge sub b.positions.length with inside | outside
  · simp [position?, unsubscribe, inside]
  · simp [position?, unsubscribe, outside]

theorem position?_subscribe_self (b : EventBus E) :
    b.subscribe.position? b.nextSubscription = some b.log.length := by
  simp [position?, subscribe, nextSubscription]

/-- Another subscription leaves the subscribers where they are. -/
theorem position?_subscribe_ne (other : sub ≠ b.nextSubscription) :
    b.subscribe.position? sub = b.position? sub := by
  rw [nextSubscription] at other
  rcases Nat.lt_or_gt_of_ne other with inside | outside
  · rw [position?, subscribe, List.getElem?_append_left inside, position?]
  · have after : (b.positions ++ [some b.log.length])[sub]? = none :=
      List.getElem?_eq_none (by simpa using Nat.succ_le_of_lt outside)
    have before : b.positions[sub]? = none := List.getElem?_eq_none (Nat.le_of_lt outside)
    rw [position?, subscribe, after, position?, before]

/-- A new subscription is no old one. -/
theorem ne_nextSubscription (there : b.position? sub = some p) : sub ≠ b.nextSubscription := by
  rintro rfl
  simp [position?, nextSubscription] at there

/-- **What a subscriber may hear**, and where it is then. -/
inductive Receives (b : EventBus E) (sub : Nat) : Option (Heard E) × EventBus E → Prop
  | silent (all : ∀ p, b.position? sub = some p → b.log.length ≤ p) : Receives b sub (none, b)
  | lagged {p : Nat} (there : b.position? sub = some p) (behind : p < b.oldest) :
    Receives b sub (some (.lagged (b.oldest - p)), b.seek sub (some b.oldest))
  | event {p : Nat} {e : E} (there : b.position? sub = some p) (kept : b.oldest ≤ p)
      (found : b.log[p]? = some e) :
    Receives b sub (some (.event e), b.seek sub (some (p + 1)))

theorem receives (b : EventBus E) (sub : Nat) : b.Receives sub (b.receive sub) := by
  unfold receive
  cases there : b.position? sub with
  | none => exact .silent fun p same => absurd (there.symm.trans same) (by simp)
  | some p =>
    dsimp only
    split
    · next behind => exact .lagged there behind
    · next kept =>
      split
      · next e found => exact .event there (Nat.not_lt.mp kept) found
      · next beyond =>
        refine .silent fun p' same => ?_
        obtain rfl := Option.some.inj (there.symm.trans same)
        exact List.getElem?_eq_none_iff.mp beyond

/-- Hearing something and leaving is leaving. -/
theorem unsubscribe_receive (b : EventBus E) (sub : Nat) :
    (b.receive sub).2.unsubscribe sub = b.unsubscribe sub := by
  have received := b.receives sub
  generalize b.receive sub = r at received
  cases received <;> simp [unsubscribe, seek]

/-- Whoever hears everything is at the end then. -/
theorem drain_cases (b : EventBus E) (sub : Nat) :
    (b.drain sub).2 = b ∨ (b.drain sub).2 = b.seek sub (some b.log.length) := by
  unfold drain
  split
  · exact .inl rfl
  · exact .inr rfl

/-- **What is not heard yet only gets less** when a subscriber moves on or leaves. -/
theorem unheard_seek_subset {p' : Nat} (there : b.position? sub = some p) (forward : p ≤ p')
    (other : Nat) : (b.seek sub (some p')).unheard other ⊆ b.unheard other := by
  intro e member
  by_cases own : other = sub
  · subst own
    rw [unheard, position?_seek_self there] at member
    rw [unheard, there]
    have further : max p b.oldest ≤ max p' b.oldest := by omega
    exact (List.drop_sublist_drop_left b.log further).subset member
  · rwa [unheard, position?_seek_ne own] at member

theorem unheard_unsubscribe_subset (b : EventBus E) (sub other : Nat) :
    (b.unsubscribe sub).unheard other ⊆ b.unheard other := by
  intro e member
  by_cases own : other = sub
  · subst own
    rw [unheard, position?_unsubscribe_self] at member
    exact absurd member (by simp)
  · rw [unheard, show b.unsubscribe sub = b.seek sub none from rfl, position?_seek_ne own] at member
    exact member

/-- Whoever comes and goes at once hears nothing. -/
theorem unheard_subscribe_unsubscribe (b : EventBus E) (sub : Nat) :
    (b.subscribe.unsubscribe b.nextSubscription).unheard sub ⊆ b.unheard sub := by
  intro e member
  by_cases own : sub = b.nextSubscription
  · rw [own, unheard, position?_unsubscribe_self] at member
    exact absurd member (by simp)
  · rw [unheard, show b.subscribe.unsubscribe b.nextSubscription
      = b.subscribe.seek b.nextSubscription none from rfl, position?_seek_ne own,
      position?_subscribe_ne own] at member
    exact member

theorem unheard_receive_subset (b : EventBus E) (sub other : Nat) :
    (b.receive sub).2.unheard other ⊆ b.unheard other := by
  have received := b.receives sub
  generalize b.receive sub = r at received
  cases received with
  | silent => exact fun _ member => member
  | lagged there behind => exact unheard_seek_subset there (Nat.le_of_lt behind) other
  | event there => exact unheard_seek_subset there (Nat.le_succ _) other

/-- Whoever hears nothing is at the end. -/
theorem length_le_of_silent (silent : (b.receive sub).1 = none)
    (there : b.position? sub = some p) : b.log.length ≤ p := by
  have received := b.receives sub
  generalize b.receive sub = r at received silent
  cases received with
  | silent all => exact all p there
  | _ => exact absurd silent (by simp)

/-- Whoever hears nothing has heard everything. -/
theorem unheard_of_silent (silent : (b.receive sub).1 = none) : b.unheard sub = [] := by
  cases there : b.position? sub with
  | none => simp [unheard, there]
  | some p => simpa [unheard, there] using .inl (length_le_of_silent silent there)

/-- What is heard was not heard before. -/
theorem mem_unheard_of_receive {e : E} (heard : (b.receive sub).1 = some (.event e)) :
    e ∈ b.unheard sub := by
  have received := b.receives sub
  generalize b.receive sub = r at received heard
  cases received with
  | event there kept found =>
    obtain rfl := Heard.event.inj (Option.some.inj heard)
    simp only [unheard, there, Option.map_some, Option.getD_some, Nat.max_eq_left kept]
    exact List.mem_of_getElem? (i := 0) (by simpa using found)
  | _ => exact absurd heard (by simp)

end EventBus

/-- Only a call that begins to confirm a setting comes to listen. -/
theorem CallStage.Follows.subscription {st st' : CallStage} {sub : Nat} (follows : st.Follows st')
    (listens : st'.subscription? = some sub) :
    st.subscription? = some sub ∨
      ∃ id value delay timeout, st = .begin (.confirmSetting id value delay timeout) := by
  cases follows with
  | stay => exact .inl listens
  | @send c x e fits =>
    cases e with
    | setting delay confirmation =>
      cases confirmation with
      | none => exact absurd listens (by simp [subscription?])
      | some => cases c <;> simp_all [Errand.fits]
    | _ => exact absurd listens (by simp [subscription?])
  | @steer c x e fits =>
    cases e with
    | setting delay confirmation => cases confirmation <;> simp [Errand.fits] at fits
    | _ => exact absurd listens (by simp [subscription?])
  | count x e =>
    cases e with
    | setting delay confirmation =>
      cases confirmation with
      | none => exact absurd listens (by simp [subscription?])
      | some c => exact .inl listens
    | _ => exact absurd listens (by simp [subscription?])
  | confirm => exact .inl listens
  | _ => exact absurd listens (by simp [subscription?])

namespace Session

variable {s t : Session} {e : Event} {i sub : Nat}

/-- **The call listens** to the events of the link. -/
def Listens (s : Session) (i sub : Nat) : Prop :=
  ∃ st, s.stage? i = some st ∧ st.subscription? = some sub

/-- **Every call that listens has a subscription of its own**; the first one is the observer's. -/
structure Listening (s : Session) : Prop where
  there : ∀ i sub, s.Listens i sub →
    ∃ p, s.link.events.position? sub = some p ∧ p ≤ s.link.events.log.length
  apart : ∀ i j sub, s.Listens i sub → s.Listens j sub → i = j
  observer : ∀ i sub, s.Listens i sub → sub ≠ 0
  observed : 0 < s.link.events.positions.length

/-! ## The turn of a call -/

/-- **What the turn of the call `i` does to the subscriptions.** -/
inductive Tunes (s : Session) (i : Nat) (t : Session) : Prop
  | grows (grows : s.link.events.Grows t.link.events)
      (same : ∀ sub, t.Listens i sub → s.Listens i sub)
  | subscribes (isOpen : s.link.connection.isSome = true)
      (events : t.link.events = s.link.events.subscribe)
      (own : ∀ sub, t.Listens i sub → sub = s.link.events.nextSubscription)
  | refused (events : t.link.events
        = s.link.events.subscribe.unsubscribe s.link.events.nextSubscription)
      (silent : ∀ sub, ¬ t.Listens i sub)
  | leaves {sub : Nat} (own : s.Listens i sub)
      (events : t.link.events = s.link.events.unsubscribe sub) (silent : ∀ sub, ¬ t.Listens i sub)
  | hears {key : String} {sub deadline : Nat} {h : Heard LinkEvent}
      (stage : s.stage? i = some (.confirming key sub deadline))
      (heard : (s.link.events.receive sub).1 = some h) (other : verdict? key h = none)
      (events : t.link.events = (s.link.events.receive sub).2) (stays : t.stage? i = s.stage? i)

/-- A call that has returned does not listen. -/
theorem not_listens_of_none (gone : t.stage? i = none) (sub : Nat) : ¬ t.Listens i sub := by
  rintro ⟨st, stage, -⟩
  exact absurd (gone.symm.trans stage) (by simp)

theorem not_listens_finish (t : Session) (i : Nat) (r : Result) (sub : Nat) :
    ¬ (t.finish i r).Listens i sub :=
  not_listens_of_none (by simp) sub

/-- A call comes to listen only when it begins. -/
theorem listens_of_callTurn {st : CallStage} (stage : s.stage? i = some st)
    (other : ∀ id value delay timeout, st ≠ .begin (.confirmSetting id value delay timeout))
    (listens : (s.callTurn i).Listens i sub) : s.Listens i sub := by
  obtain ⟨st', stage', own⟩ := listens
  rcases (callTurn_goesOn stage st' stage').subscription own with before | ⟨_, _, _, _, begins⟩
  · exact ⟨st, stage, before⟩
  · exact absurd begins (other _ _ _ _)

theorem connect_grows (s : Session) (i : Nat) (port : String) (refusal : Option DeviceFault) :
    s.link.events.Grows (s.connect i port refusal).link.events := by
  unfold connect
  cases s.link.connection with
  | some c => exact .refl _
  | none =>
    cases refusal with
    | some fault => simpa [finish, give] using EventBus.Grows.refl s.link.events
    | none => simpa [finish, give] using EventBus.Grows.publish s.link.events (.connected port)

theorem endConnection_grows (s : Session) :
    s.link.events.Grows s.endConnection.link.events := by
  cases here : s.link.connection with
  | none => simpa [endConnection, here] using EventBus.Grows.refl s.link.events
  | some c =>
    simpa [alike_endConnection here] using EventBus.Grows.publish s.link.events .disconnected

theorem beginConfirmation_tunes {id : UInt16} {value : String} {delay timeout : Nat} :
    s.Tunes i (s.beginConfirmation i id value delay timeout) := by
  unfold beginConfirmation
  dsimp only
  split
  · exact .refused rfl (not_listens_finish _ i _)
  · next x t posted =>
    have isOpen : s.link.connection.isSome = true := by
      obtain ⟨c, here, -⟩ := Option.map_eq_some_iff.mp posted
      exact Option.isSome_iff_exists.mpr ⟨c, here⟩
    refine .subscribes isOpen (events_of_view (post?_view posted)) ?_
    rintro sub ⟨st, stage, own⟩
    rw [stage?_setStage, if_pos rfl] at stage
    obtain ⟨-, -, rfl⟩ := Option.map_eq_some_iff.mp stage
    exact (Option.some.inj own).symm

theorem confirmTurn_tunes {key : String} {sub deadline : Nat}
    (stage : s.stage? i = some (.confirming key sub deadline)) :
    s.Tunes i (s.confirmTurn i key sub deadline) := by
  have own : s.Listens i sub := ⟨_, stage, rfl⟩
  have stays : s.Tunes i s := .grows (.refl _) fun _ => id
  unfold confirmTurn
  dsimp only
  split
  · split
    · exact .leaves own rfl (not_listens_finish _ i _)
    · exact .grows (.refl _) fun _ => id
  · split
    · split
      · exact .leaves own rfl (not_listens_finish _ i _)
      · exact stays
    · next heard events received =>
      have first : (s.link.events.receive sub).1 = some heard := by rw [received]
      have second : (s.link.events.receive sub).2 = events := by rw [received]
      have left : events.unsubscribe sub = s.link.events.unsubscribe sub := by
        rw [← second, EventBus.unsubscribe_receive]
      split
      · next other => exact .hears stage first other second.symm rfl
      · refine .leaves own left ?_
        rintro sub' ⟨st, stage', listens⟩
        have stage' : ((Session.unsubscribe (Session.spend { s with link.events := events })
            sub).setStage i (.lookingUp key)).stage? i = some st := stage'
        rw [stage?_setStage, if_pos rfl] at stage'
        obtain ⟨-, -, rfl⟩ := Option.map_eq_some_iff.mp stage'
        exact absurd listens (by simp [CallStage.subscription?])
      · exact .leaves own left (not_listens_finish _ i _)

/-- **The turn of a call** moves no subscription but its own. -/
theorem callTurn_tunes (s : Session) (i : Nat) : s.Tunes i (s.callTurn i) := by
  cases stage : s.stage? i with
  | none =>
    have same : s.callTurn i = s := by simp [callTurn, stage]
    exact same.symm ▸ .grows (.refl _) fun _ => id
  | some st =>
    have same (other) (sub : Nat) (listens : (s.callTurn i).Listens i sub) : s.Listens i sub :=
      listens_of_callTurn stage other listens
    have still (view : (s.callTurn i).view = s.view) (other) : s.Tunes i (s.callTurn i) :=
      .grows (events_of_view view ▸ .refl _) (same other)
    by_cases silent : st.tunes = false
    · have other : ∀ id value delay timeout,
          st ≠ .begin (.confirmSetting id value delay timeout) := by
        rintro id value delay timeout rfl
        exact absurd silent (by simp [CallStage.tunes])
      by_cases keeps : ∀ c, s.stage? i = some (.begin c) → c.clears = false
      · refine still (callTurn_view keeps fun st' stage' => ?_) other
        rwa [← Option.some.inj (stage.symm.trans stage')]
      · push Not at keeps
        obtain ⟨c, begins, clears⟩ := keeps
        have turn : s.callTurn i = s.beginCall i c := by simp only [callTurn, begins]
        refine .grows ?_ (same other)
        rw [turn]
        cases c with
        | connect port refusal => exact connect_grows s i port refusal
        | disconnect => exact endConnection_grows s
        | resetSettings => exact .refl _
        | _ => exact absurd rfl clears
    · cases st with
      | begin c =>
        cases c with
        | confirmSetting id value delay timeout =>
          have turn : s.callTurn i = s.beginConfirmation i id value delay timeout := by
            simp only [callTurn, stage, beginCall]
          exact turn ▸ beginConfirmation_tunes
        | _ => exact absurd rfl silent
      | sending x errand =>
        have own : ∃ delay c, errand = .setting delay (some c) := by
          cases errand with
          | setting delay confirmation =>
            cases confirmation with
            | none => exact absurd rfl silent
            | some c => exact ⟨delay, c, rfl⟩
          | _ => exact absurd rfl silent
        obtain ⟨delay, c, rfl⟩ := own
        have listens : s.Listens i c.subscription := ⟨_, stage, rfl⟩
        cases told : s.link.delivery? x with
        | none =>
          have turn : s.callTurn i = s := by simp [callTurn, stage, told]
          exact turn.symm ▸ .grows (.refl _) fun _ => id
        | some d =>
          cases fails : d.error? with
          | some f =>
            have turn : s.callTurn i = s.failErrand i (.setting delay (some c)) f := by
              simp [callTurn, stage, told, fails]
            exact turn ▸ .leaves listens rfl (not_listens_finish _ i _)
          | none =>
            have turn : s.callTurn i = s.countErrand i x (.setting delay (some c)) := by
              simp [callTurn, stage, told, fails]
            exact still (turn ▸ countErrand_view _ _ _ _) (by simp)
      | counting x errand =>
        have turn : s.callTurn i
            = s.use (.call i) .stats (·.countSent x) (·.doErrand i x errand) := by
          simp only [callTurn, stage]
        exact still (turn ▸ use_view (countSent_view · x) (doErrand_view · i x errand)) (by simp)
      | confirming key sub deadline =>
        have turn : s.callTurn i = s.confirmTurn i key sub deadline := by
          simp only [callTurn, stage]
        exact turn ▸ confirmTurn_tunes stage
      | _ => exact absurd rfl silent

/-! ## Every event -/

theorem readerTurn_grows (s : Session) : s.link.events.Grows s.readerTurn.link.events := by
  have chore (u : Session) (ch : Chore) : u.link.events.Grows (u.doChore ch).link.events := by
    cases ch with
    | publish e =>
      have published : (u.publish e).link.events = u.link.events.publish e := by simp
      exact published ▸ .publish _ e
    | setStatus status =>
      have same : (u.setStatus status).link.events = u.link.events := by simp
      exact same ▸ .refl _
    | settle a =>
      show u.link.events.Grows (u.settleAnswer a).link.events
      unfold settleAnswer
      split
      · exact .refl _
      · split
        · exact .refl _
        · next t rest _ =>
          rw [(alike_answer _ t _).2.1]
          exact .refl _
    | _ => exact .refl _
  unfold readerTurn
  split
  · exact .refl _
  · next c _ =>
    split
    · next ch rest _ =>
      have done (u : Session) : u.link.events.Grows
          ((u.withConnection { c with chores := rest }).doChore ch).link.events :=
        chore (u.withConnection { c with chores := rest }) ch
      unfold readerChore
      dsimp only
      split
      · next g _ =>
        rcases use_cases s .reader g
          (fun s => (s.withConnection { c with chores := rest }).doChore ch) (·.again .reader)
          with alike | ⟨u, alike, same⟩
        · rw [alike.2.1]
          exact .refl _
        · rw [same, (alike_again _ _).2.1, (alike_leave _ _).2.1, ← alike.2.1]
          exact done u
      · exact done s
    · exact .refl _
    · exact .refl _
    · exact endConnection_grows s
    · exact .refl _
    · exact endConnection_grows s

/-- **Only host calls and the observer move subscriptions.** -/
theorem next_grows (s : Session) (notCall : ∀ i, e ≠ .act (.call i)) (notObserve : e ≠ .observe) :
    s.link.events.Grows (s.next e).link.events := by
  have still {t : Session} (same : t.link.events = s.link.events) :
      s.link.events.Grows t.link.events := same ▸ .refl _
  have woken (u : Session) (a : Actor) : (u.wake a).link.events = u.link.events :=
    congrArg Link.events (alike_wake u a).2.1
  cases e with
  | act a =>
    by_cases reader : a = .reader
    · subst reader
      exact readerTurn_grows s
    · exact still (events_of_view (act_view reader fun i own => notCall i (congrArg Event.act own)))
  | call i c =>
    refine still ?_
    show (if _ then _ else _ : Session).link.events = _
    split
    · rfl
    · exact woken _ _
  | device i d =>
    refine still ?_
    show (if _ then _ else _ : Session).link.events = _
    split
    · rfl
    · unfold deviceAct
      split
      · rfl
      · cases d with
        | send | hangUp | failRead | unstall => exact woken _ _
        | _ => rfl
  | observe => exact absurd rfl notObserve
  | schedule | elapse => exact .refl _

/-- **What an event does to the events**: it publishes some. -/
theorem next_log (s : Session) (e : Event) :
    s.link.events.log <+: (s.next e).link.events.log ∧
      (s.next e).link.events.capacity = s.link.events.capacity ∧
      s.link.events.positions.length ≤ (s.next e).link.events.positions.length := by
  by_cases call : ∃ i, e = .act (.call i)
  · obtain ⟨i, rfl⟩ := call
    have tunes := callTurn_tunes s i
    change _ <+: (s.callTurn i).link.events.log ∧ _
    change _ ∧ (s.callTurn i).link.events.capacity = _ ∧
      _ ≤ (s.callTurn i).link.events.positions.length
    cases tunes with
    | grows grows => exact ⟨grows.log, grows.capacity, by rw [grows.positions]⟩
    | subscribes _ events | refused events =>
      rw [events]
      exact ⟨List.prefix_rfl, rfl, by simp [EventBus.subscribe, EventBus.unsubscribe]⟩
    | leaves _ events =>
      rw [events]
      exact ⟨List.prefix_rfl, rfl, by simp [EventBus.unsubscribe]⟩
    | @hears key sub _ _ _ _ _ events =>
      rw [events]
      have received := s.link.events.receives sub
      generalize s.link.events.receive sub = r at received
      cases received <;> exact ⟨List.prefix_rfl, rfl, by simp [EventBus.seek]⟩
  · by_cases observes : e = .observe
    · subst observes
      show _ <+: (s.link.events.drain 0).2.log ∧ (s.link.events.drain 0).2.capacity = _ ∧
        _ ≤ (s.link.events.drain 0).2.positions.length
      rcases s.link.events.drain_cases 0 with same | moved
      · rw [same]
        exact ⟨List.prefix_rfl, rfl, Nat.le_refl _⟩
      · rw [moved]
        exact ⟨List.prefix_rfl, rfl, by simp [EventBus.seek]⟩
    · have grows := next_grows s (fun i own => call ⟨i, own⟩) observes
      exact ⟨grows.log, grows.capacity, by rw [grows.positions]⟩

/-- **Where a call that listens is on the bus** after an event: where it was, at the end if it has
just begun, or past what it has just heard. -/
inductive Hears (s : Session) (e : Event) (i sub : Nat) : Prop
  | kept (before : s.Listens i sub)
      (position : (s.next e).link.events.position? sub = s.link.events.position? sub)
  | begun (own : e = .act (.call i)) (isOpen : s.link.connection.isSome = true)
      (fresh : sub = s.link.events.nextSubscription)
      (position : (s.next e).link.events.position? sub = some s.link.events.log.length)
  | heard {key : String} {deadline : Nat} {h : Heard LinkEvent} (own : e = .act (.call i))
      (stage : s.stage? i = some (.confirming key sub deadline))
      (heard : (s.link.events.receive sub).1 = some h) (other : verdict? key h = none)
      (events : (s.next e).link.events = (s.link.events.receive sub).2)

theorem Hears.before (hears : s.Hears e i sub) :
    s.Listens i sub ∨ (e = .act (.call i) ∧ sub = s.link.events.nextSubscription) := by
  cases hears with
  | kept before => exact .inl before
  | begun own _ fresh => exact .inr ⟨own, fresh⟩
  | heard _ stage => exact .inl ⟨_, stage, rfl⟩

/-- A call that listens after what others did has listened before. -/
theorem Listens.of_next (listens : (s.next e).Listens i sub) (other : e ≠ .act (.call i)) :
    s.Listens i sub := by
  obtain ⟨st', stage', own⟩ := listens
  rcases next_follows s e stage' with ⟨st, stage, -⟩ | ⟨c, -, -, rfl⟩
  · have same := (stage?_next s other stage).symm.trans stage'
    exact ⟨st, stage, by rw [Option.some.inj same, own]⟩
  · exact absurd own (by simp [CallStage.subscription?])

/-- **Nobody moves a call that listens** but itself. -/
theorem next_hears (listening : s.Listening) (listens : (s.next e).Listens i sub) :
    s.Hears e i sub := by
  by_cases own : e = .act (.call i)
  · subst own
    have tunes := callTurn_tunes s i
    change (s.callTurn i).Listens i sub at listens
    cases tunes with
    | grows grows same => exact .kept (same sub listens) (grows.position? sub)
    | subscribes isOpen events fresh =>
      have fresh := fresh sub listens
      refine .begun rfl isOpen fresh ?_
      show (s.callTurn i).link.events.position? sub = _
      rw [events, fresh, EventBus.position?_subscribe_self]
    | refused _ silent | leaves _ _ silent => exact absurd listens (silent sub)
    | @hears key sub' deadline h stage heard other events stays =>
      obtain ⟨st, stage', own⟩ := listens
      obtain rfl := Option.some.inj (stage.symm.trans (stays.symm.trans stage'))
      obtain rfl := Option.some.inj own
      exact .heard rfl stage heard other events
  · have before := listens.of_next own
    obtain ⟨p, there, -⟩ := listening.there i sub before
    refine .kept before ?_
    by_cases call : ∃ j, e = .act (.call j)
    · obtain ⟨j, rfl⟩ := call
      have apart (sub' : Nat) (other : s.Listens j sub') : sub ≠ sub' := by
        rintro rfl
        exact own (by rw [listening.apart i j sub before other])
      have tunes := callTurn_tunes s j
      show (s.callTurn j).link.events.position? sub = _
      cases tunes with
      | grows grows => exact grows.position? sub
      | subscribes _ events =>
        rw [events]
        exact EventBus.position?_subscribe_ne (EventBus.ne_nextSubscription there)
      | refused events =>
        have old := EventBus.ne_nextSubscription there
        rw [events]
        exact (EventBus.position?_seek_ne old).trans (EventBus.position?_subscribe_ne old)
      | leaves other events =>
        rw [events]
        exact EventBus.position?_seek_ne (apart _ other)
      | @hears key sub' _ _ stage _ _ events =>
        have other := apart sub' ⟨_, stage, rfl⟩
        rw [events]
        have received := s.link.events.receives sub'
        generalize s.link.events.receive sub' = r at received
        cases received with
        | silent => rfl
        | lagged | event => exact EventBus.position?_seek_ne other
    · by_cases observes : e = .observe
      · subst observes
        show (s.link.events.drain 0).2.position? sub = _
        rcases s.link.events.drain_cases 0 with same | moved
        · rw [same]
        · rw [moved]
          exact EventBus.position?_seek_ne (listening.observer i sub before)
      · exact (next_grows s (fun j same => call ⟨j, same⟩) observes).position? sub

theorem Listening.next (listening : s.Listening) (e : Event) : (s.next e).Listening := by
  obtain ⟨log, -, grown⟩ := next_log s e
  have known {i sub : Nat} (before : s.Listens i sub) : sub ≠ s.link.events.nextSubscription := by
    obtain ⟨p, there, -⟩ := listening.there i sub before
    exact EventBus.ne_nextSubscription there
  constructor
  case there =>
    intro i sub listens
    cases next_hears listening listens with
    | kept before position =>
      obtain ⟨p, there, bound⟩ := listening.there i sub before
      exact ⟨p, position.trans there, Nat.le_trans bound log.length_le⟩
    | begun _ _ _ position => exact ⟨_, position, log.length_le⟩
    | heard _ _ heard _ events =>
      rw [events]
      have received := s.link.events.receives sub
      generalize s.link.events.receive sub = r at received heard
      cases received with
      | silent => exact absurd heard (by simp)
      | lagged there => exact ⟨_, EventBus.position?_seek_self there, Nat.sub_le _ _⟩
      | event there _ found =>
        have inside := (List.getElem?_eq_some_iff.mp found).1
        exact ⟨_, EventBus.position?_seek_self there, inside⟩
  case apart =>
    intro i j sub own other
    rcases (next_hears listening own).before with before | ⟨rfl, fresh⟩
    · rcases (next_hears listening other).before with before' | ⟨-, fresh⟩
      · exact listening.apart i j sub before before'
      · exact absurd fresh (known before)
    · rcases (next_hears listening other).before with before' | ⟨same, -⟩
      · exact absurd fresh (known before')
      · exact Actor.call.inj (Event.act.inj same)
  case observer =>
    intro i sub listens
    rcases (next_hears listening listens).before with before | ⟨-, rfl⟩
    · exact listening.observer i sub before
    · exact Nat.ne_of_gt listening.observed
  case observed => exact Nat.lt_of_lt_of_le listening.observed grown

theorem listening_initial (timeout : Option Nat) : (initial timeout).Listening where
  there := by simp [Listens, initial, stage?]
  apart := by simp [Listens, initial, stage?]
  observer := by simp [Listens, initial, stage?]
  observed := by simp [initial, Link.initial, EventBus.standard, EventBus.subscribe]

/-- **In every session that can be reached**, every call that listens has its own subscription. -/
theorem listening_after (timeout : Option Nat) (es : List Event) :
    ((initial timeout).after es).Listening :=
  after_induction (listening_initial timeout) (fun _ e listening => listening.next e) es

/-- The bus of the link always keeps the same number of events. -/
theorem capacity_after (timeout : Option Nat) (es : List Event) :
    ((initial timeout).after es).link.events.capacity = 256 :=
  after_induction (P := fun s => s.link.events.capacity = 256) rfl
    (fun s e same => (next_log s e).2.1.trans same) es

end Session

end Cnc
