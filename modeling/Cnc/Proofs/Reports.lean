import Cnc.Proofs.Intake
import Cnc.Proofs.Listening
import Cnc.Proofs.Reachable

/-!
# Where reports of settings come from

The reader stores a setting that a frame reports, and then publishes the
report. No other turn does either, and the settings are otherwise only
forgotten as a whole. So once a report of a setting was published in a run,
the value that is stored for it was reported in a frame that was received in
that run, or that the reader was still busy with when the run began
(`Session.reported_after`).

The reader may be interrupted between storing and publishing. What it is about
to publish is what is stored, unless the settings were forgotten meanwhile
(`Session.Filing`). As long as none are forgotten, every setting whose report
was published is stored (`Session.Entered`).
-/

namespace Cnc

/-! ## The chores that a report makes -/

/-- The setting that a chore stores or publishes, and its value. -/
def Chore.setting? : Chore → Option (String × String)
  | .store id value | .publish (.setting id value) => some (id, value)
  | _ => none

/-- **Every setting that is stored is published right after**, and no other one is. -/
inductive Chore.Sound : List Chore → Prop
  | nil : Sound []
  | report (id value : String) {rest : List Chore} (sound : Sound rest) :
    Sound (.store id value :: .publish (.setting id value) :: rest)
  | other {ch : Chore} {rest : List Chore} (plain : ch.setting? = none) (sound : Sound rest) :
    Sound (ch :: rest)

namespace Chore

/-- The chores of several frames are sound. -/
theorem sound_of_frames (frames : List Frame) : Sound (frames.flatMap Frame.chores) := by
  induction frames with
  | nil => exact .nil
  | cons f frames ih =>
    rw [List.flatMap_cons]
    generalize frames.flatMap Frame.chores = rest at ih
    cases f with
    | status raw =>
      cases report : MachineStatus.parse raw.toList <;> simp only [Frame.chores, report] <;>
        exact .other rfl (.other rfl (.other rfl ih))
    | setting id value => exact .other rfl (.report id value ih)
    | log line =>
      cases ack : (Frame.log line).ack? <;> cases alarm : (Frame.log line).alarm? <;>
        simp only [Frame.chores, ack, alarm]
      · exact .other rfl (.other rfl ih)
      · exact .other rfl (.other rfl (.other rfl ih))
      · exact .other rfl (.other rfl (.other rfl (.other rfl ih)))
      · exact .other rfl (.other rfl (.other rfl (.other rfl (.other rfl ih))))

/-- What the chores of a frame store and publish is what the frame reports. -/
theorem setting?_of_chores (f : Frame) :
    f.chores.filterMap setting? = f.entry?.toList.flatMap fun e => [e, e] := by
  cases f with
  | status raw => cases report : MachineStatus.parse raw.toList <;> simp [Frame.chores, report,
      setting?, Frame.entry?]
  | setting id value => rfl
  | log line =>
    cases ack : (Frame.log line).ack? <;> cases alarm : (Frame.log line).alarm? <;>
      simp [Frame.chores, ack, alarm, setting?, Frame.entry?]

theorem mem_frames_of_setting? {frames : List Frame} {ch : Chore} {id value : String}
    (member : ch ∈ frames.flatMap Frame.chores) (reports : ch.setting? = some (id, value)) :
    .setting id value ∈ frames := by
  obtain ⟨f, found, own⟩ := List.mem_flatMap.mp member
  have told : (id, value) ∈ f.chores.filterMap setting? := List.mem_filterMap.mpr ⟨ch, own, reports⟩
  rw [setting?_of_chores] at told
  cases f with
  | setting id' value' =>
    have same : (id, value) = (id', value') := by simpa [Frame.entry?] using told
    obtain ⟨rfl, rfl⟩ := Prod.mk.inj same
    exact found
  | status raw | log line => exact absurd told (by simp [Frame.entry?])

end Chore

namespace Traffic

variable {t u : Traffic} {d : Deed} {ds : List Deed}

/-- Who does not read leaves the reader's chores alone, or ends or opens the connection. -/
theorem Move.chores_aside (h : Move t d u) (notRead : d ≠ .read) (noAck : d.ack? = none) :
    u.chores = t.chores ∨ u.chores = [] := by
  cases h with
  | «open» | close => exact .inr rfl
  | settle => exact absurd noAck (by simp [Deed.ack?])
  | chore | read | timeout => exact absurd rfl notRead
  | post _ _ here | device _ here => exact .inl (by simp [Traffic.chores, here])
  | poll _ here | clear here | takeRealtime here | takeLine here | place here | send here
  | refuseLine here | refuseRealtime here | spoilLine here | spoilRealtime here | giveUp here =>
    exact .inl (by simp [Traffic.chores, here])

theorem Moves.chores_aside (h : Moves t ds u)
    (notReader : ∀ d ∈ ds, d ≠ .read ∧ d.ack? = none) : u.chores = t.chores ∨ u.chores = [] := by
  induction h with
  | nil => exact .inl rfl
  | @cons t v u d ds first _ ih =>
    obtain ⟨notRead, noAck⟩ := notReader d List.mem_cons_self
    rcases ih fun d' member => notReader d' (List.mem_cons_of_mem _ member) with same | none
    · exact (first.chores_aside notRead noAck).imp same.trans same.trans
    · exact .inr none

end Traffic

namespace Session

open Traffic

variable {s t s₀ : Session} {e : Event} {es : List Event}

/-! ## What an event does to the settings -/

/-- What the reader has still to do with what it has read. -/
def chores (s : Session) : List Chore := s.link.traffic.chores

/-- **The frames that are received** in an event: those that the reader cuts the piece into that it
reads. -/
def received (s : Session) (e : Event) : List Frame :=
  match s.link.connection, s.piece? e with
  | some c, some piece => (c.splitter.feed piece).2
  | _, _ => []

/-- No setting is reported: what is stored stays, or a call forgets it, and no report is
published. -/
structure Untold (s t : Session) : Prop where
  settings : t.link.settings = s.link.settings ∨
    t.link.settings = .empty ∧ ∃ i, s.stage? i = some (.begin .resetSettings)
  events : ∃ new, t.link.events.log = s.link.events.log ++ new ∧
    ∀ id value, .setting id value ∉ new

theorem Untold.of_outlook (settings : t.outlook.settings = s.outlook.settings)
    (events : t.outlook.events = s.outlook.events) : s.Untold t :=
  ⟨.inl settings, [], by simpa [outlook] using events, by simp⟩

theorem Untold.of_same (outlook : t.outlook = s.outlook) : s.Untold t :=
  .of_outlook (congrArg Outlook.settings outlook) (congrArg Outlook.events outlook)

/-- **What an event does with reports of settings.** -/
inductive Relays (s : Session) (e : Event) (t : Session) : Prop
  | aside (chores : t.chores = s.chores ∨ t.chores = []) (untold : s.Untold t)
  /-- The reader does the next chore. -/
  | chore {ch : Chore} {rest : List Chore} (first : s.chores = ch :: rest) (rest : t.chores = rest)
    (outlook : t.outlook = s.outlook.does ch)
  /-- The reader reads on. -/
  | read {count : Nat}
    (chores : t.chores = .countBytes count :: (s.received e).flatMap Frame.chores)
    (untold : s.Untold t)

theorem untold_of_closing (c : Connection) (here : s.link.connection = some c)
    (ended : t.link = s.endConnection.link) : s.Untold t := by
  have link := (alike_endConnection here).2.1
  exact ⟨.inl (by rw [ended, link]), [.disconnected], by rw [ended, link]; rfl, by simp⟩

/-- Nobody but the reader reports anything. -/
theorem next_untold (notReader : e ≠ .act .reader) : s.Untold (s.next e) := by
  cases e with
  | act a =>
    by_cases begins : ∃ i d, a = .call i ∧ s.stage? i = some (.begin d) ∧ d.clears = true
    · obtain ⟨i, d, rfl, stage, clears⟩ := begins
      have turn : s.next (.act (.call i)) = s.beginCall i d := by
        show s.callTurn i = _
        simp only [callTurn, stage]
      rw [turn]
      cases d with
      | connect port refusal =>
        show s.Untold (s.connect i port refusal)
        cases here : s.link.connection with
        | some c => simp only [connect, here]; exact .of_outlook rfl rfl
        | none =>
          cases refusal with
          | some fault =>
            exact ⟨.inl (by simp [connect, here, finish, give]), [],
              by simp [connect, here, finish, give], by simp⟩
          | none =>
            have link := (alike_connect here i port).2.1
            exact ⟨.inl (by rw [link]), [.connected port], by rw [link]; rfl, by simp⟩
      | disconnect =>
        cases here : s.link.connection with
        | none =>
          have ended : s.endConnection = s := by simp [endConnection, here]
          simp only [beginCall, ended]
          exact .of_outlook rfl rfl
        | some c => exact untold_of_closing c here rfl
      | resetSettings =>
        exact ⟨.inr ⟨rfl, i, stage⟩, [], by simp [beginCall, finish, give], by simp⟩
      | _ => exact absurd clears (by simp [Call.clears])
    · have outlook : (s.next (.act a)).outlook = s.outlook :=
        act_outlook (fun reader => notReader (congrArg Event.act reader)) fun i d own stage => by
          by_contra clears
          exact begins ⟨i, d, own, stage, by simpa using clears⟩
      exact .of_same outlook
  | call i d =>
    have outlook : (s.next (.call i d)).outlook = s.outlook := by
      show outlook (if _ then _ else _) = _
      split
      · rfl
      · exact (alike_wake _ _).outlook
    exact .of_same outlook
  | device i d =>
    have outlook : (s.next (.device i d)).outlook = s.outlook := by
      show outlook (if _ then _ else _) = _
      split
      · rfl
      · cases here : s.link.connection with
        | none => simp only [deviceAct, here]
        | some c => exact (alike_deviceAct here d).outlook
    exact .of_same outlook
  | observe => exact .of_outlook rfl (EventBus.drain_log _ 0)
  | schedule | elapse => exact .of_outlook rfl rfl

/-- **Only the reader stores settings and publishes reports of them.** -/
theorem next_relays (s : Session) (e : Event) : s.Relays e (s.next e) := by
  by_cases reader : e = .act .reader
  · subst reader
    cases here : s.link.connection with
    | none =>
      have same : s.next (.act .reader) = s := by
        show s.readerTurn = s
        simp [readerTurn, here]
      exact same.symm ▸ .aside (.inl rfl) (.of_same rfl)
    | some c =>
      have before : s.chores = c.chores := by simp [chores, Traffic.chores, Link.traffic, here]
      cases there : (s.next (.act .reader)).link.connection with
      | none =>
        obtain ⟨a, own, closing⟩ := closing_of_closed (by simp [here]) there
        exact .aside (.inr (by simp [chores, Traffic.chores, Link.traffic, there]))
          (untold_of_closing c here ((congrArg (fun e => (s.next e).link) own).trans closing.act.1))
      | some c' =>
        have after : (s.next (.act .reader)).chores = c'.chores := by
          simp [chores, Traffic.chores, Link.traffic, there]
        have reading : s.Reading c (s.next (.act .reader)) c' := readerTurn_reading here there
        generalize s.next (.act .reader) = t at reading after
        cases reading with
        | wait _ outlook =>
          exact .aside (.inl (after.trans before.symm)) (.of_same outlook)
        | chore _ first outlook => exact .chore (before.trans first) after outlook
        | @read bs rest done first outlook =>
          have received : s.received (.act .reader) = (c.splitter.feed (bs.take readSize)).2 := by
            simp [received, here, piece?, done, first]
          have read : t.chores = .countBytes (bs.take readSize).length
              :: (s.received (.act .reader)).flatMap Frame.chores := by
            rw [received, after]
            rfl
          exact .read read (.of_same outlook)
        | timeout done _ outlook =>
          exact .aside (.inl (after.trans before.symm)) (.of_same outlook)
  · obtain ⟨ds, moves, does⟩ := next_trades s e
    exact .aside (moves.chores_aside fun d member => (does d member).notReader reader)
      (next_untold reader)

/-! ## What is stored is what was received -/

/-- **The reader is at a report**: what it is about to publish is what is stored, unless the
settings were forgotten meanwhile. -/
inductive Filing (s : Session) : Prop
  | whole (sound : Chore.Sound s.chores)
  | stored {id value : String} {rest : List Chore}
    (first : s.chores = .publish (.setting id value) :: rest) (sound : Chore.Sound rest)
    (known : s.link.settings.get? id = some value ∨ s.link.settings.get? id = none)

theorem Filing.next (filing : s.Filing) (e : Event) : (s.next e).Filing := by
  have relays := next_relays s e
  generalize s.next e = t at relays
  cases relays with
  | aside chores untold =>
    rcases chores with same | none
    · cases filing with
      | whole sound => exact .whole (same ▸ sound)
      | @stored id _ _ first sound known =>
        refine .stored (same.trans first) sound ?_
        rcases untold.settings with kept | ⟨forgotten, -⟩
        · rwa [kept]
        · exact .inr (by rw [forgotten]; rfl)
    · exact .whole (none ▸ .nil)
  | chore first rest outlook =>
    cases filing with
    | whole sound =>
      rw [first] at sound
      cases sound with
      | report id value sound =>
        refine .stored rest sound (.inl ?_)
        have settings : t.link.settings = s.link.settings.insert id value :=
          congrArg Outlook.settings outlook
        rw [settings, Settings.get?_insert_self]
      | other _ sound => exact .whole (rest ▸ sound)
    | stored own sound =>
      obtain ⟨-, rfl⟩ := List.cons.inj (own.symm.trans first)
      exact .whole (rest ▸ sound)
  | read chores => exact .whole (chores ▸ .other rfl (Chore.sound_of_frames _))

theorem Reachable.filing (reachable : s.Reachable) : s.Filing := by
  obtain ⟨timeout, es, rfl⟩ := reachable
  exact after_induction (.whole .nil) (fun _ e filing => filing.next e) es

/-- **A value of a setting was reported in a run** from `s₀`: in a frame that was received in it, or
that the reader was still busy with when it began. -/
def Reported (s₀ : Session) (es : List Event) (id value : String) : Prop :=
  (∃ h ∈ s₀.history es, .setting id value ∈ h.1.received h.2) ∨
    ∃ ch ∈ s₀.chores, ch.setting? = some (id, value)

theorem Reported.later {id value : String} (reported : s₀.Reported es id value) (e : Event) :
    s₀.Reported (es ++ [e]) id value := by
  refine reported.imp_left fun ⟨h, member, own⟩ => ⟨h, ?_, own⟩
  rw [history_concat]
  exact List.mem_append_left _ member

/-- What the reader has still to do was reported. -/
theorem reported_of_chore (s₀ : Session) (es : List Event) :
    ∀ ch ∈ (s₀.after es).chores, ∀ id value, ch.setting? = some (id, value) →
      s₀.Reported es id value := by
  induction es using List.reverseRecOn with
  | nil => exact fun ch member id value own => .inr ⟨ch, member, own⟩
  | append_singleton es e ih =>
    intro ch member id value own
    rw [after_append, after_cons, after_nil] at member
    have relays := next_relays (s₀.after es) e
    generalize (s₀.after es).next e = t at relays member
    cases relays with
    | aside chores =>
      rcases chores with same | none
      · exact (ih ch (same ▸ member) id value own).later e
      · exact absurd (none ▸ member) (by simp)
    | chore first rest =>
      have left : ch ∈ (s₀.after es).chores := by
        rw [first, ← rest]
        exact List.mem_cons_of_mem _ member
      exact (ih ch left id value own).later e
    | read chores =>
      refine .inl ⟨(s₀.after es, e), by rw [history_concat]; simp, ?_⟩
      rw [chores] at member
      rcases List.mem_cons.mp member with rfl | later
      · exact absurd own (by simp [Chore.setting?])
      · exact Chore.mem_frames_of_setting? later own

/-- Events of the link are only added. -/
theorem log_after (s : Session) (es : List Event) :
    s.link.events.log <+: (s.after es).link.events.log :=
  after_induction (P := fun t => s.link.events.log <+: t.link.events.log) List.prefix_rfl
    (fun t e before => before.trans (next_log t e).1) es

/-- **Once a report of a setting was published in a run**, what is stored for it was reported in
that run. -/
theorem reported_after (reachable : s₀.Reachable) (es : List Event) {id value value' : String}
    (published : .setting id value' ∈
      (s₀.after es).link.events.log.drop s₀.link.events.log.length)
    (stored : (s₀.after es).link.settings.get? id = some value) : s₀.Reported es id value := by
  induction es using List.reverseRecOn generalizing value value' with
  | nil => exact absurd published (by simp)
  | append_singleton es e ih =>
    rw [after_append, after_cons, after_nil] at published stored
    have relays := next_relays (s₀.after es) e
    have filing := (reachable.after es).filing
    have grown := (log_after s₀ es).length_le
    have told := reported_of_chore s₀ es
    generalize (s₀.after es).next e = t at relays published stored
    -- nothing was published or stored
    have of_untold (untold : (s₀.after es).Untold t) : s₀.Reported (es ++ [e]) id value := by
      obtain ⟨settings, new, log, none⟩ := untold
      rw [log, List.drop_append_of_le_length grown] at published
      have before := (List.mem_append.mp published).resolve_right (none id value')
      rcases settings with kept | ⟨forgotten, -⟩
      · exact (ih before (kept ▸ stored)).later e
      · exact absurd (forgotten ▸ stored) (by simp [Settings.empty, Settings.get?])
    cases relays with
    | aside _ none | read _ none => exact of_untold none
    | @chore ch rest first _ outlook =>
      have known := told ch (by rw [first]; exact List.mem_cons_self)
      have settings := congrArg Outlook.settings outlook
      have events := congrArg Outlook.events outlook
      cases ch with
      | store id' value'' =>
        have settings : t.link.settings = (s₀.after es).link.settings.insert id' value'' := settings
        have events : t.link.events.log = (s₀.after es).link.events.log := events
        by_cases own : id = id'
        · subst own
          rw [settings, Settings.get?_insert_self] at stored
          obtain rfl := Option.some.inj stored
          exact (known id value'' rfl).later e
        · rw [settings, Settings.get?_insert_of_ne _ _ own] at stored
          exact (ih (events ▸ published) stored).later e
      | publish told' =>
        have settings : t.link.settings = (s₀.after es).link.settings := settings
        have events : t.link.events.log = (s₀.after es).link.events.log ++ [told'] := events
        rw [settings] at stored
        rw [events, List.drop_append_of_le_length grown] at published
        rcases List.mem_append.mp published with before | now
        · exact (ih before stored).later e
        · obtain rfl := List.mem_singleton.mp now
          cases filing with
          | whole sound =>
            rw [first] at sound
            cases sound with
            | other plain => exact absurd plain (by simp [Chore.setting?])
          | stored own _ same =>
            obtain ⟨head, -⟩ := List.cons.inj (own.symm.trans first)
            obtain ⟨rfl, rfl⟩ := LinkEvent.setting.inj (Chore.publish.inj head)
            rcases same with same | forgotten
            · obtain rfl := Option.some.inj (same.symm.trans stored)
              exact (known _ _ rfl).later e
            · exact absurd (forgotten.symm.trans stored) (by simp)
      | _ => exact of_untold (.of_outlook settings events)

/-! ## What is published is stored -/

/-- **Every setting that was reported since `s₀` is stored**, and so is the one whose report the
reader is about to publish. -/
structure Entered (s₀ s : Session) : Prop where
  known : ∀ id value, .setting id value ∈ s.link.events.log.drop s₀.link.events.log.length →
    s.link.settings.get? id ≠ none
  chores : Chore.Sound s.chores ∨ ∃ id value rest,
    s.chores = .publish (.setting id value) :: rest ∧ Chore.Sound rest ∧
      s.link.settings.get? id ≠ none

/-- Unless the settings are forgotten, what was reported stays stored. -/
theorem Entered.next (entered : s₀.Entered s)
    (grown : s₀.link.events.log.length ≤ s.link.events.log.length)
    (unforgotten : ∀ i, s.stage? i ≠ some (.begin .resetSettings)) (e : Event) :
    s₀.Entered (s.next e) := by
  have relays := next_relays s e
  generalize s.next e = t at relays
  -- nothing is stored or published
  have still (untold : s.Untold t) : t.link.settings = s.link.settings ∧
      ∀ id value, .setting id value ∈ t.link.events.log.drop s₀.link.events.log.length →
        t.link.settings.get? id ≠ none := by
    obtain ⟨kept | ⟨-, i, resets⟩, new, log, none⟩ := untold
    · refine ⟨kept, fun id value member => ?_⟩
      rw [log, List.drop_append_of_le_length grown] at member
      rw [kept]
      exact entered.known id value ((List.mem_append.mp member).resolve_right (none id value))
    · exact absurd resets (unforgotten i)
  cases relays with
  | aside chores untold =>
    obtain ⟨kept, known⟩ := still untold
    refine ⟨known, ?_⟩
    rcases chores with same | none
    · rw [same, kept]
      exact entered.chores
    · exact .inl (none ▸ .nil)
  | read chores untold =>
    exact ⟨(still untold).2, .inl (chores ▸ .other rfl (Chore.sound_of_frames _))⟩
  | @chore ch rest first left outlook =>
    have settings := congrArg Outlook.settings outlook
    have events := congrArg Outlook.events outlook
    rcases entered.chores with sound | ⟨id, value, rest', own, sound, stored⟩
    · rw [first] at sound
      cases sound with
      | report id value sound =>
        have settings : t.link.settings = s.link.settings.insert id value := settings
        have events : t.link.events.log = s.link.events.log := events
        refine ⟨fun id' value' member => ?_, .inr ⟨id, value, _, left, sound, ?_⟩⟩
        · rw [settings]
          by_cases same : id' = id
          · subst same
            simp [Settings.get?_insert_self]
          · rw [Settings.get?_insert_of_ne _ _ same]
            exact entered.known id' value' (events ▸ member)
        · simp [settings, Settings.get?_insert_self]
      | other plain sound =>
        refine ⟨fun id value member => ?_, .inl (left ▸ sound)⟩
        cases ch with
        | store id' value' => exact absurd plain (by simp [Chore.setting?])
        | publish told =>
          have settings : t.link.settings = s.link.settings := settings
          have events : t.link.events.log = s.link.events.log ++ [told] := events
          rw [events, List.drop_append_of_le_length grown] at member
          rw [settings]
          rcases List.mem_append.mp member with before | now
          · exact entered.known id value before
          · rw [← List.mem_singleton.mp now] at plain
            exact absurd plain (by simp [Chore.setting?])
        | _ => exact (still (.of_outlook settings events)).2 id value member
    · obtain ⟨rfl, rfl⟩ := List.cons.inj (own.symm.trans first)
      have settings : t.link.settings = s.link.settings := settings
      have events : t.link.events.log = s.link.events.log ++ [.setting id value] := events
      refine ⟨fun id' value' member => ?_, .inl (left ▸ sound)⟩
      rw [events, List.drop_append_of_le_length grown] at member
      rw [settings]
      rcases List.mem_append.mp member with before | now
      · exact entered.known id' value' before
      · obtain ⟨rfl, rfl⟩ := LinkEvent.setting.inj (List.mem_singleton.mp now)
        exact stored

end Session

end Cnc
