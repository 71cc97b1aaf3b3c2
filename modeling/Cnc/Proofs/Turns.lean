import Cnc.Proofs.Event
import Cnc.Proofs.Operations

/-!
# What a turn does to the traffic

Every turn of every actor, and everything else that can happen next in a
session, is a list of moves of the link's traffic – mostly none or one. Who
makes a move is part of the statement (`Session.Does`): only the sender posts
its payload, only the writer brings payloads to the wire, only the reader
gives answers away, and answers are given up only by a call that knows that
its soft reset was sent.
-/

namespace Cnc

open Traffic

/-- Whether a deed is the writer's. -/
def Traffic.Deed.byWriter : Deed → Bool
  | .take | .place _ | .send _ | .fail .. | .giveUp _ => true
  | _ => false

/-- The payload that a deed tries to bring to the wire, and how that ends. -/
def Traffic.Deed.attempt? : Deed → Option (Nat × Delivery)
  | .send x => some (x, .sent)
  | .fail x f => some (x, .failed f)
  | _ => none

/-- How the next try of a connection ends. -/
def Connection.prospect (c : Connection) : Delivery :=
  if 0 < c.writeFaults then .failed .write
  else if 0 < c.flushFaults then .failed .flush
  else .sent

/-- Whether the connection ends when the reader comes to this. -/
def Incoming.ends : Incoming → Bool
  | .bytes _ | .fault .timedOut => false
  | .eof | .fault _ => true

namespace Session

/-- **Who changes the pollers**: a call that adds one, and the pollers themselves. -/
inductive Polls (s : Session) : Actor → Prop
  | add {i interval : Nat} (stage : s.stage? i = some (.begin (.poll interval))) :
    Polls s (.call i)
  | note (n : Nat) : Polls s (.poller n)

/-- **Who does what.** -/
inductive Does (s : Session) : Event → Deed → Prop
  | post (a : Actor) (p : Payload) : Does s (.act a) (.post a p)
  | write {d : Deed} (own : d.byWriter = true) : Does s (.act .writer) d
  | settle (a : Ack) : Does s (.act .reader) (.settle a)
  | read : Does s (.act .reader) .read
  | device (i : Nat) (d : DeviceAction) : Does s (.device i d) (.device d)
  | poll {a : Actor} (polls : s.Polls a) : Does s (.act a) .poll
  | clear {i x : Nat} {errand : Errand} (stage : s.stage? i = some (.sending x errand))
      (reset : errand.isReset = true) (sent : s.link.delivery? x = some .sent) :
      Does s (.act (.call i)) .clear
  | hangUp {c : Connection} {x : Incoming} {rest : List Incoming}
      (here : s.link.connection = some c) (done : c.chores = []) (first : c.inbox = x :: rest)
      (ends : x.ends = true) : Does s (.act .reader) .close
  | disconnect {i : Nat} (stage : s.stage? i = some (.begin .disconnect)) :
      Does s (.act (.call i)) .close
  | open {i : Nat} {port : String} (stage : s.stage? i = some (.begin (.connect port none))) :
      Does s (.act (.call i)) .open

/-- **What an event that leads from `s` to `t` does to the traffic**, when it is one thing at
most. -/
def Makes (s : Session) (e : Event) (t : Session) : Prop :=
  t.link.traffic = s.link.traffic ∨ ∃ d, Move s.link.traffic d t.link.traffic ∧ s.Does e d

namespace Makes

variable {s t u : Session} {e : Event}

/-- Nothing was done to the traffic. -/
theorem nothing (h : t.link.traffic = s.link.traffic) : s.Makes e t := .inl h

/-- Only who acts next was decided. -/
theorem alike (h : t.Alike s) : s.Makes e t := nothing (congrArg Link.traffic h.2.1)

/-- One thing was done to the traffic. -/
theorem single {d : Deed} {v : Traffic} (move : Move s.link.traffic d v) (does : s.Does e d)
    (h : t.link.traffic = v) : s.Makes e t :=
  .inr ⟨d, h ▸ move, does⟩

/-- What comes after does nothing to the traffic. -/
theorem congr (h : s.Makes e t) (same : u.link.traffic = t.link.traffic) : s.Makes e u := by
  unfold Makes at h ⊢
  rwa [same]

end Makes

/-- **What an event that leads from `s` to `t` does to the traffic.** -/
def Trades (s : Session) (e : Event) (t : Session) : Prop :=
  ∃ ds, Moves s.link.traffic ds t.link.traffic ∧ ∀ d ∈ ds, s.Does e d

theorem Makes.trades {s t : Session} {e : Event} (h : s.Makes e t) : s.Trades e t := by
  rcases h with same | ⟨d, move, does⟩
  · exact ⟨[], same ▸ .nil _, by simp⟩
  · exact ⟨[d], move.moves, by simpa using does⟩

attribute [local simp] Link.traffic withConnection withWriter setStage give finish announce
  withTask unsubscribe dropRefresher

/-! ## The writer -/

theorem takePayload_makes {s : Session} {c : Connection} (here : s.link.connection = some c)
    (idle : c.writer = .idle) : s.Makes (.act .writer) (s.takePayload c) := by
  unfold takePayload
  cases realtime : c.realtime with
  | cons x rest =>
    exact .single (.takeRealtime here idle realtime) (.write rfl) (by simp)
  | nil =>
    cases lines : c.lines with
    | cons x rest =>
      exact .single (.takeLine here idle realtime lines) (.write rfl) (by simp [realtime])
    | nil => exact .nothing rfl

theorem failWrite_link {s : Session} (c : Connection) (x : Nat) (f : WriteFault) :
    (s.failWrite c x f).link.traffic
      = if s.link.traffic.isLine x then
          { s.link.traffic with connection := some { c with writer := .failed x f } }
        else
          { s.link.traffic with
            posts := markDelivered s.link.posts [x] (.failed f)
            connection := some { c with writer := .idle } } := by
  have same : (s.link.payload? x).any Payload.isLine = s.link.traffic.isLine x := rfl
  unfold failWrite
  rw [same]
  split
  · simp
  · simp

/-- **A payload is tried in one move.** -/
theorem attemptWrite_move {s : Session} {c : Connection} {x : Nat}
    (here : s.link.connection = some c) (writing : c.writer = .writing x)
    (free : c.stalled = false) :
    ∃ d, Move s.link.traffic d (s.attemptWrite c x).link.traffic ∧ d.byWriter = true ∧
      d.attempt? = some (x, c.prospect) := by
  have made {d : Deed} {u : Traffic} (move : Move s.link.traffic d u) (own : d.byWriter = true)
      (tries : d.attempt? = some (x, c.prospect)) (same : (s.attemptWrite c x).link.traffic = u) :
      ∃ d, Move s.link.traffic d (s.attemptWrite c x).link.traffic ∧ d.byWriter = true ∧
        d.attempt? = some (x, c.prospect) :=
    ⟨d, same ▸ move, own, tries⟩
  by_cases fault : 0 < c.writeFaults
  · have refused : Deed.attempt? (.fail x .write) = some (x, c.prospect) := by
      simp [Deed.attempt?, Connection.prospect, fault]
    have same : s.attemptWrite c x
        = s.failWrite { c with writeFaults := c.writeFaults - 1 } x .write := if_pos fault
    by_cases line : s.link.traffic.isLine x = true
    · refine made (.refuseLine here writing free fault line) rfl refused ?_
      rw [same, failWrite_link, if_pos line]
    · refine made (.refuseRealtime here writing free fault (by simpa using line)) rfl refused ?_
      rw [same, failWrite_link, if_neg line]
      rfl
  · by_cases spoils : 0 < c.flushFaults
    · have spoiled : Deed.attempt? (.fail x .flush) = some (x, c.prospect) := by
        simp [Deed.attempt?, Connection.prospect, fault, spoils]
      have same : s.attemptWrite c x = { s with link.wire := s.link.wire ++ [x] }.failWrite
          { c with flushFaults := c.flushFaults - 1 } x .flush :=
        (if_neg fault).trans (if_pos spoils)
      by_cases line : s.link.traffic.isLine x = true
      · refine made (.spoilLine here writing free spoils line) rfl spoiled ?_
        rw [same, failWrite_link, if_pos (by exact line)]
        rfl
      · refine made (.spoilRealtime here writing free spoils (by simpa using line)) rfl spoiled ?_
        rw [same, failWrite_link, if_neg (by exact line)]
        rfl
    · have sent : Deed.attempt? (.send x) = some (x, c.prospect) := by
        simp [Deed.attempt?, Connection.prospect, fault, spoils]
      refine made (.send here writing free (by omega) (by omega)) rfl sent ?_
      simp [attemptWrite, fault, spoils]

theorem attemptWrite_makes {s : Session} {c : Connection} {x : Nat}
    (here : s.link.connection = some c) (writing : c.writer = .writing x)
    (free : c.stalled = false) : s.Makes (.act .writer) (s.attemptWrite c x) := by
  obtain ⟨d, move, own, -⟩ := attemptWrite_move here writing free
  exact .inr ⟨d, move, .write own⟩

theorem writerTurn_makes (s : Session) : s.Makes (.act .writer) s.writerTurn := by
  unfold writerTurn
  cases here : s.link.connection with
  | none => exact .nothing rfl
  | some c =>
    cases stage : c.writer with
    | idle =>
      simp only [stage]
      split
      · exact .nothing (by simp)
      · exact takePayload_makes here stage
    | taken x =>
      simp only [stage]
      rcases use_cases s .writer .slots (·.pushSlot c x) (·.again .writer) with h | ⟨u, hu, h⟩
      · exact .alike h
      · refine .single (.place here stage) (.write rfl) ?_
        rw [h]
        simp [pushSlot, hu]
    | writing x =>
      simp only [stage]
      split
      · exact .nothing rfl
      · next free => exact attemptWrite_makes here stage (by simpa using free)
    | failed x f =>
      simp only [stage]
      rcases use_cases s .writer .slots (·.giveUpSlot c)
        (fun s => (s.deliver x (.failed f)).again .writer) with h | ⟨u, hu, h⟩
      · exact .alike h
      · refine .single (.giveUp here stage) (.write rfl) ?_
        rw [h]
        cases last : c.slots.getLast? with
        | none =>
          have none : c.slots = [] := List.getLast?_eq_none_iff.mp last
          simp [giveUpSlot, hu, none]
        | some y => simp [giveUpSlot, last, hu]

/-! ## The reader -/

/-- A chore that gives no answer away does nothing to the traffic. -/
theorem doChore_traffic (s : Session) {chore : Chore} (other : chore.ack? = none) :
    (s.doChore chore).link.traffic = s.link.traffic := by
  cases chore with
  | settle a => exact absurd other (by simp [Chore.ack?])
  | _ => simp [doChore]

theorem settleAnswer_traffic {s : Session} {c : Connection} (here : s.link.connection = some c)
    (a : Ack) :
    (s.settleAnswer a).link.traffic
      = { s.link.traffic with
          posts := markAnswered s.link.posts c.slots.head?.toList (.ack a)
          connection := some { c with slots := c.slots.tail } } := by
  unfold settleAnswer
  rw [here]
  cases slots : c.slots with
  | nil =>
    have same : { c with slots := [] } = c := by rw [← slots]
    simp [slots, here, same]
  | cons x rest => simp [slots]

/-- What a chore does, once it is begun. -/
theorem chore_makes {s u : Session} {c : Connection} {chore : Chore} {rest : List Chore}
    (here : s.link.connection = some c) (first : c.chores = chore :: rest) (hu : Alike u s) :
    s.Makes (.act .reader) ((u.withConnection { c with chores := rest }).doChore chore) := by
  cases ack : chore.ack? with
  | none =>
    refine .single (.chore here first ack) .read ?_
    rw [doChore_traffic _ ack]
    simp [hu]
  | some a =>
    have settle : chore = .settle a := by
      cases chore <;> simp_all [Chore.ack?]
    subst settle
    refine .single (.settle here first) (.settle a) ?_
    show (settleAnswer _ a).link.traffic = _
    rw [settleAnswer_traffic (c := { c with chores := rest }) rfl]
    simp [hu]

theorem readerChore_makes {s : Session} {c : Connection} {chore : Chore} {rest : List Chore}
    (here : s.link.connection = some c) (first : c.chores = chore :: rest) :
    s.Makes (.act .reader) (s.readerChore c chore rest) := by
  unfold readerChore
  dsimp only
  cases chore.guarded? with
  | none => exact chore_makes here first ⟨rfl, rfl, rfl, rfl, rfl, rfl, rfl⟩
  | some g =>
    dsimp only
    rcases use_cases s .reader g
      (fun s => (s.withConnection { c with chores := rest }).doChore chore) (·.again .reader)
      with h | ⟨u, hu, h⟩
    · exact .alike h
    · refine (chore_makes here first hu).congr ?_
      rw [h]
      simp

theorem endConnection_makes {s : Session} {c : Connection} {e : Event}
    (here : s.link.connection = some c) (does : s.Does e .close) :
    s.Makes e s.endConnection := by
  refine .single (.close here) does ?_
  simp [alike_endConnection here]

theorem readerTurn_makes (s : Session) : s.Makes (.act .reader) s.readerTurn := by
  unfold readerTurn
  cases here : s.link.connection with
  | none => exact .nothing rfl
  | some c =>
    cases chores : c.chores with
    | cons chore rest =>
      simp only [chores]
      exact readerChore_makes here chores
    | nil =>
      cases inbox : c.inbox with
      | nil =>
        simp only [chores, inbox]
        exact .nothing rfl
      | cons incoming rest =>
        cases incoming with
        | bytes bs =>
          simp only [chores, inbox]
          exact .single (.read here chores inbox) .read (by simp [readBytes, Connection.readPiece])
        | eof =>
          simp only [chores, inbox]
          exact endConnection_makes here (.hangUp here chores inbox rfl)
        | fault f =>
          cases f with
          | timedOut =>
            simp only [chores, inbox]
            exact .single (.timeout here chores inbox) .read (by simp [chores])
          | _ =>
            simp only [chores, inbox]
            exact endConnection_makes here (.hangUp here chores inbox rfl)

/-! ## Posting -/

/-- **Posting is a move of the traffic**, and gives the next ticket. -/
theorem post?_move {s t : Session} {a : Actor} {p : Payload} {x : Nat}
    (posted : s.post? a p = some (x, t)) :
    x = s.link.posts.length ∧ Move s.link.traffic (.post a p) t.link.traffic := by
  cases here : s.link.connection with
  | none => rw [post?_of_closed here] at posted; exact absurd posted (by simp)
  | some c =>
    obtain ⟨u, hu, alike⟩ := post?_of_open here a p
    rw [hu] at posted
    obtain ⟨rfl, rfl⟩ := Prod.mk.inj (Option.some.inj posted)
    have move : Move s.link.traffic (.post a p) _ := .post a p here
    exact ⟨rfl, by simpa [alike] using move⟩

theorem post?_makes {s t : Session} {a : Actor} {p : Payload} {x : Nat}
    (posted : s.post? a p = some (x, t)) : s.Makes (.act a) t :=
  .inr ⟨_, (post?_move posted).2, .post a p⟩

/-! ## The streaming task -/

@[simp] theorem alike_dropTask (s : Session) :
    Alike s.dropTask { s with streamer.task := none } := by
  unfold dropTask
  cases task : s.streamer.task with
  | none =>
    have same : { s.streamer with task := none } = s.streamer := by rw [← task]
    exact ⟨rfl, rfl, same.symm, rfl, rfl, rfl, rfl⟩
  | some t => exact alike_forget _ _

theorem handOver_makes (s : Session) (t : StreamTask) (line : String) :
    s.Makes (.act (.job t.job.number)) (s.handOver t line) := by
  unfold handOver
  cases s.streamer.state with
  | running =>
    dsimp only
    cases posted : s.post? (.job t.job.number) (.ofLine line) with
    | none => exact .nothing (by simp [abortJob])
    | some r => exact (post?_makes posted).congr rfl
  | idle => exact .nothing (by simp)
  | paused =>
    dsimp only
    split
    · exact .nothing (by simp [abortJob])
    · exact .nothing rfl
  | stopped =>
    dsimp only
    split
    · exact .nothing (by simp [abortJob])
    · exact .nothing rfl

@[simp] theorem countSent_traffic (s : Session) (x : Nat) :
    (s.countSent x).link.traffic = s.link.traffic := by
  unfold countSent
  split <;> rfl

/-- Using a guarded part does nothing to the traffic if what is done there and what comes after do
not. -/
theorem use_traffic {s : Session} {a : Actor} {g : Guarded} {inside after : Session → Session}
    (within : ∀ u, (inside u).link.traffic = u.link.traffic)
    (later : ∀ u, (after u).link.traffic = u.link.traffic) :
    (s.use a g inside after).link.traffic = s.link.traffic :=
  use_keeps (·.link.traffic) (fun h => congrArg Link.traffic h.2.1) within later

theorem taskTurn_makes (s : Session) (t : StreamTask) :
    s.Makes (.act (.job t.job.number)) (s.taskTurn t) := by
  unfold taskTurn
  dsimp only
  cases t.stage with
  | ready =>
    dsimp only
    split
    · exact .nothing (by simp [completeJob])
    · exact handOver_makes s t _
  | sending x =>
    dsimp only
    split
    · exact .nothing rfl
    · exact .nothing (use_traffic (fun u => countSent_traffic u x) (fun u => by simp))
    · exact .nothing (by simp [abortJob])
    · exact .nothing (by simp [failJob])
  | awaiting x deadline =>
    dsimp only
    split
    · next a _ => exact .nothing (by cases a <;> simp [advanceCursor])
    · exact .nothing (by simp [abortJob])
    · split
      · exact .nothing (by simp)
      · split
        · exact .nothing (by simp [failJob])
        · exact .nothing rfl

/-! ## Host calls -/

theorem connect_makes {s : Session} {i : Nat} {port : String} {refusal : Option DeviceFault}
    (stage : s.stage? i = some (.begin (.connect port refusal))) :
    s.Makes (.act (.call i)) (s.connect i port refusal) := by
  unfold connect
  cases here : s.link.connection with
  | some c => exact .nothing rfl
  | none =>
    cases refusal with
    | some f => exact .nothing (by simp)
    | none => exact .single (.open port here) (.open stage) (by simp)

theorem send_makes (s : Session) (i : Nat) (p : Payload) (errand : Errand) :
    s.Makes (.act (.call i)) (s.send i p errand) := by
  unfold send
  cases posted : s.post? (.call i) p with
  | none => exact .nothing rfl
  | some r => exact (post?_makes posted).congr rfl

theorem addPoller_makes {s : Session} {i interval : Nat}
    (stage : s.stage? i = some (.begin (.poll interval))) :
    s.Makes (.act (.call i)) (s.addPoller i interval) := by
  unfold addPoller
  cases here : s.link.connection with
  | none => exact .nothing rfl
  | some c =>
    dsimp only
    split
    · exact .nothing rfl
    · refine .single (.poll (c.pollers ++ [⟨s.spawned, interval, s.now, none⟩]) here)
        (.poll (.add stage)) ?_
      simp

/-- A turn that is taken after a change that does nothing to the traffic. -/
theorem Makes.of_same {s t u : Session} {i : Nat} (h : t.Makes (.act (.call i)) u)
    (same : t.link.traffic = s.link.traffic) (calls : t.calls = s.calls) :
    s.Makes (.act (.call i)) u := by
  rcases h with h | ⟨d, move, does⟩
  · exact .nothing (h.trans same)
  · refine .inr ⟨d, same ▸ move, ?_⟩
    have posts : t.link.posts = s.link.posts := congrArg Traffic.posts same
    cases does with
    | post _ p => exact .post _ p
    | poll polls =>
      cases polls with
      | add stage => exact .poll (.add (by rwa [stage?, ← calls]))
    | clear stage reset sent =>
      refine .clear (by rwa [stage?, ← calls]) reset ?_
      rwa [Link.delivery?, posts] at sent
    | disconnect stage => exact .disconnect (by rwa [stage?, ← calls])
    | «open» stage => exact .open (by rwa [stage?, ← calls])

theorem beginConfirmation_makes (s : Session) (i : Nat) (id : UInt16) (value : String)
    (delay timeout : Nat) :
    s.Makes (.act (.call i)) (s.beginConfirmation i id value delay timeout) := by
  unfold beginConfirmation
  dsimp only
  split
  · exact .nothing rfl
  · next x t posted =>
    have listening : s.Makes (.act (.call i)) t := (post?_makes posted).of_same rfl rfl
    exact listening.congr rfl

theorem startJob_traffic (s : Session) (i : Nat) (program : String) :
    (s.startJob i program).link.traffic = s.link.traffic := by
  unfold startJob
  dsimp only
  split
  · simp
  · split
    · simp
    · split
      · simp
      · simp

theorem sendControl_makes (s : Session) (i : Nat) (command : Realtime) (errand : Errand)
    {closed : Session → Session} (same : (closed s).link.traffic = s.link.traffic) :
    s.Makes (.act (.call i)) (s.sendControl i command errand closed) := by
  unfold sendControl
  cases posted : s.post? (.call i) (.realtime command) with
  | none => exact .nothing (by simpa using same)
  | some r => exact (post?_makes posted).congr rfl

theorem control_makes (s : Session) (i : Nat) (c : Control) :
    s.Makes (.act (.call i)) (s.control i c) := by
  unfold control
  cases c with
  | start program => exact .nothing (startJob_traffic s i program)
  | pause =>
    dsimp only
    split
    · exact (sendControl_makes _ i .feedHold .pause rfl).of_same (by simp) (by simp)
    · exact .nothing (by simp)
  | resume =>
    dsimp only
    split
    · exact sendControl_makes s i .cycleStart .resume rfl
    · exact .nothing (by simp)
  | stop =>
    dsimp only
    split
    · exact (sendControl_makes s.dropTask i .softReset .stop (by simp)).of_same (by simp) (by simp)
    · exact .nothing (by simp)

theorem beginCall_makes {s : Session} {i : Nat} {c : Call} (stage : s.stage? i = some (.begin c)) :
    s.Makes (.act (.call i)) (s.beginCall i c) := by
  unfold beginCall
  cases c with
  | connect port refusal => exact connect_makes stage
  | disconnect =>
    cases here : s.link.connection with
    | none => exact .nothing (by simp [endConnection, here])
    | some c => exact (endConnection_makes here (.disconnect stage)).congr rfl
  | write line => exact send_makes s i _ _
  | writeAcked line => exact send_makes s i _ _
  | realtime command => exact send_makes s i _ _
  | control c =>
    dsimp only [takeTurn]
    split
    · exact (control_makes _ i c).of_same rfl rfl
    · exact .nothing rfl
  | wait =>
    dsimp only
    split
    · exact .nothing rfl
    · exact .nothing rfl
  | poll interval => exact addPoller_makes stage
  | writeSetting id value delay => exact send_makes s i _ _
  | confirmSetting id value delay timeout =>
    exact beginConfirmation_makes s i id value delay timeout
  | settings => exact .nothing rfl
  | resetSettings => exact .nothing rfl
  | jobLines => exact .nothing rfl
  | ports => exact .nothing rfl

theorem failErrand_traffic (s : Session) (i : Nat) (errand : Errand) (e : LinkError) :
    (s.failErrand i errand e).link.traffic = s.link.traffic := by
  unfold failErrand
  cases errand with
  | setting delay confirmation => cases confirmation <;> rfl
  | _ => simp

theorem doErrand_traffic (s : Session) (i x : Nat) (errand : Errand) :
    (s.doErrand i x errand).link.traffic = s.link.traffic := by
  unfold doErrand
  cases errand with
  | setting delay confirmation => cases confirmation <;> simp [spawnRefresher]
  | _ => simp

theorem countErrand_makes {s : Session} {i x : Nat} {errand : Errand}
    (stage : s.stage? i = some (.sending x errand)) (sent : s.link.delivery? x = some .sent) :
    s.Makes (.act (.call i)) (s.countErrand i x errand) := by
  unfold countErrand
  dsimp only
  split
  · next reset =>
    rcases use_cases s (.call i) .slots dropAnswers
      (fun s => (s.setStage i (.counting x errand)).again (.call i)) with h | ⟨u, hu, h⟩
    · exact .alike h
    · cases here : s.link.connection with
      | none =>
        refine .nothing ?_
        rw [h]
        simp [dropAnswers, hu, here]
      | some c =>
        refine .single (.clear here) (.clear stage reset sent) ?_
        rw [h]
        have dropped := alike_dropAnswers (s := u) (by rw [hu.2.1]; exact here)
        simp [dropped, hu]
  · exact .nothing (by simp)

theorem confirmTurn_traffic (s : Session) (i : Nat) (key : String) (sub deadline : Nat) :
    (s.confirmTurn i key sub deadline).link.traffic = s.link.traffic := by
  unfold confirmTurn
  dsimp only
  split
  · split <;> simp
  · split
    · split <;> simp
    · split <;> simp

theorem callTurn_makes (s : Session) (i : Nat) : s.Makes (.act (.call i)) (s.callTurn i) := by
  unfold callTurn
  cases stage : s.stage? i with
  | none => exact .nothing rfl
  | some st =>
    cases st with
    | begin c => exact beginCall_makes stage
    | turn c =>
      dsimp only
      split
      · exact control_makes s i c
      · exact .nothing rfl
    | sending x errand =>
      dsimp only
      cases delivery : s.link.delivery? x with
      | none => exact .nothing rfl
      | some d =>
        cases d with
        | sent => exact countErrand_makes stage delivery
        | failed f => exact .nothing (failErrand_traffic s i errand _)
        | lost => exact .nothing (failErrand_traffic s i errand _)
    | counting x errand =>
      exact .nothing (use_traffic (fun u => countSent_traffic u x)
        (fun u => doErrand_traffic u i x errand))
    | awaitingAnswer x =>
      dsimp only
      split <;> exact .nothing rfl
    | awaitingIdle =>
      dsimp only
      split <;> exact .nothing rfl
    | confirming key sub deadline => exact .nothing (confirmTurn_traffic s i key sub deadline)
    | lookingUp key => exact .nothing (use_traffic (fun u => rfl) (fun u => rfl))

/-! ## Pollers, refreshers and the rest -/

theorem setPoller_traffic (s : Session) (p : Poller) :
    (s.setPoller p).link.traffic
      = { s.link.traffic with
          connection := s.link.connection.map fun c =>
            { c with
              pollers := c.pollers.map fun q => if q.number = p.number then p else q } } := by
  unfold setPoller
  cases here : s.link.connection with
  | none => simp [here]
  | some c => simp

/-- What a poller notes comes after what it does. -/
theorem Makes.setPoller {s t : Session} {n : Nat} (h : s.Makes (.act (.poller n)) t) (p : Poller) :
    s.Trades (.act (.poller n)) (t.setPoller p) := by
  obtain ⟨ds, moves, does⟩ := h.trades
  cases here : t.link.connection with
  | none =>
    refine ⟨ds, ?_, does⟩
    rw [setPoller_traffic, here]
    simpa [here] using moves
  | some c =>
    refine ⟨ds ++ [.poll], ?_, ?_⟩
    · refine moves.append (Move.moves ?_)
      rw [setPoller_traffic, here]
      exact .poll _ here
    · intro d hd
      rcases List.mem_append.mp hd with hd | hd
      · exact does d hd
      · rw [List.mem_singleton.mp hd]
        exact .poll (.note n)

theorem pollerTurn_trades (s : Session) (number : Nat) :
    s.Trades (.act (.poller number)) (s.pollerTurn number) := by
  have idle : s.Makes (.act (.poller number)) s := .nothing rfl
  unfold pollerTurn
  split
  · exact idle.trades
  · next p _ =>
    split
    · split
      · split
        · exact idle.trades
        · next x t posted => exact (post?_makes posted).setPoller _
      · exact idle.trades
    · next x _ =>
      split
      · exact idle.trades
      · dsimp only
        split
        · rcases use_cases s (.poller number) .stats (·.countSent x)
            (fun s => (s.setPoller { p with sending := none }).again (.poller number))
            with h | ⟨u, hu, h⟩
          · exact (Makes.alike h).trades
          · rw [h]
            have counted : s.Makes (.act (.poller number)) ((u.countSent x).leave .stats) := by
              refine .nothing ?_
              rw [(alike_leave _ _).2.1, countSent_traffic, hu.2.1]
            exact counted.setPoller _
        · exact idle.setPoller _

theorem refresherTurn_makes (s : Session) (number : Nat) :
    s.Makes (.act (.refresher number)) (s.refresherTurn number) := by
  unfold refresherTurn
  split
  · exact .nothing rfl
  · split
    · split
      · split
        · exact .nothing rfl
        · next x t posted => exact (post?_makes posted).congr rfl
      · exact .nothing rfl
    · next x _ =>
      split
      · exact .nothing rfl
      · split
        · exact .nothing (use_traffic (fun u => countSent_traffic u x) (fun u => rfl))
        · exact .nothing rfl

theorem jobTurn_makes (s : Session) (number : Nat) :
    s.Makes (.act (.job number)) (s.jobTurn number) := by
  unfold jobTurn
  split
  · next t found =>
    have own : t.job.number = number := by
      simpa using (Option.filter_eq_some_iff.mp found).2
    exact own ▸ taskTurn_makes s t
  · exact .nothing rfl

theorem deviceAct_traffic (s : Session) (d : DeviceAction) :
    (s.deviceAct d).link.traffic
      = { s.link.traffic with connection := s.link.connection.map (·.driven d) } := by
  unfold deviceAct
  cases here : s.link.connection with
  | none => simp [here]
  | some c => cases d <;> simp [Connection.driven]

theorem device_makes (s : Session) (i : Nat) (d : DeviceAction) :
    s.Makes (.device i d) (s.next (.device i d)) := by
  show s.Makes _ (if _ then _ else _)
  split
  · exact .nothing rfl
  · cases here : s.link.connection with
    | none =>
      refine .nothing ?_
      rw [deviceAct_traffic]
      simp [here]
    | some c =>
      refine .single (.device d here) (.device i d) ?_
      rw [deviceAct_traffic]
      simp [here]

/-- **Whatever happens next, at most one thing is done to the traffic**, and by the one whose deed
it is. A poller that posts a query takes a note besides. -/
theorem next_makes (s : Session) {e : Event} (notPoller : ∀ n, e ≠ .act (.poller n)) :
    s.Makes e (s.next e) := by
  cases e with
  | schedule => exact .nothing rfl
  | act a =>
    cases a with
    | call i => exact callTurn_makes s i
    | job number => exact jobTurn_makes s number
    | poller number => exact absurd rfl (notPoller number)
    | refresher number => exact refresherTurn_makes s number
    | writer => exact writerTurn_makes s
    | reader => exact readerTurn_makes s
  | call i c =>
    show s.Makes _ (if _ then _ else _)
    split
    · exact .nothing rfl
    · exact .nothing (by simp [begin])
  | device i d => exact device_makes s i d
  | elapse time => exact .nothing rfl
  | observe => exact .nothing rfl

/-- **Every event trades**: what it does to the traffic is a list of moves, each by the one whose
move it is. -/
theorem next_trades (s : Session) (e : Event) : s.Trades e (s.next e) := by
  by_cases h : ∀ n, e ≠ .act (.poller n)
  · exact (next_makes s h).trades
  · obtain ⟨n, rfl⟩ := not_forall_not.mp h
    exact pollerTurn_trades s n

/-- A poller hands its query over and takes notes, and does nothing else to the traffic. -/
theorem poller_trades (s : Session) (n : Nat) :
    ∃ ds, Moves s.link.traffic ds (s.next (.act (.poller n))).link.traffic ∧
      ∀ d ∈ ds, (∃ a p, d = .post a p) ∨ d = .poll := by
  obtain ⟨ds, moves, does⟩ := next_trades s (.act (.poller n))
  refine ⟨ds, moves, fun d hd => ?_⟩
  cases does d hd with
  | post _ p => exact .inl ⟨_, p, rfl⟩
  | poll => exact .inr rfl

end Session

end Cnc
