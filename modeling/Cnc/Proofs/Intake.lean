import Mathlib.Data.List.Induction
import Cnc.Proofs.Announcements
import Cnc.Proofs.Chunks
import Cnc.Proofs.Dialogue
import Cnc.Proofs.Outlook
import Cnc.Proofs.Patience

/-!
# The reader as a fold over frames

While a connection lasts, everything that a session finds out about its
machine comes from the frames that the reader cuts the received bytes into,
one frame after the other: the status, the settings, the counts, the answers
that are given away and the events that are published
(`Session.folds_frames`). Other turns leave all of this alone, and so does
what is still to be done with a frame: the reader does it before it reads on.
-/

namespace Cnc

open Traffic

/-! ## What a frame is good for -/

namespace Frame

/-- The status that a frame reports. -/
def report? : Frame → Option MachineStatus
  | .status raw => (MachineStatus.parse raw.toList).toOption
  | _ => none

/-- Whether a frame is a status report that cannot be read. -/
def isRejected : Frame → Bool
  | .status raw => (MachineStatus.parse raw.toList).toOption.isNone
  | _ => false

/-- The number and the value of the setting that a frame reports. -/
def entry? : Frame → Option (String × String)
  | .setting id value => some (id, value)
  | _ => none

/-- **What is published of a frame.** -/
def events (f : Frame) : List LinkEvent :=
  match f with
  | .status raw =>
    (match MachineStatus.parse raw.toList with
      | .ok report => [.status report]
      | .error e => [.rejected raw e.message])
  | .setting id value => [.setting id value]
  | .log line => .log line :: (f.ack?.toList.map .ack ++ f.alarm?.toList.map .alarm)

end Frame

namespace Outlook

/-- What a chore changes of the outlook. -/
def does (o : Outlook) : Chore → Outlook
  | .countBytes n => { o with bytesReceived := o.bytesReceived + n }
  | .countFrame => { o with framesReceived := o.framesReceived + 1 }
  | .countRejected => { o with framesRejected := o.framesRejected + 1 }
  | .setStatus status => { o with status := status }
  | .store id value => { o with settings := o.settings.insert id value }
  | .settle _ => o
  | .publish e => { o with events := o.events ++ [e] }

/-- What a frame changes of the outlook. -/
def note (o : Outlook) (f : Frame) : Outlook where
  now := o.now
  status := f.report?.getD o.status
  settings := f.entry?.toList.foldl (fun s e => s.insert e.1 e.2) o.settings
  bytesReceived := o.bytesReceived
  framesReceived := o.framesReceived + 1
  framesRejected := o.framesRejected + if f.isRejected then 1 else 0
  events := o.events ++ f.events

/-- **The chores of a frame** do to the outlook what the frame is good for. -/
theorem foldl_chores (o : Outlook) (f : Frame) : f.chores.foldl does o = o.note f := by
  cases f with
  | status raw =>
    cases report : MachineStatus.parse raw.toList <;>
      simp [Frame.chores, note, Frame.report?, Frame.isRejected, Frame.entry?, Frame.events, report,
        does, Except.toOption]
  | setting id value =>
    simp [Frame.chores, note, Frame.report?, Frame.isRejected, Frame.entry?, Frame.events, does]
  | log line =>
    cases ack : (Frame.log line).ack? <;> cases alarm : (Frame.log line).alarm? <;>
      simp [Frame.chores, note, Frame.report?, Frame.isRejected, Frame.entry?, Frame.events, ack,
        alarm, does]

/-- **What frames change of the outlook**, each effect on its own. -/
theorem foldl_note (o : Outlook) (frames : List Frame) :
    frames.foldl note o =
      { o with
        status := (frames.filterMap Frame.report?).getLast?.getD o.status
        settings := (frames.filterMap Frame.entry?).foldl (fun s e => s.insert e.1 e.2) o.settings
        framesReceived := o.framesReceived + frames.length
        framesRejected := o.framesRejected + frames.countP Frame.isRejected
        events := o.events ++ frames.flatMap Frame.events } := by
  induction frames generalizing o with
  | nil => simp
  | cons f frames ih =>
    rw [List.foldl_cons, ih]
    have status : (frames.filterMap Frame.report?).getLast?.getD (f.report?.getD o.status)
        = ((f :: frames).filterMap Frame.report?).getLast?.getD o.status := by
      cases report : f.report? with
      | none => simp [report]
      | some status =>
        rw [List.filterMap_cons_some report, List.getLast?_cons]
        simp
    have settings : (frames.filterMap Frame.entry?).foldl (fun s e => s.insert e.1 e.2)
          (o.note f).settings
        = ((f :: frames).filterMap Frame.entry?).foldl (fun s e => s.insert e.1 e.2)
          o.settings := by
      cases entry : f.entry? <;> simp [note, entry]
    have rejected : (o.note f).framesRejected + frames.countP Frame.isRejected
        = o.framesRejected + (f :: frames).countP Frame.isRejected := by
      rw [List.countP_cons]
      simp only [note]
      omega
    rw [settings, rejected, show (o.note f).status = f.report?.getD o.status from rfl, status]
    simp [note, Nat.add_assoc, Nat.add_comm 1]

end Outlook

namespace FrameSplitter

/-- What the reader has to do with some pieces of bytes, in order. -/
def choresAll (s : FrameSplitter) : List (List UInt8) → List Chore
  | [] => []
  | piece :: rest =>
    .countBytes piece.length :: (s.feed piece).2.flatMap Frame.chores
      ++ choresAll (s.feed piece).1 rest

theorem choresAll_concat (s : FrameSplitter) (pieces : List (List UInt8)) (piece : List UInt8) :
    s.choresAll (pieces ++ [piece]) = s.choresAll pieces ++
      .countBytes piece.length
        :: ((s.feedAll pieces).1.feed piece).2.flatMap Frame.chores := by
  induction pieces generalizing s with
  | nil => simp [choresAll, feedAll]
  | cons first rest ih =>
    rw [List.cons_append, choresAll, ih, choresAll, List.append_assoc]
    rfl

theorem feedAll_concat (s : FrameSplitter) (pieces : List (List UInt8)) (piece : List UInt8) :
    s.feedAll (pieces ++ [piece])
      = (((s.feedAll pieces).1.feed piece).1,
          (s.feedAll pieces).2 ++ ((s.feedAll pieces).1.feed piece).2) := by
  induction pieces generalizing s with
  | nil => simp [feedAll]
  | cons first rest ih =>
    rw [List.cons_append, feedAll, ih, feedAll, List.append_assoc]

/-- **All chores together** do what the frames are good for, and count the bytes. -/
theorem foldl_choresAll (s : FrameSplitter) (pieces : List (List UInt8)) (o : Outlook) :
    (s.choresAll pieces).foldl Outlook.does o
      = (s.feedAll pieces).2.foldl Outlook.note
          { o with bytesReceived := o.bytesReceived + pieces.flatten.length } := by
  have chores (frames : List Frame) (o : Outlook) :
      (frames.flatMap Frame.chores).foldl Outlook.does o = frames.foldl Outlook.note o := by
    induction frames generalizing o with
    | nil => rfl
    | cons f frames ih =>
      rw [List.flatMap_cons, List.foldl_append, Outlook.foldl_chores, List.foldl_cons, ih]
  induction pieces generalizing s o with
  | nil => rfl
  | cons piece rest ih =>
    rw [choresAll, List.foldl_append, ih, List.foldl_cons, chores, feedAll, List.foldl_append]
    simp only [Outlook.foldl_note, Outlook.does, List.flatten_cons, List.length_append,
      Nat.add_assoc]

theorem acks_of_choresAll (s : FrameSplitter) (pieces : List (List UInt8)) :
    (s.choresAll pieces).filterMap Chore.ack? = (s.feedAll pieces).2.filterMap Frame.ack? := by
  have chores (frames : List Frame) :
      (frames.flatMap Frame.chores).filterMap Chore.ack? = frames.filterMap Frame.ack? := by
    induction frames with
    | nil => rfl
    | cons f frames ih =>
      rw [List.flatMap_cons, List.filterMap_append, acks_of_chores, ih, List.filterMap_cons]
      cases f.ack? <;> rfl
  induction pieces generalizing s with
  | nil => rfl
  | cons piece rest ih =>
    rw [choresAll, List.filterMap_append, ih, List.filterMap_cons, feedAll, List.filterMap_append]
    simp only [Chore.ack?, chores]

end FrameSplitter

namespace Traffic

variable {t u : Traffic} {d : Deed} {ds : List Deed} {c c' : Connection}

/-- **What is read and what is still to be done with it** stays the same while the reader does
nothing, and what the device sends is added to what is to be read. -/
structure Unread (c c' : Connection) (bytes : List UInt8) : Prop where
  splitter : c'.splitter = c.splitter
  chores : c'.chores = c.chores
  inbox : c'.inbox.flatMap Incoming.bytes? = c.inbox.flatMap Incoming.bytes? ++ bytes

theorem Move.unread (h : Move t d u) (here : t.connection = some c) (there : u.connection = some c')
    (notRead : d ≠ .read) (noAck : d.ack? = none) : Unread c c' d.spoken := by
  cases h with
  | «open» port closed => exact absurd (closed.symm.trans here) (by simp)
  | close => exact absurd there (by simp)
  | settle => exact absurd noAck (by simp [Deed.ack?])
  | chore | read | timeout => exact absurd rfl notRead
  | @device b d here' =>
    obtain rfl := Option.some.inj (here'.symm.trans here)
    obtain rfl := Option.some.inj there
    refine ⟨b.driven_splitter d, b.driven_chores d, ?_⟩
    cases d <;> simp [Connection.driven, Deed.spoken, Incoming.bytes?]
  | post _ _ here' =>
    obtain rfl := Option.some.inj (here'.symm.trans here)
    obtain rfl := Option.some.inj there
    exact ⟨by simp, by simp, by simp [Deed.spoken]⟩
  | poll _ here' =>
    obtain rfl := Option.some.inj (here'.symm.trans here)
    obtain rfl := Option.some.inj there
    exact ⟨rfl, rfl, by simp [Deed.spoken]⟩
  | _ here' =>
    obtain rfl := Option.some.inj (here'.symm.trans here)
    obtain rfl := Option.some.inj there
    exact ⟨rfl, rfl, by simp [Deed.spoken]⟩

theorem Moves.unread (h : Moves t ds u) (here : t.connection = some c)
    (there : u.connection = some c') (opened : u.opened = t.opened)
    (notReader : ∀ d ∈ ds, d ≠ .read ∧ d.ack? = none) :
    Unread c c' (ds.flatMap Deed.spoken) := by
  induction h generalizing c with
  | nil =>
    obtain rfl := Option.some.inj (here.symm.trans there)
    exact ⟨rfl, rfl, by simp⟩
  | @cons t v u d ds first rest ih =>
    have before := first.opened_le
    have after := rest.opened_le
    obtain ⟨b, between, -⟩ := rest.connected there (by omega)
    obtain ⟨notRead, noAck⟩ := notReader d List.mem_cons_self
    have one := first.unread here between notRead noAck
    have others := ih between there (by omega)
      fun d' member => notReader d' (List.mem_cons_of_mem _ member)
    refine ⟨others.splitter.trans one.splitter, others.chores.trans one.chores, ?_⟩
    rw [others.inbox, one.inbox, List.flatMap_cons, List.append_assoc]

end Traffic

namespace Session

variable {s t : Session} {c c' : Connection} {e : Event}

/-! ## The reader's turn -/

/-- The piece of bytes that the reader reads in an event. -/
def piece? (s : Session) (e : Event) : Option (List UInt8) :=
  if e = .act .reader then
    s.link.connection.bind fun c => match c.chores, c.inbox with
      | [], .bytes bs :: _ => some (bs.take readSize)
      | _, _ => none
  else none

/-- **The pieces that the reader reads** in a run. -/
def pieces (s : Session) (es : List Event) : List (List UInt8) :=
  (s.history es).filterMap fun h => h.1.piece? h.2

theorem pieces_concat (s : Session) (es : List Event) (e : Event) :
    s.pieces (es ++ [e]) = s.pieces es ++ ((s.after es).piece? e).toList := by
  rw [pieces, history_concat, List.filterMap_append, pieces]
  cases h : (s.after es).piece? e <;> simp [h]

theorem pieces_concat_of_none {es : List Event} (none : (s.after es).piece? e = none) :
    s.pieces (es ++ [e]) = s.pieces es := by
  rw [pieces_concat, none, Option.toList_none, List.append_nil]

theorem dispatched_concat_of_none {es : List Event} (none : (s.after es).dispatched? e = none) :
    s.dispatched (es ++ [e]) = s.dispatched es := by
  rw [dispatched_concat, none, Option.toList_none, List.append_nil]

/-- Whether the settings are forgotten in an event. -/
def forgets (s : Session) (e : Event) : Bool :=
  match e with
  | .act (.call i) => s.stage? i = some (.begin .resetSettings)
  | _ => false

/-- **What the reader can do in a turn** on a connection that outlasts it. -/
inductive Reading (s : Session) (c : Connection) (t : Session) : Connection → Prop
  /-- It waits. -/
  | wait (none : s.piece? (.act .reader) = none) (outlook : t.outlook = s.outlook) :
    Reading s c t c
  | chore {ch : Chore} {rest : List Chore} (slots : List Nat) (first : c.chores = ch :: rest)
      (outlook : t.outlook = s.outlook.does ch) :
    Reading s c t { c with chores := rest, slots := slots }
  | read {bs : List UInt8} {rest : List Incoming} (done : c.chores = [])
      (first : c.inbox = .bytes bs :: rest) (outlook : t.outlook = s.outlook) :
    Reading s c t (c.readPiece bs rest)
  /-- Nothing came in time. -/
  | timeout {rest : List Incoming} (done : c.chores = [])
      (first : c.inbox = .fault .timedOut :: rest) (outlook : t.outlook = s.outlook) :
    Reading s c t { c with inbox := rest }

theorem doChore_outlook (s : Session) (ch : Chore) :
    (s.doChore ch).outlook = s.outlook.does ch := by
  cases ch with
  | setStatus status => exact (alike_setStatus s status).outlook
  | publish e => exact (alike_publish s e).outlook
  | settle a =>
    show (s.settleAnswer a).outlook = _
    unfold settleAnswer
    split
    · rfl
    · split
      · rfl
      · exact (alike_answer _ _ _).outlook
  | _ => rfl

/-- What a chore leaves of the connection. -/
theorem doChore_connection (s : Session) (c : Connection) (ch : Chore) :
    ∃ slots, ((s.withConnection c).doChore ch).link.connection = some { c with slots } := by
  cases ack : ch.ack? with
  | none =>
    have same := congrArg Traffic.connection (doChore_traffic (s.withConnection c) ack)
    exact ⟨c.slots, same⟩
  | some a =>
    obtain rfl : ch = .settle a := by cases ch <;> simp_all [Chore.ack?]
    have settled := congrArg Traffic.connection
      (settleAnswer_traffic (s := s.withConnection c) (c := c) rfl a)
    exact ⟨c.slots.tail, settled⟩

/-- **What the reader does in its turn.** -/
theorem readerTurn_reading (here : s.link.connection = some c)
    (there : s.readerTurn.link.connection = some c') : s.Reading c s.readerTurn c' := by
  have ends {d : Connection} (closed : s.endConnection.link.connection = some d) : False :=
    absurd ((endConnection_connection s).symm.trans closed) (by simp)
  generalize turn : s.readerTurn = t at there
  unfold readerTurn at turn
  rw [here] at turn
  cases chores : c.chores with
  | cons ch rest =>
    simp only [chores] at turn
    have busy : s.piece? (.act .reader) = none := by simp [piece?, here, chores]
    -- what is done once the chore is begun
    have does {u : Session} (alike : u.Alike s)
        (same : t.Alike ((u.withConnection { c with chores := rest }).doChore ch)) :
        s.Reading c t c' := by
      obtain ⟨slots, left⟩ := doChore_connection u { c with chores := rest } ch
      rw [same.2.1, left] at there
      obtain rfl := Option.some.inj there
      refine .chore slots chores ?_
      rw [same.outlook, doChore_outlook, show (u.withConnection _).outlook = u.outlook from rfl,
        alike.outlook]
    unfold readerChore at turn
    dsimp only at turn
    cases guarded : ch.guarded? with
    | none =>
      simp only [guarded] at turn
      subst turn
      exact does (u := s) ⟨rfl, rfl, rfl, rfl, rfl, rfl, rfl⟩ (alike_again _ _)
    | some g =>
      simp only [guarded] at turn
      rcases use_cases s .reader g
        (fun s => (s.withConnection { c with chores := rest }).doChore ch) (·.again .reader)
        with alike | ⟨u, alike, done⟩
      · rw [turn] at alike
        rw [alike.2.1, here] at there
        obtain rfl := Option.some.inj there
        exact .wait busy alike.outlook
      · rw [turn] at done
        subst done
        exact does alike ((alike_again _ _).trans (alike_leave _ _))
  | nil =>
    cases inbox : c.inbox with
    | nil =>
      simp only [chores, inbox] at turn
      subst turn
      obtain rfl := Option.some.inj (here.symm.trans there)
      exact .wait (by simp [piece?, here, chores, inbox]) rfl
    | cons incoming rest =>
      cases incoming with
      | bytes bs =>
        simp only [chores, inbox] at turn
        subst turn
        obtain rfl : c.readPiece bs rest = c' := Option.some.inj there
        exact .read chores inbox rfl
      | eof =>
        simp only [chores, inbox] at turn
        subst turn
        exact (ends there).elim
      | fault f =>
        cases f with
        | timedOut =>
          simp only [chores, inbox] at turn
          subst turn
          obtain rfl := Option.some.inj there
          rw [← chores]
          exact .timeout chores inbox rfl
        | _ =>
          simp only [chores, inbox] at turn
          subst turn
          exact (ends there).elim

/-! ## The turns of others -/

/-- The reader's work is the reader's. -/
theorem Does.notReader {d : Deed} (does : s.Does e d) (other : e ≠ .act .reader) :
    d ≠ .read ∧ d.ack? = none := by
  refine ⟨?_, does.ack?_eq_none other⟩
  rintro rfl
  cases does with
  | write own => exact absurd own (by simp [Deed.byWriter])
  | read => exact absurd rfl other

/-- **What others do** leaves the outlook as it is, while the link stays open and the settings are
not forgotten. -/
theorem next_outlook (notReader : e ≠ .act .reader) (here : s.link.connection = some c)
    (there : (s.next e).link.connection = some c')
    (keeps : s.forgets e = false) :
    (s.next e).outlook = { s.outlook with now := (s.next e).now } := by
  have same {t : Session} (outlook : t.outlook = s.outlook) :
      t.outlook = { s.outlook with now := t.now } := by
    rw [outlook, show t.now = s.now from congrArg Outlook.now outlook]
    rfl
  cases e with
  | act a =>
    refine same ?_
    by_cases begins : ∃ i d, a = .call i ∧ s.stage? i = some (.begin d) ∧ d.clears = true
    · obtain ⟨i, d, rfl, stage, clears⟩ := begins
      have turn : s.next (.act (.call i)) = s.beginCall i d := by
        show s.callTurn i = _
        simp only [callTurn, stage]
      rw [turn] at there ⊢
      cases d with
      | connect port refusal =>
        show (s.connect i port refusal).outlook = _
        unfold connect
        rw [here]
        rfl
      | disconnect =>
        have gone : (s.beginCall i .disconnect).link.connection = none :=
          endConnection_connection s
        exact absurd (gone.symm.trans there) (by simp)
      | resetSettings => exact absurd keeps (by simp [forgets, stage])
      | _ => exact absurd clears (by simp [Call.clears])
    · refine act_outlook (fun reader => notReader (congrArg Event.act reader))
        fun i d own stage => ?_
      by_contra clears
      exact begins ⟨i, d, own, stage, by simpa using clears⟩
  | call i d =>
    refine same ?_
    show outlook (if _ then _ else _) = _
    split
    · rfl
    · exact (alike_wake _ _).outlook
  | device i d =>
    refine same ?_
    show outlook (if _ then _ else _) = _
    split
    · rfl
    · exact (alike_deviceAct here d).outlook
  | observe =>
    refine same ?_
    simp [outlook, next, observe]
  | schedule | elapse => rfl

/-! ## The whole run -/

/-- **How far the reader has come** in a run from `s₀`, where it had nothing left to do: it has done
some chores of the pieces that it has read since, and the rest is still to be done. Unless the
settings are forgotten, nothing else changes the outlook. -/
structure Intake (s₀ : Session) (c₀ : Connection) (es : List Event) (c : Connection)
    (did : List Chore) : Prop where
  outlook : (∀ h ∈ s₀.history es, h.1.forgets h.2 = false) →
    (s₀.after es).outlook = { did.foldl Outlook.does s₀.outlook with now := (s₀.after es).now }
  chores : did ++ c.chores = c₀.splitter.choresAll (s₀.pieces es)
  splitter : c.splitter = (c₀.splitter.feedAll (s₀.pieces es)).1
  acks : s₀.dispatched es = did.filterMap Chore.ack?
  bytes : c₀.inbox.flatMap Incoming.bytes? ++ heard es
    = (s₀.pieces es).flatten ++ c.inbox.flatMap Incoming.bytes?

section Intake

variable {s₀ : Session} {c₀ : Connection} {es : List Event} {did : List Chore}

/-- The time is not the reader's. -/
theorem does_now (o : Outlook) (now : Nat) (ch : Chore) :
    ({ o with now := now } : Outlook).does ch = { o.does ch with now := now } := by
  cases ch <;> rfl

/-- **What others do** is none of the reader's work. -/
theorem Intake.aside (intake : s₀.Intake c₀ es c did) (notReader : e ≠ .act .reader)
    (filed : (s₀.after es).link.traffic.Filed)
    (here : (s₀.after es).link.connection = some c)
    (there : ((s₀.after es).next e).link.connection = some c')
    (opened : ((s₀.after es).next e).link.opened = (s₀.after es).link.opened) :
    s₀.Intake c₀ (es ++ [e]) c' did := by
  have last : s₀.after (es ++ [e]) = (s₀.after es).next e := after_append s₀ es [e]
  obtain ⟨ds, moves, does, spoken, -⟩ := next_exchange filed here there
  have unread := moves.unread here there opened fun d member => (does d member).notReader notReader
  have noPiece : (s₀.after es).piece? e = none := if_neg notReader
  have noAck : (s₀.after es).dispatched? e = none := if_neg fun own => notReader own.1
  constructor
  case outlook =>
    intro keeps
    rw [history_concat] at keeps
    have now := keeps (s₀.after es, e) (by simp)
    rw [last, next_outlook notReader here there now,
      intake.outlook fun h member => keeps h (List.mem_append_left _ member)]
  case chores =>
    rw [pieces_concat_of_none noPiece, unread.chores, intake.chores]
  case splitter =>
    rw [pieces_concat_of_none noPiece, unread.splitter, intake.splitter]
  case acks =>
    rw [dispatched_concat_of_none noAck, intake.acks]
  case bytes =>
    rw [heard_concat, ← List.append_assoc, intake.bytes, pieces_concat_of_none noPiece,
      unread.inbox, spoken, List.append_assoc]

/-- **The reader goes on** with its chores, or reads. -/
theorem Intake.read (intake : s₀.Intake c₀ es c did)
    (here : (s₀.after es).link.connection = some c)
    (there : ((s₀.after es).next (.act .reader)).link.connection = some c') :
    ∃ did', s₀.Intake c₀ (es ++ [.act .reader]) c' did' := by
  have last : s₀.after (es ++ [.act .reader]) = (s₀.after es).next (.act .reader) :=
    after_append s₀ es [.act .reader]
  have now : ((s₀.after es).next (.act .reader)).now = (s₀.after es).now := act_now _ _
  have reading := readerTurn_reading here there
  have before : (s₀.after es).link.traffic.chores = c.chores := by
    show ((s₀.after es).link.connection.map (·.chores)).getD [] = _
    rw [here]
    rfl
  have after_ : ((s₀.after es).next (.act .reader)).link.traffic.chores = c'.chores := by
    show (((s₀.after es).next (.act .reader)).link.connection.map (·.chores)).getD [] = _
    rw [there]
    rfl
  have silent (bytes : List UInt8) : bytes ++ heard (es ++ [.act .reader]) = bytes ++ heard es := by
    rw [heard_concat]
    simp [Event.spoken]
  -- nothing is given away while no chore is done
  have quiet (same : c.chores.length ≤ c'.chores.length) :
      (s₀.after es).dispatched? (.act .reader) = none := by
    rw [dispatched?, before, after_, if_neg (by omega)]
  have turn : (s₀.after es).readerTurn = (s₀.after es).next (.act .reader) := rfl
  rw [turn] at reading
  -- the settings are not the reader's to forget
  have earlier (keeps : ∀ h ∈ s₀.history (es ++ [.act .reader]), h.1.forgets h.2 = false) :
      ∀ h ∈ s₀.history es, h.1.forgets h.2 = false := by
    rw [history_concat] at keeps
    exact fun h member => keeps h (List.mem_append_left _ member)
  generalize arrived : (s₀.after es).next (.act .reader) = t at reading there now last
  cases reading with
  | wait noPiece outlook =>
    refine ⟨did, ?_, ?_, ?_, ?_, ?_⟩
    · exact fun keeps => by rw [last, outlook, intake.outlook (earlier keeps), now]
    · rw [pieces_concat_of_none noPiece, intake.chores]
    · rw [pieces_concat_of_none noPiece, intake.splitter]
    · rw [dispatched_concat_of_none (quiet (Nat.le_refl _)), intake.acks]
    · rw [silent, intake.bytes, pieces_concat_of_none noPiece]
  | @chore ch rest slots first outlook =>
    have noPiece : (s₀.after es).piece? (.act .reader) = none := by simp [piece?, here, first]
    have ack : (s₀.after es).dispatched? (.act .reader) = ch.ack? := by
      rw [dispatched?, before, after_, first, if_pos ⟨rfl, by simp⟩]
      rfl
    refine ⟨did ++ [ch], ?_, ?_, ?_, ?_, ?_⟩
    · intro keeps
      rw [last, outlook, intake.outlook (earlier keeps), does_now, List.foldl_append, now]
      rfl
    · rw [pieces_concat_of_none noPiece, ← intake.chores, first, List.append_assoc]
      rfl
    · rw [pieces_concat_of_none noPiece]
      exact intake.splitter
    · rw [dispatched_concat, ack, intake.acks, List.filterMap_append]
      cases own : ch.ack? <;> simp [own]
    · rw [silent, intake.bytes, pieces_concat_of_none noPiece]
  | @read bs rest done first outlook =>
    have piece : (s₀.after es).piece? (.act .reader) = some (bs.take readSize) := by
      simp [piece?, here, done, first]
    have all := intake.chores
    rw [done, List.append_nil] at all
    refine ⟨did, ?_, ?_, ?_, ?_, ?_⟩
    · exact fun keeps => by rw [last, outlook, intake.outlook (earlier keeps), now]
    · rw [pieces_concat, piece, Option.toList_some, FrameSplitter.choresAll_concat, ← all,
        ← intake.splitter]
      rfl
    · rw [pieces_concat, piece, Option.toList_some, FrameSplitter.feedAll_concat, ← intake.splitter]
      rfl
    · rw [dispatched_concat_of_none (quiet (by simp [done])), intake.acks]
    · have left : (if (bs.drop readSize).isEmpty then rest
          else .bytes (bs.drop readSize) :: rest).flatMap Incoming.bytes?
          = bs.drop readSize ++ rest.flatMap Incoming.bytes? := by
        cases bs.drop readSize <;> rfl
      rw [silent, intake.bytes, pieces_concat, piece, first, Connection.readPiece, left,
        Option.toList_some, List.flatten_append, List.flatten_singleton, List.append_assoc,
        ← List.append_assoc (bs.take readSize), List.take_append_drop]
      rfl
  | @timeout rest done first outlook =>
    have noPiece : (s₀.after es).piece? (.act .reader) = none := by
      simp [piece?, here, done, first]
    refine ⟨did, ?_, ?_, ?_, ?_, ?_⟩
    · exact fun keeps => by rw [last, outlook, intake.outlook (earlier keeps), now]
    · rw [pieces_concat_of_none noPiece]
      exact intake.chores
    · rw [pieces_concat_of_none noPiece]
      exact intake.splitter
    · rw [dispatched_concat_of_none (quiet (Nat.le_refl _)), intake.acks]
    · rw [silent, intake.bytes, pieces_concat_of_none noPiece, first]
      rfl

/-- **What the reader does and what others do**, in a whole run. -/
theorem intake_after (filed : s₀.link.traffic.Filed) (start : s₀.link.connection = some c₀)
    (done : c₀.chores = []) (lasts : s₀.Lasts es) :
    ∃ c did, (s₀.after es).link.connection = some c ∧ s₀.Intake c₀ es c did := by
  induction es using List.reverseRecOn with
  | nil =>
    refine ⟨c₀, [], start, fun _ => rfl, done, rfl, rfl, ?_⟩
    simp [pieces, heard]
  | append_singleton es e ih =>
    obtain ⟨before, opened⟩ := lasts.init
    obtain ⟨c, did, here, intake⟩ := ih before
    obtain ⟨c', there⟩ := Option.isSome_iff_exists.mp lasts.isOpen
    refine ⟨c', ?_⟩
    rw [after_append, after_cons, after_nil] at there ⊢
    by_cases reader : e = .act .reader
    · subst reader
      obtain ⟨did', intake'⟩ := intake.read here there
      exact ⟨did', there, intake'⟩
    · exact ⟨did, there, intake.aside reader (onward_after filed es).1 here there opened⟩

end Intake

/-! ## Slots -/

/-- **The reader takes a slot for every answer that it gives away**, the oldest if there is one, and
none otherwise. -/
theorem reader_slots (here : s.link.connection = some c)
    (there : (s.next (.act .reader)).link.connection = some c') :
    c'.slots = if (s.dispatched? (.act .reader)).isSome then c.slots.tail else c.slots := by
  rcases next_makes s (e := .act .reader) (by simp) with same | ⟨d, move, does⟩
  · have none : s.dispatched? (.act .reader) = none := by
      rw [dispatched?, same, if_neg (by simp)]
    have kept := congrArg Traffic.connection same
    obtain rfl : c' = c := Option.some.inj (there.symm.trans (kept.trans here))
    simp [none]
  · have own : s.dispatched? (.act .reader) = d.ack? := by
      rw [move.ack?_eq there, dispatched?]
      simp
    have here : s.link.traffic.connection = some c := here
    have there : (s.next (.act .reader)).link.traffic.connection = some c' := there
    rw [own]
    generalize (s.next (.act .reader)).link.traffic = u at move there
    cases does with
    | settle a =>
      cases move with
      | settle here' =>
        obtain rfl := Option.some.inj (here'.symm.trans here)
        obtain rfl := Option.some.inj there
        rfl
    | hangUp =>
      cases move with
      | close => exact absurd there (by simp)
    | post =>
      cases move with
      | post _ _ here' =>
        obtain rfl := Option.some.inj (here'.symm.trans here)
        obtain rfl := Option.some.inj there
        simp [Deed.ack?]
    | read =>
      cases move with
      | chore here' | read here' | timeout here' =>
        obtain rfl := Option.some.inj (here'.symm.trans here)
        obtain rfl := Option.some.inj there
        rfl
    | poll =>
      cases move with
      | poll _ here' =>
        obtain rfl := Option.some.inj (here'.symm.trans here)
        obtain rfl := Option.some.inj there
        rfl

/-! ## From the opening on -/

/-- **Opening a port on a closed link.** -/
theorem alike_connect (closed : s.link.connection = none) (i : Nat) (port : String) :
    (s.connect i port none).Alike
      { s with
        link.status := .connecting
        link.connection := some (.fresh s.link.opened port)
        link.opened := s.link.opened + 1
        link.events := s.link.events.publish (.connected port)
        calls := s.calls.filter (·.1 ≠ i)
        results := s.results ++ [(i, .ok)] } := by
  simp only [connect, closed]
  simp [Alike, finish, give]

/-- A call that opens a port and has its turn. -/
theorem next_connect {i : Nat} {port : String} {refusal : Option DeviceFault}
    (stage : s.stage? i = some (.begin (.connect port refusal))) :
    s.next (.act (.call i)) = s.connect i port refusal := by
  show s.callTurn i = _
  simp only [callTurn, stage, beginCall]

/-- A closed link is opened in the turn of a call that opens a port. -/
theorem connect_of_closed (closed : s.link.connection = none)
    (opens : (s.next e).link.opened ≠ s.link.opened) :
    ∃ i port, e = .act (.call i) ∧ s.stage? i = some (.begin (.connect port none)) := by
  obtain ⟨ds, moves, does⟩ := next_trades s e
  rcases moves.of_closed closed with same | ⟨opened, -⟩
  · exact absurd (congrArg Traffic.opened same) opens
  · cases does _ opened with
    | «open» stage => exact ⟨_, _, rfl, stage⟩
    | write own => exact absurd own (by simp [Deed.byWriter])

/-- **A connection that is opened** is fresh, and the machine is connecting. -/
theorem fresh_of_closed (closed : s.link.connection = none)
    (there : (s.next e).link.connection = some c) :
    c = .fresh s.link.opened c.port ∧ (s.next e).link.status = .connecting := by
  have opens : (s.next e).link.opened ≠ s.link.opened := by
    intro still
    have stays := congrArg Traffic.connection (traffic_of_closed closed still)
    exact absurd ((stays.trans closed).symm.trans there) (by simp)
  obtain ⟨i, port, rfl, stage⟩ := connect_of_closed closed opens
  have link := (alike_connect closed i port).2.1
  rw [next_connect stage] at there ⊢
  rw [link] at there ⊢
  obtain rfl := Option.some.inj there
  exact ⟨rfl, rfl⟩

/-- **The frames that the reader cuts what it reads into**, from the opening of a connection on. -/
def frames (s : Session) (es : List Event) : List Frame :=
  (FrameSplitter.empty.feedAll (s.pieces es)).2

/-- **What the frames made of a session**, in a run from `s` that leads to the connection `c`. -/
structure Folds (s : Session) (es : List Event) (c : Connection) : Prop where
  /-- The pieces are what the device sent, as far as it was read. -/
  heard : heard es = (s.pieces es).flatten ++ c.inbox.flatMap Incoming.bytes?
  /-- The status is the last one that was reported and could be read. -/
  status : (s.after es).link.status
    = ((s.frames es).filterMap Frame.report?).getLast?.getD .connecting
  /-- Settings are put into the earlier ones, in order. -/
  settings : (s.after es).link.settings
    = ((s.frames es).filterMap Frame.entry?).foldl (fun m e => m.insert e.1 e.2) s.link.settings
  framesReceived : (s.after es).link.stats.framesReceived
    = s.link.stats.framesReceived + (s.frames es).length
  framesRejected : (s.after es).link.stats.framesRejected
    = s.link.stats.framesRejected + (s.frames es).countP Frame.isRejected
  bytesReceived : (s.after es).link.stats.bytesReceived
    = s.link.stats.bytesReceived + (s.pieces es).flatten.length
  /-- Nothing else is published. -/
  events : (s.after es).link.events.log
    = s.link.events.log ++ (s.frames es).flatMap Frame.events
  /-- Every acknowledgement is given away, in order. -/
  acks : s.dispatched es = (s.frames es).filterMap Frame.ack?
  /-- With each of them the oldest slot goes, if there is one. The reader takes no other slot. -/
  slots : ∀ h ∈ s.history es, h.2 = .act .reader → ∀ b b', h.1.link.connection = some b →
    (h.1.next h.2).link.connection = some b' →
    b'.slots = if (h.1.dispatched? h.2).isSome then b.slots.tail else b.slots

/-- **The reader is a fold over the frames**, from the opening of a connection on for as long as the
connection lasts and the settings are not forgotten, wherever the reader has nothing left to do. -/
theorem folds_frames (timeout : Option Nat) (before es : List Event) (e : Event) (c : Connection)
    (closed : ((initial timeout).after before).link.connection = none)
    (lasts : (((initial timeout).after before).next e).Lasts es)
    (keeps : ∀ h ∈ (((initial timeout).after before).next e).history es,
      h.1.forgets h.2 = false)
    (here : ((((initial timeout).after before).next e).after es).link.connection = some c)
    (done : c.chores = []) :
    (((initial timeout).after before).next e).Folds es c := by
  have filed := (onward_next (filed_after timeout before) e).1
  obtain ⟨c₀, start, -⟩ := lasts.start here
  obtain ⟨fresh, connecting⟩ := fresh_of_closed closed start
  generalize ((initial timeout).after before).next e = s at *
  have splitter : c₀.splitter = .empty := by rw [fresh]; rfl
  have nothing : c₀.inbox = [] := by rw [fresh]; rfl
  obtain ⟨c', did, there, intake⟩ := intake_after filed start (by rw [fresh]; rfl) lasts
  obtain rfl := Option.some.inj (there.symm.trans here)
  have all := intake.chores
  rw [done, List.append_nil, splitter] at all
  have outlook := intake.outlook keeps
  rw [all, FrameSplitter.foldl_choresAll, Outlook.foldl_note] at outlook
  constructor
  case heard => simpa [nothing] using intake.bytes
  case status => rw [← connecting]; exact congrArg Outlook.status outlook
  case settings => exact congrArg Outlook.settings outlook
  case framesReceived => exact congrArg Outlook.framesReceived outlook
  case framesRejected => exact congrArg Outlook.framesRejected outlook
  case bytesReceived => exact congrArg Outlook.bytesReceived outlook
  case events => exact congrArg Outlook.events outlook
  case acks => rw [intake.acks, all, FrameSplitter.acks_of_choresAll]; rfl
  case slots =>
    rintro ⟨t, f⟩ - rfl b b' between after_
    exact reader_slots between after_

/-- A port is opened, a line is sent, and the device sends reports of every kind in two pieces, with
a pause in which nothing comes. -/
def reports : List Event :=
  Event.swift 1 (.writeAcked "G0 X1") ++ List.replicate 3 (.act .writer) ++
    [.device 2 (.send "<Idle|MPos:1,2,3|FS:4,5>\r\n<Run|MPos:nowhere>\nALARM:9\no".toUTF8.toList),
      .device 3 (.failRead .timedOut), .device 4 (.send "k\n$100=250\nok\n".toUTF8.toList)] ++
    List.replicate 25 (.act .reader)

/-- The call that opens the port is about to have its turn. -/
def atPort : Session := (initial none).after [.call 0 (.connect "/dev/mock0" none)]

/-- The second report is rejected, and the second answer finds no slot. -/
theorem folds_frames_reports :
    atPort.link.connection = none ∧ (atPort.next (.act (.call 0))).Lasts reports ∧
      (∀ h ∈ (atPort.next (.act (.call 0))).history reports, h.1.forgets h.2 = false) ∧
      (atPort.next (.act (.call 0))).frames reports
        = [.status "<Idle|MPos:1,2,3|FS:4,5>", .status "<Run|MPos:nowhere>", .log "ALARM:9",
            .log "ok", .setting "100" "250", .log "ok"] ∧
      ∃ c, ((atPort.next (.act (.call 0))).after reports).link.connection = some c ∧
        c.chores = [] ∧ (atPort.next (.act (.call 0))).Folds reports c := by
  have closed : atPort.link.connection = none := by decide +kernel
  have lasts : (atPort.next (.act (.call 0))).Lasts reports :=
    ⟨by decide +kernel, by decide +kernel⟩
  have keeps : ∀ h ∈ (atPort.next (.act (.call 0))).history reports, h.1.forgets h.2 = false := by
    decide +kernel
  have finished : (((atPort.next (.act (.call 0))).after reports).link.connection.any
      (·.chores = [])) = true := by
    decide +kernel
  obtain ⟨c, here, done⟩ := (Option.any_eq_true _ _).mp finished
  have done := of_decide_eq_true done
  exact ⟨closed, lasts, keeps, by decide +kernel, c, here, done,
    folds_frames none [.call 0 (.connect "/dev/mock0" none)] reports (.act (.call 0)) c closed lasts
      keeps here done⟩

end Session

end Cnc
