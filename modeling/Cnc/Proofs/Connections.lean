import Cnc.Proofs.Intake
import Cnc.Proofs.Release

/-!
# Connections, one after the other

A link is opened and closed by calls, and it closes when the device goes away
or cannot be read any more. Four things are told about that in different
places: whether there is a connection, the status of the machine, the port,
and the events of the link. This module proves that they agree after every
run (`Session.lifecycle_after`): every event opens a connection, ends one, or
leaves all four alone (`Session.Passage`), apart from a status report, which
never says that the link is closed or was just opened.
-/

namespace Cnc

open Traffic

/-! ## What frames can tell -/

/-- **The state that a report names** is one that controllers report. -/
theorem MachineStatus.state_of_parse {text : List Char} {status : MachineStatus}
    (read : parse text = .ok status) : status.state ∈ MachineState.reportable := by
  unfold parse at read
  split at read
  · exact absurd read (by simp)
  · dsimp only at read
    split at read
    · exact absurd read (by simp)
    · next named =>
      split at read
      · exact absurd read (by simp)
      · split at read
        · exact absurd read (by simp)
        · obtain rfl := Except.ok.inj read
          exact List.mem_of_find?_eq_some named

/-- A state that controllers report is not one that only the link gives. -/
theorem MachineState.of_reportable {state : MachineState} (reports : state ∈ reportable) :
    state ≠ .disconnected ∧ state ≠ .connecting := by
  constructor <;> rintro rfl <;> exact absurd reports (by decide)

/-- Whether an event tells that a connection begins or ends. -/
def LinkEvent.marks : LinkEvent → Bool
  | .connected _ | .disconnected => true
  | _ => false

/-- Whether a chore leaves it to the link to tell that a connection begins or ends. -/
def Chore.Discreet : Chore → Prop
  | .setStatus status => status.state ∈ MachineState.reportable
  | .publish e => e.marks = false
  | _ => True

/-- **No frame tells that a connection begins or ends.** -/
theorem Frame.discreet (f : Frame) {ch : Chore} (member : ch ∈ f.chores) : ch.Discreet := by
  cases f with
  | status raw =>
    cases report : MachineStatus.parse raw.toList with
    | ok status =>
      simp only [Frame.chores, report, List.mem_cons, List.not_mem_nil, or_false] at member
      rcases member with rfl | rfl | rfl
      · exact trivial
      · exact MachineStatus.state_of_parse report
      · exact rfl
    | error e =>
      simp only [Frame.chores, report, List.mem_cons, List.not_mem_nil, or_false] at member
      rcases member with rfl | rfl | rfl
      · exact trivial
      · exact trivial
      · exact rfl
  | setting id value =>
    simp only [Frame.chores, List.mem_cons, List.not_mem_nil, or_false] at member
    rcases member with rfl | rfl | rfl
    · exact trivial
    · exact trivial
    · exact rfl
  | log line =>
    simp only [Frame.chores, List.mem_cons, List.mem_append, List.mem_flatMap, List.mem_map,
      List.not_mem_nil, or_false] at member
    rcases member with rfl | rfl | ⟨a, -, rfl | rfl⟩ | ⟨code, -, rfl⟩ <;> first | rfl | trivial

/-! ## Moves -/

namespace Traffic

variable {t u : Traffic} {d : Deed} {ds : List Deed}

/-- The port of the open connection. -/
def port? (t : Traffic) : Option String := t.connection.map (·.port)

theorem Move.port? (h : Move t d u) (notClose : d ≠ .close) (notOpen : d ≠ .open) :
    u.port? = t.port? ∧ u.opened = t.opened := by
  cases h with
  | close => exact absurd rfl notClose
  | «open» => exact absurd rfl notOpen
  | post a p here =>
    have enqueued (c : Connection) (p : Payload) (x : Nat) : (c.enqueue p x).port = c.port := by
      unfold Connection.enqueue; split <;> rfl
    simp [Traffic.port?, here, enqueued]
  | @device c d here =>
    have driven : (c.driven d).port = c.port := by cases d <;> rfl
    simp [Traffic.port?, here, driven]
  | read here => simp [Traffic.port?, here, Connection.readPiece]
  | poll _ here => simp [Traffic.port?, here]
  | _ here => simp [Traffic.port?, here]

theorem Moves.port? (h : Moves t ds u) (lasts : ∀ d ∈ ds, d ≠ .close ∧ d ≠ .open) :
    u.port? = t.port? ∧ u.opened = t.opened := by
  induction h with
  | nil => exact ⟨rfl, rfl⟩
  | cons first _ ih =>
    obtain ⟨port, opened⟩ := ih fun d member => lasts d (List.mem_cons_of_mem _ member)
    obtain ⟨notClose, notOpen⟩ := lasts _ List.mem_cons_self
    obtain ⟨port', opened'⟩ := first.port? notClose notOpen
    exact ⟨port.trans port', opened.trans opened'⟩

/-- Nothing that is still to be done with what was received tells that a connection begins or
ends. -/
def Discreet (t : Traffic) : Prop := ∀ c, t.connection = some c → ∀ ch ∈ c.chores, ch.Discreet

theorem Move.discreet (h : Move t d u) (discreet : t.Discreet) : u.Discreet := by
  intro c' there ch member
  cases h with
  | close => exact absurd there (by simp)
  | «open» =>
    obtain rfl := Option.some.inj there
    exact absurd member (by simp [Connection.fresh])
  | post _ _ here =>
    obtain rfl := Option.some.inj there
    exact discreet _ here ch (by simpa using member)
  | device _ here =>
    obtain rfl := Option.some.inj there
    exact discreet _ here ch (by simpa using member)
  | settle here first =>
    obtain rfl := Option.some.inj there
    exact discreet _ here ch (first ▸ List.mem_cons_of_mem _ member)
  | chore here first =>
    obtain rfl := Option.some.inj there
    exact discreet _ here ch (first ▸ List.mem_cons_of_mem _ member)
  | read here =>
    obtain rfl := Option.some.inj there
    rcases List.mem_cons.mp member with rfl | ofFrame
    · exact trivial
    · obtain ⟨f, -, made⟩ := List.mem_flatMap.mp ofFrame
      exact f.discreet made
  | poll _ here =>
    obtain rfl := Option.some.inj there
    exact discreet _ here ch member
  | _ here =>
    obtain rfl := Option.some.inj there
    exact discreet _ here ch member

end Traffic

namespace Session

variable {s t : Session} {e : Event}

theorem discreet_after (timeout : Option Nat) (es : List Event) :
    ((initial timeout).after es).link.traffic.Discreet := by
  refine after_induction (P := fun s => s.link.traffic.Discreet) ?_ (fun s e discreet => ?_) es
  · intro c here
    exact absurd here (by simp [initial, Link.initial, Link.traffic])
  · obtain ⟨ds, moves, -⟩ := next_trades s e
    exact moves.induction discreet fun move => move.discreet

theorem Reachable.discreet (reachable : s.Reachable) : s.link.traffic.Discreet := by
  obtain ⟨timeout, es, rfl⟩ := reachable
  exact discreet_after timeout es

/-! ## Opening a port -/

/-- **What becomes of opening a port**, in the turn of the call `i` that leads from `s` to `t`. -/
inductive Opening (s : Session) (i : Nat) (port : String) (refusal : Option DeviceFault)
    (t : Session) : Prop
  | opened (accepted : refusal = none) (closed : s.link.connection = none)
    (result : t.results = s.results ++ [(i, .ok)])
    (connection : t.link.connection = some (.fresh s.link.opened port))
    (status : t.link.status = .connecting)
    (settings : t.link.settings = s.link.settings) (stats : t.link.stats = s.link.stats)
    (events : t.link.events = s.link.events.publish (.connected port))
  /-- The link is open already, or the device refuses, and nothing changes. -/
  | failed (f : LinkError)
    (cause : (∃ c, s.link.connection = some c ∧ f = .alreadyOpen c.port) ∨
      s.link.connection = none ∧ ∃ fault, refusal = some fault ∧
        f = .ofOpening port fault "open fault")
    (result : t.results = s.results ++ [(i, .linkError f)]) (link : t.link = s.link)
    (streamer : t.streamer = s.streamer)

/-- **Opening a port succeeds or changes nothing.** -/
theorem Reachable.opening (reachable : s.Reachable) {i : Nat} {port : String}
    {refusal : Option DeviceFault} (stage : s.stage? i = some (.begin (.connect port refusal))) :
    s.Opening i port refusal (s.next (.act (.call i))) := by
  rw [next_connect stage]
  cases here : s.link.connection with
  | some c =>
    have same : s.connect i port refusal = s.finish i (.linkError (.alreadyOpen c.port)) := by
      simp only [connect, here]
    rw [same]
    exact .failed _ (.inl ⟨c, here, rfl⟩) rfl rfl rfl
  | none =>
    cases refusal with
    | some fault =>
      have same : s.connect i port (some fault) = (s.setStatus .disconnected).finish i
          (.linkError (.ofOpening port fault "open fault")) := by
        simp only [connect, here]
      obtain ⟨-, link, streamer, -, -, -, results⟩ := alike_setStatus s .disconnected
      rw [same]
      refine .failed _ (.inr ⟨here, fault, rfl, rfl⟩) (congrArg (· ++ _) results) ?_ streamer
      -- the status of a closed link says so already
      refine link.trans ?_
      rw [← (reachable.shut here).status]
    | none =>
      obtain ⟨-, link, -, -, -, -, results⟩ := alike_connect here i port
      exact .opened rfl here results (by rw [link]) (by rw [link]) (by rw [link]) (by rw [link])
        (by rw [link])

/-- The port that a call opens in an event: its turn is to open it, and gives that it did. -/
def opens? (s : Session) (e : Event) : Option String :=
  match e with
  | .act (.call i) => match s.stage? i with
    | some (.begin (.connect port _)) =>
      if (s.next e).results = s.results ++ [(i, .ok)] then some port else none
    | _ => none
  | _ => none

/-- **The ports that are opened in a run**, one after the other. -/
def opens (s : Session) (es : List Event) : List String :=
  (s.history es).filterMap fun h => h.1.opens? h.2

theorem opens_concat (s : Session) (es : List Event) (e : Event) :
    s.opens (es ++ [e]) = s.opens es ++ ((s.after es).opens? e).toList := by
  rw [opens, history_concat, List.filterMap_append, opens]
  cases h : (s.after es).opens? e <;> simp [h]

/-! ## What an event does to the link -/

/-- What was told of connections that begin and end. -/
def marks (s : Session) : List LinkEvent := s.link.events.log.filter LinkEvent.marks

/-- **What an event can do to the link as a whole.** -/
inductive Passage (s : Session) (e : Event) : Prop
  | opens (port : String) (opens : s.opens? e = some port) (closed : s.link.connection = none)
    (there : (s.next e).link.connection = some (.fresh s.link.opened port))
    (opened : (s.next e).link.opened = s.link.opened + 1)
    (status : (s.next e).link.status = .connecting)
    (marks : (s.next e).marks = s.marks ++ [.connected port])
  | closes (aside : s.opens? e = none) (isOpen : s.link.connection.isSome = true)
    (closed : (s.next e).link.connection = none)
    (opened : (s.next e).link.opened = s.link.opened)
    (status : (s.next e).link.status = .disconnected)
    (marks : (s.next e).marks = s.marks ++ [.disconnected])
  | stays (aside : s.opens? e = none)
    (port : (s.next e).link.connection.map (·.port) = s.link.connection.map (·.port))
    (opened : (s.next e).link.opened = s.link.opened)
    (status : (s.next e).link.status = s.link.status ∨
      e = .act .reader ∧ (s.next e).link.connection.isSome = true ∧
        (s.next e).link.status.state ∈ MachineState.reportable)
    (marks : (s.next e).marks = s.marks)

theorem marks_of_log (same : t.link.events.log = s.link.events.log) : t.marks = s.marks := by
  rw [marks, same, marks]

/-- **As long as a connection lasts**, only reports change the status, and nothing is told of
connections that begin or end. -/
theorem Reachable.status_of_lasts (reachable : s.Reachable) {c c' : Connection}
    (here : s.link.connection = some c) (there : (s.next e).link.connection = some c') :
    ((s.next e).link.status = s.link.status ∨
        e = .act .reader ∧ (s.next e).link.status.state ∈ MachineState.reportable) ∧
      (s.next e).marks = s.marks := by
  by_cases reader : e = .act .reader
  · subst reader
    have same (outlook : (s.next (.act .reader)).outlook = s.outlook) :
        ((s.next (.act .reader)).link.status = s.link.status ∨
          Event.act .reader = .act .reader ∧
            (s.next (.act .reader)).link.status.state ∈ MachineState.reportable) ∧
          (s.next (.act .reader)).marks = s.marks :=
      ⟨.inl (congrArg Outlook.status outlook), marks_of_log (congrArg Outlook.events outlook)⟩
    have reading : s.Reading c (s.next (.act .reader)) c' := readerTurn_reading here there
    cases reading with
    | wait _ outlook => exact same outlook
    | read _ _ outlook => exact same outlook
    | timeout _ _ outlook => exact same outlook
    | @chore ch rest slots first outlook =>
      have discreet : ch.Discreet := reachable.discreet c here ch (first ▸ List.mem_cons_self)
      have status := congrArg Outlook.status outlook
      have events := congrArg Outlook.events outlook
      cases ch with
      | setStatus status' =>
        refine ⟨.inr ⟨rfl, ?_⟩, marks_of_log events⟩
        rw [show (s.next (.act .reader)).link.status = status' from status]
        exact discreet
      | publish ev =>
        refine ⟨.inl status, ?_⟩
        have log : (s.next (.act .reader)).link.events.log = s.link.events.log ++ [ev] := events
        have silent : ev.marks = false := discreet
        rw [marks, log, List.filter_append, marks]
        simp [silent]
      | _ => exact ⟨.inl status, marks_of_log events⟩
  · by_cases forgets : s.forgets e = true
    · obtain ⟨i, rfl, stage⟩ : ∃ i, e = .act (.call i) ∧
          s.stage? i = some (.begin .resetSettings) := by
        unfold Session.forgets at forgets
        split at forgets
        · exact ⟨_, rfl, of_decide_eq_true forgets⟩
        · exact absurd forgets (by simp)
      have turn : s.next (.act (.call i)) = { s with link.settings := .empty }.finish i .ok := by
        show s.callTurn i = _
        simp only [callTurn, stage, beginCall]
      rw [turn]
      exact ⟨.inl rfl, rfl⟩
    · have outlook := next_outlook reader here there (by simpa using forgets)
      exact ⟨.inl (congrArg Outlook.status outlook), marks_of_log (congrArg Outlook.events outlook)⟩

/-- No port is opened while the link is open. -/
theorem opens?_eq_none_of_open (isOpen : s.link.connection.isSome = true) : s.opens? e = none := by
  obtain ⟨c, here⟩ := Option.isSome_iff_exists.mp isOpen
  unfold opens?
  split
  · next i =>
    split
    · next port refusal stage =>
      have turn : (s.next (.act (.call i))).results
          = s.results ++ [(i, .linkError (.alreadyOpen c.port))] := by
        rw [next_connect stage]
        simp [connect, here, finish, give]
      simp [turn]
    · rfl
  · rfl

/-- Where a port is opened, a connection begins. -/
theorem Reachable.isOpen_of_opens (reachable : s.Reachable) {port : String}
    (opens : s.opens? e = some port) : (s.next e).link.connection.isSome = true := by
  unfold opens? at opens
  split at opens
  · split at opens
    · next stage =>
      split at opens
      · next given =>
        cases reachable.opening stage with
        | opened _ _ _ connection => simp [connection]
        | failed f _ result =>
          rw [given] at result
          exact absurd (List.append_cancel_left result) (by simp)
      · exact absurd opens (by simp)
    · exact absurd opens (by simp)
  · exact absurd opens (by simp)

/-- A connection that is open before and after an event is the same one. -/
theorem lasts_of_open {c c' : Connection} (here : s.link.connection = some c)
    (there : (s.next e).link.connection = some c') :
    (s.next e).link.traffic.port? = s.link.traffic.port? ∧
      (s.next e).link.opened = s.link.opened := by
  by_cases poller : ∃ n, e = .act (.poller n)
  · obtain ⟨n, rfl⟩ := poller
    obtain ⟨ds, moves, does⟩ := next_trades s (.act (.poller n))
    refine moves.port? fun d member => ?_
    cases does d member with
    | post | poll => exact ⟨by simp, by simp⟩
  · rcases next_makes s (fun n own => poller ⟨n, own⟩) with same | ⟨d, move, -⟩
    · exact ⟨congrArg Traffic.port? same, congrArg Traffic.opened same⟩
    · have here : s.link.traffic.connection = some c := here
      have there : (s.next e).link.traffic.connection = some c' := there
      refine move.port? ?_ ?_
      · rintro rfl
        generalize (s.next e).link.traffic = u at move there
        cases move with
        | close => exact absurd there (by simp)
      · rintro rfl
        generalize (s.next e).link.traffic = u at move there
        cases move with
        | «open» _ closed => exact absurd (closed.symm.trans here) (by simp)

/-- **Every event opens a connection, ends one, or does neither.** -/
theorem Reachable.passage (reachable : s.Reachable) (e : Event) : s.Passage e := by
  cases here : s.link.connection with
  | none =>
    have shut := reachable.shut here
    by_cases still : (s.next e).link.opened = s.link.opened
    · have stays := shut.stays still
      have rests := shut.rests stays
      refine .stays ?_ (by rw [stays, here]) still (.inl rests.status) (marks_of_log rests.events)
      cases opens : s.opens? e with
      | none => rfl
      | some port => exact absurd (reachable.isOpen_of_opens opens) (by simp [stays])
    · obtain ⟨i, port, rfl, stage⟩ := connect_of_closed here still
      obtain ⟨-, link, -, -, -, -, results⟩ := alike_connect here i port
      have turn := next_connect stage
      refine .opens port ?_ here ?_ ?_ ?_ ?_
      · have given : (s.next (.act (.call i))).results = s.results ++ [(i, .ok)] :=
          turn ▸ results
        simp only [opens?, stage, given, if_pos]
      · exact turn ▸ congrArg Link.connection link
      · exact turn ▸ congrArg Link.opened link
      · exact turn ▸ congrArg Link.status link
      · rw [turn, marks, link]
        simp [marks, LinkEvent.marks, List.filter_append]
  | some c =>
    have aside := opens?_eq_none_of_open (s := s) (e := e) (by simp [here])
    cases there : (s.next e).link.connection with
    | none =>
      obtain ⟨a, rfl, closing⟩ := closing_of_closed (by simp [here]) there
      have link : (s.next (.act a)).link = _ := closing.link here
      refine .closes aside (by simp [here]) there (by rw [link]) (by rw [link]) ?_
      rw [marks, link]
      simp [marks, LinkEvent.marks, List.filter_append]
    | some c' =>
      obtain ⟨port, opened⟩ := lasts_of_open here there
      obtain ⟨status, marks⟩ := reachable.status_of_lasts here there
      refine .stays aside port opened (status.imp_right fun ⟨reader, reports⟩ => ?_) marks
      exact ⟨reader, by simp [there], reports⟩

/-! ## The whole run -/

/-- **What is told of connections** that are opened one after the other, the last of them ended or
not. -/
def markings (ports : List String) (isOpen : Bool) : List LinkEvent :=
  let all := ports.flatMap fun port => [LinkEvent.connected port, .disconnected]
  if isOpen then all.dropLast else all

theorem markings_opened (ports : List String) (port : String) :
    markings (ports ++ [port]) true = markings ports false ++ [.connected port] := by
  simp [markings, List.dropLast_append_of_ne_nil]

theorem markings_closed {ports : List String} (some : ports ≠ []) :
    markings ports false = markings ports true ++ [.disconnected] := by
  obtain ⟨rest, port, rfl⟩ := List.eq_nil_or_concat ports |>.resolve_left some
  simp [markings, List.dropLast_append_of_ne_nil]

/-- **What a run from `s₀` tells of its connections**, and what can be told next. -/
structure Lifecycle (s₀ : Session) (es : List Event) : Prop where
  /-- The link is open exactly if its status does not say that it is closed. -/
  isOpen_iff : (s₀.after es).link.connection.isSome = true ↔
    (s₀.after es).link.status.state ≠ .disconnected
  /-- On a closed link everything is zero, and no answer is expected any more. -/
  closed : (s₀.after es).link.connection = none →
    (s₀.after es).link.status = ⟨.disconnected, ⟨0.0, 0.0, 0.0⟩, 0.0, 0.0⟩ ∧
      (s₀.after es).link.traffic.slots = [] ∧
      ∀ x ∈ (s₀.after es).link.traffic.placed, (s₀.after es).link.answer? x ≠ none
  /-- The port is the last one that was opened, as long as the link is open. -/
  port : (s₀.after es).link.connection.map (·.port)
    = if (s₀.after es).link.connection.isSome then (s₀.opens es).getLast? else none
  opened : (s₀.opens es).length = (s₀.after es).link.opened
  /-- Every connection was told of when it began, and when it ended. -/
  marks : (s₀.after es).marks
    = markings (s₀.opens es) (s₀.after es).link.connection.isSome
  opening : ∀ i port refusal, (s₀.after es).stage? i = some (.begin (.connect port refusal)) →
    (s₀.after es).Opening i port refusal ((s₀.after es).next (.act (.call i)))
  passage : ∀ e, (s₀.after es).Passage e
  /-- No frame sets a status that is the link's to give. -/
  frames : ∀ (f : Frame) status, .setStatus status ∈ f.chores →
    status.state ≠ .disconnected ∧ status.state ≠ .connecting

/-- What is told of the connections after an event follows from what was told before. -/
theorem Passage.tracks {s₀ : Session} {es : List Event} {e : Event}
    (passage : (s₀.after es).Passage e)
    (opened : (s₀.opens es).length = (s₀.after es).link.opened)
    (newest : ∀ c, (s₀.after es).link.connection = some c → c.number < (s₀.after es).link.opened)
    (port : (s₀.after es).link.connection.map (·.port)
      = if (s₀.after es).link.connection.isSome then (s₀.opens es).getLast? else none)
    (marks : (s₀.after es).marks = markings (s₀.opens es) (s₀.after es).link.connection.isSome) :
    (s₀.opens (es ++ [e])).length = (s₀.after (es ++ [e])).link.opened ∧
      (s₀.after (es ++ [e])).link.connection.map (·.port)
        = (if (s₀.after (es ++ [e])).link.connection.isSome then (s₀.opens (es ++ [e])).getLast?
            else none) ∧
      (s₀.after (es ++ [e])).marks
        = markings (s₀.opens (es ++ [e])) (s₀.after (es ++ [e])).link.connection.isSome := by
  have last : s₀.after (es ++ [e]) = (s₀.after es).next e := after_append s₀ es [e]
  rw [last, opens_concat]
  cases passage with
  | opens p opens closed there opened' status marks' =>
    rw [opens, there, opened', marks', marks, closed]
    refine ⟨?_, ?_, ?_⟩
    · simp [opened]
    · simp [Connection.fresh]
    · exact (markings_opened _ _).symm
  | closes aside isOpen closed opened' status marks' =>
    rw [aside, closed, opened', marks', marks, isOpen]
    obtain ⟨c, here⟩ := Option.isSome_iff_exists.mp isOpen
    have some : s₀.opens es ≠ [] := by
      intro none
      have := newest c here
      simp [← opened, none] at this
    refine ⟨?_, ?_, ?_⟩
    · simp [opened]
    · simp
    · simpa using (markings_closed some).symm
  | stays aside port' opened' status marks' =>
    have isOpen : ((s₀.after es).next e).link.connection.isSome
        = (s₀.after es).link.connection.isSome := by
      simpa using congrArg Option.isSome port'
    rw [aside, port', opened', marks', marks, isOpen, port]
    refine ⟨?_, ?_, ?_⟩
    · simp [opened]
    · simp
    · simp

/-- **Connections are told of as they are.** After every run the link is open exactly if its status
says so, its port is the last one that was opened, and the events of the link tell of every
connection when it began and when it ended. -/
theorem lifecycle_after (timeout : Option Nat) (es : List Event) :
    (initial timeout).Lifecycle es := by
  have reachable := Reachable.of_run timeout es
  have tracks : ((initial timeout).opens es).length = ((initial timeout).after es).link.opened ∧
      ((initial timeout).after es).link.connection.map (·.port)
        = (if ((initial timeout).after es).link.connection.isSome
            then ((initial timeout).opens es).getLast? else none) ∧
      ((initial timeout).after es).marks = markings ((initial timeout).opens es)
        ((initial timeout).after es).link.connection.isSome := by
    induction es using List.reverseRecOn with
    | nil => exact ⟨rfl, rfl, rfl⟩
    | append_singleton es e ih =>
      have before := Reachable.of_run timeout es
      obtain ⟨opened, port, marks⟩ := ih before
      exact (before.passage e).tracks opened before.filed.newest port marks
  have online : ((initial timeout).after es).link.connection.isSome = true →
      ((initial timeout).after es).link.status.state ≠ .disconnected := by
    clear tracks reachable
    induction es using List.reverseRecOn with
    | nil => exact fun isOpen => absurd isOpen (by simp [initial, Link.initial])
    | append_singleton es e ih =>
      intro isOpen
      have last : (initial timeout).after (es ++ [e]) = ((initial timeout).after es).next e :=
        after_append _ es [e]
      rw [last] at isOpen ⊢
      cases (Reachable.of_run timeout es).passage e with
      | opens _ _ _ _ _ status =>
        rw [status]
        decide
      | closes _ _ closed => exact absurd isOpen (by simp [closed])
      | stays _ port _ status =>
        rcases status with same | ⟨-, -, reports⟩
        · rw [same]
          have before := congrArg Option.isSome port
          rw [Option.isSome_map, Option.isSome_map, isOpen] at before
          exact ih before.symm
        · exact (MachineState.of_reportable reports).1
  constructor
  case isOpen_iff =>
    refine ⟨online, fun status => ?_⟩
    by_contra closed
    have shut := reachable.shut (by simpa using closed)
    exact status (by rw [shut.status]; rfl)
  case closed =>
    intro closed
    have empty : ((initial timeout).after es).link.traffic.slots = [] := by
      simp [Traffic.slots, Link.traffic, closed]
    refine ⟨(reachable.shut closed).status, empty, fun x placed unanswered => ?_⟩
    have slot : x ∈ ((initial timeout).after es).link.traffic.slots := by
      rw [reachable.slotted.slots, List.mem_filter]
      exact ⟨placed, Option.isNone_iff_eq_none.mpr unanswered⟩
    exact absurd slot (by simp [empty])
  case port => exact tracks.2.1
  case opened => exact tracks.1
  case marks => exact tracks.2.2
  case opening => exact fun i port refusal stage => reachable.opening stage
  case passage => exact reachable.passage
  case frames => exact fun f status sets => MachineState.of_reportable (f.discreet sets)

/-- A port is opened, the device goes away, the next port is refused, and then opened. -/
example :
    let es := Event.swift 0 (.connect "/dev/a" none) ++ [.device 1 .hangUp, .act .reader] ++
      Event.swift 2 (.connect "/dev/b" (some .busy)) ++ Event.swift 3 (.connect "/dev/b" none)
    (initial none).opens es = ["/dev/a", "/dev/b"] ∧
      ((initial none).after es).marks
        = [.connected "/dev/a", .disconnected, .connected "/dev/b"] := by
  decide +kernel

end Session

end Cnc
