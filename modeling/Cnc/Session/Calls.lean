import Cnc.Session.Streaming

/-!
# Host calls, pollers and refreshers

What the calls of a host do when they have their turn. A call that sends
something waits to know what became of it, and then finishes its errand.

The calls that start, pause, resume or stop a job take turns in the order in
which they came, and each keeps its turn until it gives its result.
-/

namespace Cnc.Session

/-- Removes a subscription that is no longer needed. -/
def unsubscribe (s : Session) (sub : Nat) : Session :=
  { s with link.events := s.link.events.unsubscribe sub }

/-- Adds a timer that asks for the settings after a delay. -/
def spawnRefresher (s : Session) (delay : Nat) : Session :=
  let refresher : Refresher := ⟨s.spawned, s.now + delay, none⟩
  { s with refreshers := s.refreshers ++ [refresher], spawned := s.spawned + 1 }.wake
    (.refresher s.spawned)

/-- Opens a port, unless the link is open or the device refuses. -/
def connect (s : Session) (i : Nat) (port : String) (refusal : Option DeviceFault) : Session :=
  match s.link.connection with
  | some c => s.finish i (.linkError (.alreadyOpen c.port))
  | none =>
    match refusal with
    | some fault =>
      (s.setStatus .disconnected).finish i (.linkError (.ofOpening port fault "open fault"))
    | none =>
      let opened := { s.setStatus .connecting with
        link.connection := some (.fresh s.link.opened port)
        link.opened := s.link.opened + 1 }
      (opened.publish (.connected port)).finish i .ok

/-- Hands a call's payload over and notes what to do then; on a closed link it fails at once. -/
def send (s : Session) (i : Nat) (payload : Payload) (errand : Errand) : Session :=
  match s.post? (.call i) payload with
  | none => s.finish i (.linkError .notConnected)
  | some (ticket, s) => s.setStage i (.sending ticket errand)

/-- Adds a status poller to the open connection. A poller without an interval never asks. -/
def addPoller (s : Session) (i interval : Nat) : Session :=
  match s.link.connection with
  | none => s.finish i (.linkError .notConnected)
  | some c =>
    if interval = 0 then s.finish i .ok
    else
      let poller : Poller := ⟨s.spawned, interval, s.now, none⟩
      let added := s.withConnection { c with pollers := c.pollers ++ [poller] }
      ({ added with spawned := s.spawned + 1 }.wake (.poller s.spawned)).finish i .ok

/-- Begins to write a setting and to listen for its report. -/
def beginConfirmation (s : Session) (i : Nat) (id : UInt16) (value : String) (delay timeout : Nat) :
    Session :=
  let sub := s.link.events.nextSubscription
  let listening := { s with link.events := s.link.events.subscribe }
  match listening.post? (.call i) (.ofLine s!"${id}={value}") with
  | none => (listening.unsubscribe sub).finish i (.linkError .notConnected)
  | some (ticket, s) =>
    s.setStage i (.sending ticket (.setting delay (some ⟨toString id, sub, timeout⟩)))

/-! ## Controlling a job -/

/-- Starts a job. -/
def startJob (s : Session) (i : Nat) (program : String) : Session :=
  let lines := Job.linesOf program
  if s.streamer.state ≠ .idle then (s.finish i (.jobError .alreadyRunning)).endTurn
  else if lines = [] then (s.finish i (.jobError .empty)).endTurn
  else if s.link.connection.isNone then (s.finish i (.jobError (.link .notConnected))).endTurn
  else
    let job : Job := ⟨s.streamer.started, lines⟩
    let set := { s with
      streamer.job := some job
      streamer.progress := ⟨0, lines.length⟩
      streamer.started := s.streamer.started + 1 }
    let running := (set.setState .running).announce (.started lines.length)
    ((running.withTask ⟨job, 0, .ready⟩).wake (.job job.number)).endTurn.finish i .ok

/-- Hands over the realtime command of a call that has its turn. -/
def sendControl (s : Session) (i : Nat) (command : Realtime) (errand : Errand)
    (closed : Session → Session) : Session :=
  match s.post? (.call i) (.realtime command) with
  | none => ((closed s).finish i (.jobError (.link .notConnected))).endTurn
  | some (ticket, s) => s.setStage i (.sending ticket errand)

/-- What a call does when it has its turn at the job streamer. -/
def control (s : Session) (i : Nat) (c : Control) : Session :=
  match c with
  | .start program => s.startJob i program
  | .pause =>
    if s.streamer.state = .running then
      let paused := (s.setState .paused)
      (paused.wakeAll paused.watchingTask).sendControl i .feedHold .pause id
    else (s.finish i (.jobError .notRunning)).endTurn
  | .resume =>
    if s.streamer.state = .paused then s.sendControl i .cycleStart .resume id
    else (s.finish i (.jobError .notPaused)).endTurn
  | .stop =>
    if s.streamer.state = .running ∨ s.streamer.state = .paused then
      s.dropTask.sendControl i .softReset .stop (·.conclude .stopped)
    else (s.finish i (.jobError .notRunning)).endTurn

/-- Takes a place in the order of turns, and acts if it is the first. -/
def takeTurn (s : Session) (i : Nat) (c : Control) : Session :=
  let queued := { s with streamer.turns := s.streamer.turns ++ [i] }
  if s.streamer.turns = [] then queued.control i c else queued.setStage i (.turn c)

/-! ## The stages of a call -/

/-- Begins a call. -/
def beginCall (s : Session) (i : Nat) (c : Call) : Session :=
  match c with
  | .connect port refusal => s.connect i port refusal
  | .disconnect => s.endConnection.finish i .ok
  | .write line => s.send i (.ofLine line) .report
  | .writeAcked line => s.send i (.ofLine line) .reportAnswer
  | .realtime command => s.send i (.realtime command) (.realtime command)
  | .control c => s.takeTurn i c
  | .wait =>
    if s.streamer.state = .idle then s.finish i .idle else s.setStage i .awaitingIdle
  | .poll interval => s.addPoller i interval
  | .writeSetting id value delay => s.send i (.ofLine s!"${id}={value}") (.setting delay none)
  | .confirmSetting id value delay timeout => s.beginConfirmation i id value delay timeout
  | .settings => s.finish i (.settings s.link.settings.entries)
  | .resetSettings => { s with link.settings := .empty }.finish i .ok
  | .jobLines => s.finish i (.lines (s.streamer.job.map (·.lines)))
  | .ports => s.finish i (.ports [devicePort])

/-- Finishes the errand of a call whose payload was not sent. -/
def failErrand (s : Session) (i : Nat) (errand : Errand) (e : LinkError) : Session :=
  match errand with
  | .report | .reportAnswer | .realtime _ => s.finish i (.linkError e)
  | .pause | .resume => (s.finish i (.jobError (.link e))).endTurn
  | .stop => ((s.conclude .stopped).finish i (.jobError (.link e))).endTurn
  | .setting _ confirmation =>
    (match confirmation with
      | some c => s.unsubscribe c.subscription
      | none => s).finish i (.linkError e)

/-- Goes on after the payload of a call was sent. After a soft reset the controller answers none of
the lines before it. -/
def countErrand (s : Session) (i ticket : Nat) (errand : Errand) : Session :=
  let counting (s : Session) := (s.setStage i (.counting ticket errand)).again (.call i)
  if errand.isReset then s.use (.call i) .slots dropAnswers counting else counting s.spend

/-- Finishes the errand of a call whose payload was sent and counted. -/
def doErrand (s : Session) (i ticket : Nat) (errand : Errand) : Session :=
  match errand with
  | .report | .realtime _ => s.finish i .ok
  | .reportAnswer => ((s.give i .sent).setStage i (.awaitingAnswer ticket)).again (.call i)
  | .pause => (s.finish i .ok).endTurn
  | .resume =>
    let running := s.setState .running
    ((running.wakeAll running.watchingTask).finish i .ok).endTurn
  | .stop => ((s.conclude .stopped).finish i .ok).endTurn
  | .setting delay confirmation =>
    let refreshing := s.spawnRefresher delay
    match confirmation with
    | none => refreshing.finish i .ok
    | some c =>
      (refreshing.setStage i (.confirming c.key c.subscription (s.now + c.timeout))).again (.call i)

/-- What an event means to a call that waits for a setting: its report, or the end of the
connection. -/
def verdict? (key : String) (h : Heard LinkEvent) : Option Bool :=
  match h with
  | .event (.setting id _) => if id = key then some true else none
  | .event .disconnected => some false
  | _ => none

/-- The turn of a call that waits for a setting to be reported: it hears the next event. One that
has no credit left gives up if its time is over, and else gives way. -/
def confirmTurn (s : Session) (i : Nat) (key : String) (sub deadline : Nat) : Session :=
  let timeUp := (s.unsubscribe sub).finish i (.reported none)
  if s.credit = 0 then if deadline ≤ s.now then timeUp else s.giveWay (.call i)
  else match s.link.events.receive sub with
    | (none, _) => if deadline ≤ s.now then timeUp else s
    | (some heard, events) =>
      let heeded := { s with link.events := events }.spend
      match verdict? key heard with
      | none => heeded.again (.call i)
      | some true => ((heeded.unsubscribe sub).setStage i (.lookingUp key)).again (.call i)
      | some false => (heeded.unsubscribe sub).finish i (.linkError .notConnected)

/-- The turn of a host call; a call that has given its last result does nothing. -/
def callTurn (s : Session) (i : Nat) : Session :=
  match s.stage? i with
  | none => s
  | some (.begin c) => s.beginCall i c
  | some (.turn c) => if s.streamer.turns.head? = some i then s.control i c else s
  | some (.sending ticket errand) =>
    match s.link.delivery? ticket with
    | none => s
    | some d => match d.error? with
      | some e => s.failErrand i errand e
      | none => s.countErrand i ticket errand
  | some (.counting ticket errand) =>
    s.use (.call i) .stats (·.countSent ticket) (·.doErrand i ticket errand)
  | some (.awaitingAnswer ticket) =>
    match s.link.answer? ticket with
    | none => s
    | some (.ack a) => s.finish i (.ack a)
    | some .lost => s.finish i (.linkError .notConnected)
  | some .awaitingIdle => if s.streamer.state = .idle then s.finish i .idle else s
  | some (.confirming key sub deadline) => s.confirmTurn i key sub deadline
  | some (.lookingUp key) =>
    s.use (.call i) .settings id fun s => s.finish i (.reported (s.link.settings.get? key))

/-! ## Pollers and refreshers -/

/-- Changes a poller of the open connection. -/
def setPoller (s : Session) (p : Poller) : Session :=
  match s.link.connection with
  | none => s
  | some c =>
    s.withConnection
      { c with pollers := c.pollers.map fun q => if q.number = p.number then p else q }

/-- The turn of a poller: it sends a query that is due, or ends one that was delivered. -/
def pollerTurn (s : Session) (number : Nat) : Session :=
  match s.poller? number with
  | none => s
  | some p =>
    match p.sending with
    | none =>
      if p.due ≤ s.now then
        match s.post? (.poller number) (.realtime .statusQuery) with
        | none => s
        | some (ticket, sent) =>
          sent.setPoller { p with due := p.next s.now, sending := some ticket }
      else s
    | some ticket =>
      match s.link.delivery? ticket with
      | none => s
      | some d =>
        let go (s : Session) := (s.setPoller { p with sending := none }).again (.poller number)
        if d = .sent then s.use (.poller number) .stats (·.countSent ticket) go else go s

/-- Removes a refresher that is done. -/
def dropRefresher (s : Session) (number : Nat) : Session :=
  { s with refreshers := s.refreshers.filter (·.number ≠ number) }

/-- The turn of a refresher: it asks for the settings when it is due, and ends when the request was
delivered or the link is closed. -/
def refresherTurn (s : Session) (number : Nat) : Session :=
  match s.refresher? number with
  | none => s
  | some r =>
    match r.sending with
    | none =>
      if r.due ≤ s.now then
        match s.post? (.refresher number) (.ofLine Command.dumpSettings.line) with
        | none => s.dropRefresher number
        | some (ticket, sent) =>
          { sent with refreshers := sent.refreshers.map fun q =>
              if q.number = number then { q with sending := some ticket } else q }
      else s
    | some ticket =>
      match s.link.delivery? ticket with
      | none => s
      | some d =>
        if d = .sent then
          s.use (.refresher number) .stats (·.countSent ticket) (·.dropRefresher number)
        else s.dropRefresher number

end Cnc.Session
