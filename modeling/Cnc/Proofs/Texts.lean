import Cnc.Proofs.Lifecycle
import Cnc.Proofs.Payloads
import Cnc.Proofs.Reception
import Cnc.Proofs.Retries

/-!
# Where lines come from

Every line that is handed to the link is a text that somebody gave, with a
line feed at its end (`Session.gives_after`). A host call gives the text that
it was made with, a setting among them; a job gives a line of its program; and
a refresher asks for the settings.

What a job or a refresher gives is one line to the controller, and so is what
a host sends as a command that is not raw: none of these texts has a line feed
in it. A raw text or the value of a setting is passed on as it is.
-/

namespace Cnc

/-! ## Texts without line feeds -/

/-- **A line of a text** has no line feed. -/
theorem Text.lineFeed_not_mem_lines {text line : List Char} (member : line ∈ lines text) :
    '\n' ∉ line := by
  rcases List.mem_append.mp member with terminated | last
  · obtain ⟨piece, found, rfl⟩ := List.mem_map.mp terminated
    have clean := not_mem_of_mem_splitOn (List.dropLast_subset _ found)
    unfold dropCarriageReturn
    split
    · exact fun inside => clean (List.dropLast_subset _ inside)
    · exact clean
  · split at last
    · exact absurd last List.not_mem_nil
    · rw [List.mem_singleton.mp last]
      cases ends : (text.splitOn '\n').getLast? with
      | none => exact List.not_mem_nil
      | some piece => exact not_mem_of_mem_splitOn (List.mem_of_getLast? ends)

theorem Gcode.mem_of_mem_outsideComments {text : List Char} {inside : Bool} {c : Char}
    (member : c ∈ outsideComments inside text) : c ∈ text := by
  fun_induction outsideComments inside text with
  | case1 => exact member
  | case2 d rest ih => exact List.mem_cons_of_mem _ (ih member)
  | case3 rest ih => exact List.mem_cons_of_mem _ (ih member)
  | case4 rest other => exact absurd member List.not_mem_nil
  | case5 d rest notOpen notComment ih =>
    rcases List.mem_cons.mp member with rfl | later
    · exact List.mem_cons_self
    · exact List.mem_cons_of_mem _ (ih later)

/-- **A line of a job** has no line feed. -/
theorem Job.lineFeed_not_mem_linesOf {program line : String} (member : line ∈ linesOf program) :
    '\n' ∉ line.toList := by
  obtain ⟨kept, found, rfl⟩ := List.mem_map.mp member
  obtain ⟨whole, among, rfl⟩ := List.mem_map.mp (List.mem_filter.mp found).1
  rw [String.toList_ofList]
  intro inside
  rw [Gcode.stripComments_eq] at inside
  exact Text.lineFeed_not_mem_lines (List.mem_filter.mp among).1
    (Gcode.mem_of_mem_outsideComments (Text.mem_of_mem_trim inside))

/-- Digits are no line feeds. -/
theorem Layout.lineFeed_not_mem_placeDigits (n : Nat) (k : Int) : '\n' ∉ placeDigits n k := by
  have digits : '\n' ∉ digitsOf n := fun inside =>
    absurd (Nat.isDigit_of_mem_toDigits (by decide) (by decide) inside) (by decide)
  have zeros (m : Nat) : '\n' ∉ zeros m := fun inside =>
    absurd (List.eq_of_mem_replicate inside) (by decide)
  unfold placeDigits
  dsimp only
  split
  · simp [digits, zeros]
  · split
    · simp only [List.mem_append, List.mem_cons, not_or]
      exact ⟨fun inside => digits (List.mem_of_mem_take inside), by decide,
        fun inside => digits (List.mem_of_mem_drop inside)⟩
    · simp [digits, zeros]

theorem Layout.lineFeed_not_mem_positional (x : Float) (plus : Bool) :
    '\n' ∉ positional x plus := by
  have sign (negative plus : Bool) : '\n' ∉ signText negative plus := by
    cases negative <;> cases plus <;> decide
  unfold positional
  split
  · unfold nonFiniteText
    split
    · decide
    · rw [List.mem_append, not_or]
      exact ⟨sign _ _, by decide⟩
  · dsimp only
    rw [List.mem_append, not_or]
    exact ⟨sign _ _, lineFeed_not_mem_placeDigits _ _⟩

/-- **A command that is not raw** is one line. -/
theorem Command.lineFeed_not_mem_line {c : Command} (notRaw : ∀ text, c ≠ .raw text) :
    '\n' ∉ c.line.toList := by
  cases c with
  | home | unlock | dumpSettings | zeroWorkOffset => decide
  | raw text => exact (notRaw text rfl).elim
  | jog axis delta feed =>
    have letter : axis.letter ≠ '\n' := by cases axis <;> decide
    have parts : (jog axis delta feed).line = String.ofList ("$J=G91 G21 ".toList ++ axis.letter ::
        Layout.positional delta true ++ " F".toList ++ Layout.positional feed false) := rfl
    rw [parts, String.toList_ofList]
    intro inside
    rcases List.mem_append.mp inside with front | last
    · rcases List.mem_append.mp front with front | between
      · rcases List.mem_append.mp front with first | middle
        · exact absurd first (by simp)
        · rcases List.mem_cons.mp middle with same | distance
          · exact letter same.symm
          · exact Layout.lineFeed_not_mem_positional delta true distance
      · exact absurd between (by simp)
    · exact Layout.lineFeed_not_mem_positional feed false last

/-! ## What is handed over in a turn -/

/-- The text that a call gives to be sent as a line. -/
def Call.text? : Call → Option String
  | .write line | .writeAcked line => some line
  | .writeSetting id value _ | .confirmSetting id value _ _ => some s!"${id}={value}"
  | _ => none

namespace Session

open Traffic

variable {s t u : Session} {a : Actor} {p : Payload} {i x : Nat}

/-- **What an actor may hand over** in its turn. -/
inductive Hands (s : Session) : Actor → Payload → Prop
  | text {i : Nat} {c : Call} {text : String} (stage : s.stage? i = some (.begin c))
      (given : c.text? = some text) : Hands s (.call i) (.ofLine text)
  | command (i : Nat) (command : Realtime) : Hands s (.call i) (.realtime command)
  | line {k : StreamTask} {line : String} (task : s.streamer.task = some k)
      (next : k.job.lines[k.cursor]? = some line) : Hands s (.job k.job.number) (.ofLine line)
  | query (n : Nat) : Hands s (.poller n) (.realtime .statusQuery)
  | refresh (n : Nat) : Hands s (.refresher n) (.ofLine Command.dumpSettings.line)

/-- **A turn that leads from `s` to `t` hands over at most one payload.** -/
def Utters (s : Session) (a : Actor) (t : Session) : Prop :=
  t.link.traffic.origins = s.link.traffic.origins ∨
    ∃ n p, s.Hands a p ∧
      t.link.traffic.origins = s.link.traffic.origins ++ [(n, a, p)]

namespace Utters

/-- Nothing is handed over. -/
theorem silent (same : t.link.traffic = s.link.traffic) : s.Utters a t :=
  .inl (congrArg Traffic.origins same)

/-- What comes after hands nothing over. -/
theorem congr (h : s.Utters a t) (same : u.link.traffic.origins = t.link.traffic.origins) :
    s.Utters a u := by
  unfold Utters at h ⊢
  rwa [same]

/-- A payload is handed over. -/
theorem post (posted : u.post? a p = some (x, t)) (same : u.link.traffic = s.link.traffic)
    (hands : s.Hands a p) : s.Utters a t := by
  have move := (post?_move posted).2
  rw [same] at move
  rcases move.origins with ⟨-, other⟩ | ⟨c, b, q, post, -, added⟩
  · exact absurd rfl (other a p)
  · obtain ⟨rfl, rfl⟩ : a = b ∧ p = q := by simpa using post
    exact .inr ⟨c.number, p, hands, added⟩

/-- Using a guarded part of the link hands nothing over, if what is done there and what comes after
do not. -/
theorem use {g : Guarded} {inside after : Session → Session}
    (within : ∀ u, (inside u).link.traffic.origins = u.link.traffic.origins)
    (later : ∀ u, (after u).link.traffic = u.link.traffic) :
    s.Utters a (s.use a g inside after) :=
  .inl (use_keeps (·.link.traffic.origins) (fun alike => congrArg (·.traffic.origins) alike.2.1)
    within fun u => congrArg Traffic.origins (later u))

end Utters

theorem send_utters (e : Errand) (hands : s.Hands (.call i) p) :
    s.Utters (.call i) (s.send i p e) := by
  unfold send
  split
  · exact .silent rfl
  · next posted => exact (Utters.post posted rfl hands).congr rfl

theorem sendControl_utters (command : Realtime) (e : Errand) {closed : Session → Session}
    (same : t.link.traffic = s.link.traffic)
    (shut : (closed t).link.traffic = t.link.traffic) :
    s.Utters (.call i) (t.sendControl i command e closed) := by
  unfold sendControl
  split
  · exact .silent (by simpa [Link.traffic, finish, give] using shut.trans same)
  · next posted => exact (Utters.post posted same (.command i command)).congr rfl

theorem control_utters (c : Control) (same : t.link.traffic = s.link.traffic) :
    s.Utters (.call i) (t.control i c) := by
  unfold control
  cases c with
  | start program => exact .silent ((startJob_traffic t i program).trans same)
  | pause =>
    dsimp only
    split
    · exact sendControl_utters _ _ (by simpa [Link.traffic] using same) rfl
    · exact .silent (by simpa [Link.traffic, finish, give] using same)
  | resume =>
    dsimp only
    split
    · exact sendControl_utters _ _ same rfl
    · exact .silent (by simpa [Link.traffic, finish, give] using same)
  | stop =>
    dsimp only
    split
    · exact sendControl_utters _ _ (by simpa [Link.traffic] using same) (by simp [Link.traffic])
    · exact .silent (by simpa [Link.traffic, finish, give] using same)

/-- Ending a connection hands nothing over. -/
theorem origins_endConnection (s : Session) :
    s.endConnection.link.traffic.origins = s.link.traffic.origins := by
  cases here : s.link.connection with
  | none => simp [endConnection, here]
  | some c =>
    have move : Move s.link.traffic .close s.endConnection.link.traffic := by
      have close : Move s.link.traffic .close _ := .close here
      simpa [alike_endConnection here, Link.traffic] using close
    exact (move.origins.resolve_right (by simp)).1

/-- Giving up all answers hands nothing over. -/
theorem origins_dropAnswers (s : Session) :
    s.dropAnswers.link.traffic.origins = s.link.traffic.origins := by
  cases here : s.link.connection with
  | none => simp [dropAnswers, here]
  | some c =>
    have move : Move s.link.traffic .clear s.dropAnswers.link.traffic := by
      have clear : Move s.link.traffic .clear _ := .clear here
      simpa [alike_dropAnswers here, Link.traffic] using clear
    exact (move.origins.resolve_right (by simp)).1

theorem beginCall_utters {c : Call} (stage : s.stage? i = some (.begin c)) :
    s.Utters (.call i) (s.beginCall i c) := by
  unfold beginCall
  cases c with
  | connect port refusal =>
    refine .inl ?_
    dsimp only [connect]
    split
    · rfl
    · split
      · simp [Traffic.origins, Link.traffic, finish, give]
      · simp [Traffic.origins, Link.traffic, finish, give]
  | disconnect => exact .inl (origins_endConnection s)
  | write line | writeAcked line => exact send_utters _ (.text stage rfl)
  | writeSetting id value delay => exact send_utters _ (.text stage rfl)
  | realtime command => exact send_utters _ (.command i command)
  | confirmSetting id value delay timeout =>
    dsimp only [beginConfirmation]
    split
    · exact .silent rfl
    · next posted =>
      have uttered := Utters.post posted rfl (s := s) (.text stage rfl)
      exact uttered.congr rfl
  | control c =>
    dsimp only [takeTurn]
    split
    · exact control_utters c rfl
    · exact .silent rfl
  | poll interval =>
    refine .inl ?_
    dsimp only [addPoller]
    split
    · rfl
    · split
      · rfl
      · simp [Traffic.origins, Link.traffic, finish, give, withConnection]
  | wait =>
    dsimp only
    split
    · exact .silent rfl
    · exact .silent rfl
  | settings | resetSettings | jobLines | ports => exact .silent rfl

theorem callTurn_utters (s : Session) (i : Nat) : s.Utters (.call i) (s.callTurn i) := by
  unfold callTurn
  cases stage : s.stage? i with
  | none => exact .silent rfl
  | some st =>
    cases st with
    | begin c => exact beginCall_utters stage
    | turn c =>
      dsimp only
      split
      · exact control_utters c rfl
      · exact .silent rfl
    | sending x e =>
      dsimp only
      split
      · exact .silent rfl
      · split
        · exact .silent (failErrand_traffic s i e _)
        · unfold countErrand
          dsimp only
          split
          · exact .use origins_dropAnswers fun u => rfl
          · exact .silent rfl
    | counting x e =>
      exact .use (fun u => congrArg Traffic.origins (countSent_traffic u x))
        fun u => doErrand_traffic u i x e
    | awaitingAnswer x =>
      dsimp only
      split
      · exact .silent rfl
      · exact .silent rfl
      · exact .silent rfl
    | awaitingIdle =>
      dsimp only
      split
      · exact .silent rfl
      · exact .silent rfl
    | confirming key sub deadline => exact .silent (confirmTurn_traffic s i key sub deadline)
    | lookingUp key => exact .use (fun u => rfl) fun u => rfl

theorem origins_setPoller (s : Session) (q : Poller) :
    (s.setPoller q).link.traffic.origins = s.link.traffic.origins := by
  rw [setPoller_traffic]
  rfl

theorem pollerTurn_utters (s : Session) (n : Nat) : s.Utters (.poller n) (s.pollerTurn n) := by
  unfold pollerTurn
  split
  · exact .silent rfl
  · next q _ =>
    split
    · split
      · split
        · exact .silent rfl
        · next posted =>
          exact (Utters.post posted rfl (.query n)).congr (origins_setPoller _ _)
      · exact .silent rfl
    · next y _ =>
      split
      · exact .silent rfl
      · dsimp only
        split
        · refine .inl (use_keeps (·.link.traffic.origins)
            (fun alike => congrArg (·.traffic.origins) alike.2.1)
            (fun u => congrArg Traffic.origins (countSent_traffic u y)) fun u => ?_)
          exact origins_setPoller u _
        · exact .inl (origins_setPoller s _)

theorem refresherTurn_utters (s : Session) (n : Nat) :
    s.Utters (.refresher n) (s.refresherTurn n) := by
  unfold refresherTurn
  split
  · exact .silent rfl
  · split
    · split
      · split
        · exact .silent rfl
        · next posted => exact (Utters.post posted rfl (.refresh n)).congr rfl
      · exact .silent rfl
    · next y _ =>
      split
      · exact .silent rfl
      · split
        · exact .use (fun u => congrArg Traffic.origins (countSent_traffic u y)) fun u => rfl
        · exact .silent rfl

/-- What is told about a post hands nothing over. -/
theorem origins_deliver (s : Session) (y : Nat) (f : Delivery) :
    (s.deliver y f).link.traffic.origins = s.link.traffic.origins := by
  rw [(alike_deliver s y f).2.1]
  refine map_origin_mark ?_ _ _
  intro p
  rfl

theorem origins_answer (s : Session) (y : Nat) (r : Answer) :
    (s.answer y r).link.traffic.origins = s.link.traffic.origins := by
  rw [(alike_answer s y r).2.1]
  refine map_origin_mark ?_ _ _
  intro p
  rfl

theorem writerTurn_utters (s : Session) : s.Utters .writer s.writerTurn := by
  unfold writerTurn
  split
  · exact .silent rfl
  · next c here =>
    cases stage : c.writer with
    | idle =>
      dsimp only
      split
      · exact .silent rfl
      · unfold takePayload
        split
        · exact .inl rfl
        · exact .inl rfl
        · exact .silent rfl
    | taken y => exact .use (fun u => rfl) fun u => rfl
    | writing y =>
      dsimp only
      split
      · exact .silent rfl
      · next free =>
        obtain ⟨d, move, -, tried⟩ := attemptWrite_move here stage (by simpa using free)
        rcases move.origins with ⟨same, -⟩ | ⟨_, _, _, rfl, -, -⟩
        · exact .inl same
        · exact absurd tried (by simp [Deed.attempt?])
    | failed y f =>
      refine .inl (use_keeps (·.link.traffic.origins)
        (fun alike => congrArg (·.traffic.origins) alike.2.1) (fun u => ?_)
        fun u => origins_deliver u y _)
      unfold giveUpSlot
      split
      · rfl
      · exact origins_answer _ _ _

theorem readerTurn_utters (s : Session) : s.Utters .reader s.readerTurn := by
  have chore (u : Session) (ch : Chore) :
      (u.doChore ch).link.traffic.origins = u.link.traffic.origins := by
    cases ch with
    | settle r =>
      dsimp only [doChore, settleAnswer]
      split
      · rfl
      · split
        · rfl
        · exact origins_answer _ _ _
    | setStatus status => simp [doChore, Link.traffic, Traffic.origins]
    | publish e => simp [doChore, Link.traffic, Traffic.origins]
    | countBytes | countFrame | countRejected | store => rfl
  unfold readerTurn
  split
  · exact .silent rfl
  · split
    · next ch rest _ =>
      unfold readerChore
      dsimp only
      split
      · exact .use (fun u => chore _ ch) fun u => rfl
      · exact .inl (chore _ ch)
    · exact .silent rfl
    · exact .inl rfl
    · exact .inl (origins_endConnection s)
    · exact .inl rfl
    · exact .inl (origins_endConnection s)

/-- **What is handed over in an event** is what the actor may hand over. -/
theorem next_hands {e : Event} {n : Nat} (new : s.link.posts.length ≤ x)
    (origin : (s.next e).link.traffic.origin? x = some (n, a, p)) :
    e = .act a ∧ s.Hands a p := by
  have sender : (s.next e).link.traffic.sender? x = some a := by simp [sender?_eq, origin]
  obtain ⟨ds, moves, does⟩ := next_trades s e
  obtain ⟨q, posted⟩ := moves.post_of_new new sender
  obtain rfl := (does _ posted).of_post
  refine ⟨rfl, ?_⟩
  have uttered (h : s.Utters a (s.next (.act a))) : s.Hands a p := by
    rw [← getElem?_origins] at origin
    have length : s.link.traffic.origins.length = s.link.posts.length := length_origins _
    rcases h with same | ⟨m, q, hands, added⟩
    · rw [same, List.getElem?_eq_none (by omega)] at origin
      exact absurd origin (by simp)
    · rw [added, List.getElem?_append_right (by omega)] at origin
      have last := List.mem_of_getElem? origin
      rw [List.mem_singleton] at last
      obtain ⟨-, rfl⟩ : n = m ∧ p = q := by simpa using last
      exact hands
  cases a with
  | call i => exact uttered (callTurn_utters s i)
  | poller m => exact uttered (pollerTurn_utters s m)
  | refresher m => exact uttered (refresherTurn_utters s m)
  | job m =>
    obtain ⟨k, line, task, rfl, -, next, payload⟩ := hands_of_new new sender
    rw [payload?_eq, origin] at payload
    obtain rfl : p = .ofLine line := by simpa using payload
    exact .line task next
  | writer => exact uttered (writerTurn_utters s)
  | reader => exact uttered (readerTurn_utters s)

/-! ## Runs -/

/-- **Who gives which text to be sent as a line** in a run from `s₀`. -/
inductive Gives (s₀ : Session) (es : List Event) : Actor → String → Prop
  | call {i : Nat} {c : Call} {text : String} (called : .call i c ∈ es)
      (given : c.text? = some text) : Gives s₀ es (.call i) text
  | job {n : Nat} {program line : String} (launched : (s₀.launched es)[n]? = some program)
      (member : line ∈ Job.linesOf program) : Gives s₀ es (.job n) line
  | refresher (n : Nat) : Gives s₀ es (.refresher n) Command.dumpSettings.line

/-- A call that has not begun is one that was made. -/
theorem called_of_begin (timeout : Option Nat) {es : List Event} {c : Call}
    (stage : ((initial timeout).after es).stage? i = some (.begin c)) : .call i c ∈ es := by
  induction es using List.reverseRecOn with
  | nil => exact absurd stage (by simp [initial, stage?])
  | append_singleton es e ih =>
    rw [after_append] at stage
    rcases next_follows _ e stage with ⟨st, before, follows⟩ | ⟨c', rfl, -, begins⟩
    · obtain rfl := follows.begin_iff rfl
      exact List.mem_append_left _ (ih before)
    · obtain rfl := CallStage.begin.inj begins
      exact List.mem_append_right _ (List.mem_singleton_self _)

theorem Gives.mono {s₀ : Session} {es : List Event} {text : String} (gives : s₀.Gives es a text)
    (e : Event) : s₀.Gives (es ++ [e]) a text := by
  cases gives with
  | call called given => exact .call (List.mem_append_left _ called) given
  | refresher n => exact .refresher n
  | job launched member =>
    refine .job ?_ member
    rw [launched_concat, List.getElem?_append_left (List.getElem?_eq_some_iff.mp launched).1]
    exact launched

/-- **Every line that was handed over is a text that its sender gave**, with a line feed at its end
unless the text had one. -/
theorem gives_after (timeout : Option Nat) (es : List Event) {n : Nat}
    (origin : ((initial timeout).after es).link.traffic.origin? x = some (n, a, p))
    (line : p.isLine = true) : ∃ text, (initial timeout).Gives es a text ∧ p = .ofLine text := by
  induction es using List.reverseRecOn with
  | nil => exact absurd origin (by simp [initial, Link.initial, Link.traffic, Traffic.origin?])
  | append_singleton es e ih =>
    rw [after_append] at origin
    have onward := (onward_next (filed_after timeout es) e).2
    by_cases known : x < ((initial timeout).after es).link.posts.length
    · obtain ⟨text, gives, own⟩ := ih ((origin?_of_kept onward.origins known).symm.trans origin)
      exact ⟨text, gives.mono e, own⟩
    · obtain ⟨rfl, hands⟩ := next_hands (Nat.not_lt.mp known) origin
      cases hands with
      | text stage given => exact ⟨_, (Gives.call (called_of_begin timeout stage) given).mono _, rfl⟩
      | command i command => exact absurd line (by simp [Payload.isLine])
      | query n => exact absurd line (by simp [Payload.isLine])
      | refresh n => exact ⟨_, .refresher n, rfl⟩
      | @line k text task next =>
        have attempts := attempts_after timeout es
        have present := (governed_after timeout es).task k task
        obtain ⟨program, launched, lines⟩ := attempts.job k.job present
        rw [lines] at next
        exact ⟨text, (Gives.job launched (List.mem_of_getElem? next)).mono _, rfl⟩

/-- **Only a host call gives a text that is more than one line** to the controller. -/
theorem Gives.oneLine {s₀ : Session} {es : List Event} {text : String} (gives : s₀.Gives es a text)
    (notCall : ∀ i, a ≠ .call i) : '\n' ∉ text.toList := by
  cases gives with
  | @call i => exact absurd rfl (notCall i)
  | job launched member => exact Job.lineFeed_not_mem_linesOf member
  | refresher n => exact Command.lineFeed_not_mem_line (c := .dumpSettings) (by simp)

end Session

end Cnc
