import Mathlib.Algebra.GroupWithZero.Nat
import Cnc.Proofs.Dialogue
import Cnc.Proofs.Texts

/-!
# One slot for each line

The host makes a slot for every line that it puts on the wire, and the
controller answers every line feed. This module compares the two, from the
opening of a connection on.

The slots that are made are those of the lines that are tried, in order, and
of the line that is being written (`Session.slotsMade_eq`), so when everybody
waits they are those of the lines that went over the wire. Each of these lines
ends with a line feed, but the text of a host call may have others in it: the
device receives one line feed more for each of them. So slots and line feeds
are equally many exactly if no text has a line feed before its end
(`Session.slots_per_line`), and then a device that answers every line feed
once fills every slot once.
-/

namespace Cnc

open Traffic

/-- The ticket of the payload that is being written. -/
def WriterStage.writing? : WriterStage → Option Nat
  | .writing x => some x
  | .idle | .taken _ | .failed .. => none

namespace Traffic

variable {t₀ t u : Traffic} {d : Deed} {ds : List Deed}

/-- The line that is being written. -/
def writing (t : Traffic) : List Nat :=
  (t.connection.bind (·.writer.writing?)).toList.filter t.isLine

/-- What is being written was handed over. -/
theorem Filed.writing_known (filed : t.Filed) {c : Connection} {x : Nat}
    (here : t.connection = some c) (writing : c.writer.writing? = some x) : x < t.posts.length := by
  cases stage : c.writer with
  | writing y =>
    obtain rfl : y = x := by simpa [stage, WriterStage.writing?] using writing
    exact (filed.delivery?_of_ticket here (by rw [stage]; rfl)).1
  | _ => simp [stage, WriterStage.writing?] at writing

/-- **A slot is made** when a line is about to be written, and the line is tried later. -/
theorem Move.slots_made (h : Move t d u) (filed : t.Filed) (lasts : d ≠ .close) :
    t.writing ++ u.slots.drop t.slots.length
      = (d.attempt?.toList.map (·.1)).filter t.isLine ++ u.writing := by
  have kept : u.writing = ((u.connection.bind (·.writer.writing?)).toList).filter u.isLine := rfl
  have isLine : (∀ a p, d ≠ .post a p) → u.isLine = t.isLine := fun other =>
    isLine_of_origins (h.origins.resolve_right fun ⟨_, a, p, same, _⟩ => other a p same).1
  cases h with
  | @post c a p here =>
    have same : ((c.writer.writing?).toList).filter (Traffic.isLine _)
        = (c.writer.writing?).toList.filter t.isLine :=
      List.filter_congr fun x hx =>
        isLine_of_kept (Move.post a p here).origins_kept
          (filed.writing_known here (by simpa using hx))
    simp only [kept, Option.bind_some, Connection.enqueue_writer, same]
    simp [Traffic.writing, Traffic.slots, here, Deed.attempt?]
  | @place c x here taken =>
    have line : t.isLine x = true := filed.line _ _ here (.inl taken)
    simp [Traffic.writing, isLine, Traffic.slots, here, taken, WriterStage.writing?, Deed.attempt?,
      line]
  | @takeRealtime c x rest here idle first =>
    have realtime : t.isLine x = false :=
      filed.sorted false x (by simp [queue, here, Connection.queue, first])
    simp [Traffic.writing, isLine, Traffic.slots, here, idle, WriterStage.writing?, Deed.attempt?,
      realtime]
  | takeLine here stage | giveUp here stage =>
    simp [Traffic.writing, Traffic.slots, here, stage, WriterStage.writing?, Deed.attempt?]
  | send here stage | refuseLine here stage | refuseRealtime here stage | spoilLine here stage
  | spoilRealtime here stage =>
    simp [Traffic.writing, Traffic.slots, here, stage, WriterStage.writing?, Deed.attempt?]
  | close => exact absurd rfl lasts
  | «open» port closed =>
    simp [Traffic.writing, Traffic.slots, closed, Connection.fresh, WriterStage.writing?,
      Deed.attempt?]
  | device _ here | read here | settle here | chore here | timeout here | poll _ here
  | clear here =>
    simp [Traffic.writing, isLine, Traffic.slots, here, Deed.attempt?]

/-- Handing something over and asking for the status make no slot and write nothing. -/
theorem Moves.slots_kept (h : Moves t ds u) (filed : t.Filed)
    (quiet : ∀ d ∈ ds, (∃ a p, d = .post a p) ∨ d = .poll) :
    u.slots = t.slots ∧ u.writing = t.writing := by
  induction h with
  | nil => exact ⟨rfl, rfl⟩
  | @cons t v u d ds first rest ih =>
    obtain ⟨slots, writing⟩ := ih (first.filed filed) fun d hd => quiet d (List.mem_cons_of_mem _ hd)
    have own := quiet d List.mem_cons_self
    have same : v.slots = t.slots := by
      rcases own with ⟨a, p, rfl⟩ | rfl
      · cases first with
        | post _ _ here => simp [Traffic.slots, here]
      · cases first with
        | poll _ here => simp [Traffic.slots, here]
    have made := first.slots_made filed (by rcases own with ⟨a, p, rfl⟩ | rfl <;> simp)
    have untried : d.attempt? = none := by rcases own with ⟨a, p, rfl⟩ | rfl <;> rfl
    rw [same, List.drop_length, List.append_nil, untried] at made
    exact ⟨slots.trans same, writing.trans made.symm⟩

/-- How many line feeds the payload with a ticket has before its last character. -/
def surplus (t : Traffic) (x : Nat) : Nat := ((t.payload? x).map Payload.surplus).getD 0

/-- **The device receives a line feed for each line, and one for each line feed inside a text.** -/
theorem count_lineFeed_wire {sent : List Nat} (known : ∀ x ∈ sent, x < t.posts.length)
    (texts : ∀ x ∈ sent, ∀ p, t.payload? x = some p → p.isLine = true →
      ∃ text, p = .ofLine text) :
    ((sent.filterMap t.payload?).flatMap Payload.bytes).count 10
      = (sent.filter t.isLine).length + ((sent.filter t.isLine).map t.surplus).sum := by
  induction sent with
  | nil => rfl
  | cons x sent ih =>
    have rest := ih (fun y hy => known y (List.mem_cons_of_mem _ hy))
      fun y hy => texts y (List.mem_cons_of_mem _ hy)
    obtain ⟨p, payload⟩ : ∃ p, t.payload? x = some p :=
      ⟨_, by rw [Traffic.payload?, List.getElem?_eq_getElem (known x List.mem_cons_self)]; rfl⟩
    have isLine : t.isLine x = p.isLine := by simp [Traffic.isLine, payload]
    rw [List.filterMap_cons, payload, List.flatMap_cons, List.count_append, rest, List.filter_cons,
      isLine]
    cases line : p.isLine with
    | false =>
      cases p with
      | line => exact absurd line (by simp [Payload.isLine])
      | realtime command =>
        have none : (Payload.realtime command).bytes.count 10 = 0 := by cases command <;> rfl
        rw [none, Nat.zero_add]
        rfl
    | true =>
      obtain ⟨text, rfl⟩ := texts x List.mem_cons_self p payload line
      have own : t.surplus x = (Payload.ofLine text).surplus := by simp [surplus, payload]
      rw [Payload.count_lineFeed_ofLine, if_pos rfl, List.length_cons, List.map_cons, List.sum_cons,
        own]
      omega

end Traffic

namespace Session

variable {s : Session} {e : Event} {es : List Event}

/-! ## The slots that are made -/

/-- The slots that are made in an event. -/
def newSlots (s : Session) (e : Event) : List Nat :=
  (s.next e).link.traffic.slots.drop s.link.traffic.slots.length

/-- **The slots that are made in a run**, in order. -/
def slotsMade (s : Session) (es : List Event) : List Nat :=
  (s.history es).flatMap fun h => h.1.newSlots h.2

theorem slotsMade_concat (s : Session) (es : List Event) (e : Event) :
    s.slotsMade (es ++ [e]) = s.slotsMade es ++ (s.after es).newSlots e := by
  rw [slotsMade, history_concat, List.flatMap_append, List.flatMap_singleton]
  rfl

/-- **A slot is made in an event** for a line that is about to be written, and the line is tried
later. -/
theorem next_slots (filed : s.link.traffic.Filed)
    (isOpen : (s.next e).link.connection.isSome = true) :
    s.link.traffic.writing ++ s.newSlots e
      = ((s.attempt? e).toList.map (·.1)).filter s.link.traffic.isLine
        ++ (s.next e).link.traffic.writing := by
  by_cases poller : ∀ n, e ≠ .act (.poller n)
  · rcases next_attempt? s poller with ⟨same, nothing⟩ | ⟨d, move, tries⟩
    · simp [newSlots, same, nothing]
    · rw [← tries]
      refine move.slots_made filed ?_
      rintro rfl
      have closed {u : Traffic} (close : Move s.link.traffic .close u) : u.connection = none := by
        cases close
        rfl
      have shut : (s.next e).link.connection = none := closed move
      exact absurd isOpen (by simp [shut])
  · obtain ⟨n, rfl⟩ := not_forall_not.mp poller
    obtain ⟨ds, moves, quiet⟩ := poller_trades s n
    obtain ⟨slots, writing⟩ := moves.slots_kept filed quiet
    rw [newSlots, slots, writing, attempt?_eq_none (by simp)]
    simp

/-- What is tried in a run was handed over before its last event. -/
theorem tries_known (filed : s.link.traffic.Filed) (es : List Event) (e : Event) :
    ∀ x ∈ (s.tries (es ++ [e])).map (·.1), x < (s.after es).link.posts.length := by
  have last (es : List Event) (e : Event) :
      ∀ x ∈ ((s.after es).attempt? e).toList.map (·.1), x < (s.after es).link.posts.length := by
    intro x member
    obtain ⟨⟨y, f⟩, tried, rfl⟩ := List.mem_map.mp member
    obtain ⟨-, -, -, known⟩ := known_of_attempt? (onward_after filed es).1 (by simpa using tried)
    exact known
  intro x member
  rw [tries_concat, List.map_append, List.mem_append] at member
  refine member.elim (fun before => ?_) (last es e x)
  clear member
  induction es using List.reverseRecOn with
  | nil => simp [tries] at before
  | append_singleton es d ih =>
    rw [tries_concat, List.map_append, List.mem_append] at before
    have onward := (onward_next (onward_after filed es).1 d).2
    rw [after_append]
    exact Nat.lt_of_lt_of_le (before.elim ih (last es d x)) (length_le_of_kept onward.origins)

/-- **The slots that are made** on a connection are those of the lines that are tried, in order, and
of the line that is being written. -/
theorem slotsMade_eq (filed : s.link.traffic.Filed) (idle : s.link.traffic.writing = [])
    (lasts : s.Lasts es) :
    s.slotsMade es = ((s.tries es).map (·.1)).filter (s.after es).link.traffic.isLine
      ++ (s.after es).link.traffic.writing := by
  induction es using List.reverseRecOn with
  | nil => simp [slotsMade, tries, idle]
  | append_singleton es e ih =>
    obtain ⟨before, -⟩ := lasts.init
    have isOpen := lasts.isOpen
    have there := (onward_after filed es).1
    -- what is tried is known before, and stays a line or a realtime command
    have kinds : ((s.tries (es ++ [e])).map (·.1)).filter (s.after es).link.traffic.isLine
        = ((s.tries (es ++ [e])).map (·.1)).filter (s.after (es ++ [e])).link.traffic.isLine := by
      refine List.filter_congr fun x member => ?_
      rw [after_append]
      exact (isLine_of_kept (onward_next there e).2.origins (tries_known filed es e x member)).symm
    rw [after_append] at isOpen
    rw [← kinds, slotsMade_concat, ih before, List.append_assoc, next_slots there isOpen,
      tries_concat, List.map_append, List.filter_append, List.append_assoc, after_append]
    rfl

/-- If nothing is refused, the slots that are made are those of the lines that go over the wire. -/
theorem slotsMade_of_unrefused (filed : s.link.traffic.Filed) (idle : s.link.traffic.writing = [])
    (lasts : s.Lasts es) (unrefused : ∀ x, (x, .failed .write) ∉ s.tries es) :
    s.slotsMade es = s.link.traffic.receivedSince (s.after es).link.traffic
      ++ (s.after es).link.traffic.writing := by
  have all : (s.tries es).filter (·.2 ≠ .failed .write) = s.tries es := by
    refine List.filter_eq_self.mpr fun p tried => decide_eq_true fun refused => ?_
    exact unrefused p.1 (by rw [← refused]; exact tried)
  have wire : (s.after es).link.traffic.wire
      = s.link.traffic.wire ++ (s.tries es).map (·.1) := by
    have wire := wire_after filed es
    rwa [all] at wire
  rw [slotsMade_eq filed idle lasts, Traffic.receivedSince, wire, List.drop_left]

/-- A writer that the device does not hold up waits for the next payload. -/
theorem idle_of_waits (waits : s.Waits .writer) {c : Connection}
    (here : s.link.connection = some c) (unstalled : c.stalled = false) : c.writer = .idle := by
  simp only [Waits, here] at waits
  cases stage : c.writer with
  | idle => rfl
  | writing x => simp [stage, unstalled] at waits
  | taken | failed => simp [stage] at waits

/-! ## One slot for each line -/

/-- **Slots and lines** in a run `es` from `s`, where `gives` says who has given which text to be
sent as a line. -/
structure SlotPerLine (s : Session) (es : List Event) (gives : Actor → String → Prop) : Prop where
  /-- Every line that was handed over is a text with a line feed at its end. It has no other if the
  text has none before its end, and only the text of a host call can have one. -/
  text : ∀ x n a p, (s.after es).link.traffic.origin? x = some (n, a, p) → p.isLine = true →
    ∃ text, gives a text ∧ p = .ofLine text ∧ (p.plain = true ↔ '\n' ∉ text.toList.dropLast) ∧
      (p.plain = false → ∃ i, a = .call i)
  /-- A command that is not raw has no line feed in its text. -/
  command : ∀ c : Command, (∀ text, c ≠ .raw text) → '\n' ∉ c.line.toList
  /-- The slots that were made are those of the lines that went over the wire, in order. -/
  slots : s.slotsMade es = s.link.traffic.receivedSince (s.after es).link.traffic
  /-- The device has received a line feed for each of them, and one for each inside a text. -/
  lineFeeds : ((s.link.traffic.sentSince (s.after es).link.traffic).flatMap Payload.bytes).count 10
    = (s.slotsMade es).length + ((s.slotsMade es).map (s.after es).link.traffic.surplus).sum
  /-- These are equally many exactly if no text of a host call had a line feed before its end. -/
  even : ((s.link.traffic.sentSince (s.after es).link.traffic).flatMap Payload.bytes).count 10
      = (s.slotsMade es).length ↔
    ∀ x ∈ s.slotsMade es, ∀ i, (s.after es).link.traffic.sender? x = some (.call i) →
      ∀ text, (s.after es).link.traffic.payload? x = some (.ofLine text) →
        '\n' ∉ text.toList.dropLast
  /-- Then a device that has answered every line feed once, and none before it came, has filled every
  slot once and nothing else, in order. -/
  filled : (∀ i x e, s.stage? i = some (.sending x e) → e.isReset = false) → s.Dialogue [] [] es →
    (acksIn (heard es)).length
      = ((s.link.traffic.sentSince (s.after es).link.traffic).flatMap Payload.bytes).count 10 →
    (s.after es).link.traffic.slots = [] ∧
      (s.slotsMade es).map (s.after es).link.answer?
        = (acksIn (heard es)).map (fun a => some (.ack a)) ∧
      ∀ x a, s.link.answer? x = none → (s.after es).link.answer? x = some (.ack a) →
        x ∈ s.slotsMade es

/-- **One slot for each line**, from the opening of a connection on for as long as it lasts and
refuses nothing, wherever everybody waits and the device takes bytes. -/
theorem slots_per_line (timeout : Option Nat) (before es : List Event) {n : Nat} {port : String}
    (fresh : ((initial timeout).after before).link.connection = some (.fresh n port))
    (lasts : ((initial timeout).after before).Lasts es)
    (unrefused : ∀ x, (x, .failed .write) ∉ ((initial timeout).after before).tries es)
    (quiescent : (((initial timeout).after before).after es).Quiescent)
    (unstalled : ∀ c, (((initial timeout).after before).after es).link.connection = some c →
      c.stalled = false) :
    ((initial timeout).after before).SlotPerLine es ((initial timeout).Gives (before ++ es)) := by
  have run : (initial timeout).after (before ++ es) = ((initial timeout).after before).after es :=
    after_append ..
  have reachable : (((initial timeout).after before).after es).Reachable :=
    run ▸ Reachable.of_run timeout (before ++ es)
  have gives {x m : Nat} {a : Actor} {p : Payload} :=
    gives_after timeout (before ++ es) (x := x) (n := m) (a := a) (p := p)
  rw [run] at gives
  have start := filed_after timeout before
  have filed := reachable.filed
  have hush := hushed_of_fresh timeout before fresh
  generalize (initial timeout).after before = s at *
  have waits := reachable.quiescent_iff.mp quiescent
  obtain ⟨c, here⟩ := Option.isSome_iff_exists.mp lasts.isOpen
  have writer := idle_of_waits (waits .writer) here (unstalled c here)
  have slots : s.slotsMade es = s.link.traffic.receivedSince (s.after es).link.traffic := by
    have idle : s.link.traffic.writing = [] := by
      simp [Traffic.writing, Link.traffic, fresh, Connection.fresh, WriterStage.writing?]
    have done : (s.after es).link.traffic.writing = [] := by
      simp [Traffic.writing, Link.traffic, here, writer, WriterStage.writing?]
    rw [slotsMade_of_unrefused start idle lasts unrefused, done, List.append_nil]
  have text (x m : Nat) (a : Actor) (p : Payload)
      (origin : (s.after es).link.traffic.origin? x = some (m, a, p)) (line : p.isLine = true) :
      ∃ text, (initial timeout).Gives (before ++ es) a text ∧ p = .ofLine text ∧
        (p.plain = true ↔ '\n' ∉ text.toList.dropLast) ∧
        (p.plain = false → ∃ i, a = .call i) := by
    obtain ⟨text, given, rfl⟩ := gives origin line
    refine ⟨text, given, rfl, Payload.plain_ofLine text, fun more => ?_⟩
    by_contra other
    have one := given.oneLine fun i same => other ⟨i, same⟩
    have plain := (Payload.plain_ofLine text).mpr fun inside => one (List.dropLast_subset _ inside)
    exact absurd (plain.symm.trans more) (by simp)
  have lineFeeds : ((s.link.traffic.sentSince (s.after es).link.traffic).flatMap
        Payload.bytes).count 10
      = (s.slotsMade es).length + ((s.slotsMade es).map (s.after es).link.traffic.surplus).sum := by
    rw [slots]
    refine count_lineFeed_wire (fun x member => filed.known x (List.mem_of_mem_drop member)) ?_
    intro x member p payload line
    rw [payload?_eq] at payload
    obtain ⟨⟨m, a, q⟩, origin, rfl⟩ := Option.map_eq_some_iff.mp payload
    obtain ⟨text, -, own, -⟩ := text x m a q origin line
    exact ⟨text, own⟩
  refine ⟨text, fun c => c.lineFeed_not_mem_line, slots, lineFeeds, ?even, ?filled⟩
  case even =>
    have own {x : Nat} {given : String}
        (payload : (s.after es).link.traffic.payload? x = some (.ofLine given)) :
        (s.after es).link.traffic.surplus x = 0 ↔ '\n' ∉ given.toList.dropLast := by
      rw [surplus, payload, Option.map_some, Option.getD_some, Payload.surplus_ofLine,
        List.count_eq_zero]
    rw [lineFeeds, Nat.add_eq_left, List.sum_eq_zero_iff_forall_eq_nat, List.forall_mem_map]
    constructor
    · intro none x made i _ given payload
      exact (own payload).mp (none x made)
    · intro one x made
      obtain ⟨m, a, p, origin, line⟩ : ∃ m a p,
          (s.after es).link.traffic.origin? x = some (m, a, p) ∧ p.isLine = true := by
        rw [slots, Traffic.receivedSince, List.mem_filter, Traffic.isLine, payload?_eq] at made
        obtain ⟨p, payload, line⟩ := (Option.any_eq_true _ _).mp made.2
        obtain ⟨⟨m, a, q⟩, origin, rfl⟩ := Option.map_eq_some_iff.mp payload
        exact ⟨m, a, q, origin, line⟩
      obtain ⟨given, -, rfl, plain, more⟩ := text x m a p origin line
      have payload : (s.after es).link.traffic.payload? x = some (.ofLine given) := by
        rw [payload?_eq, origin, Option.map_some]
      refine (own payload).mpr (plain.mp ?_)
      by_contra notPlain
      obtain ⟨i, rfl⟩ := more (Bool.eq_false_iff.mpr notPlain)
      have sender : (s.after es).link.traffic.sender? x = some (.call i) := by
        rw [sender?_eq, origin, Option.map_some]
      exact notPlain (plain.mpr (one x made i sender given payload))
  case filled =>
    intro noReset dialogue all
    have hushed := hush noReset
    obtain ⟨-, taken, -, answers, only⟩ := hushed.pairs dialogue
    obtain ⟨-, -, -, -, c', here', heeded⟩ := inTune_after hushed dialogue
    obtain rfl := Option.some.inj (here'.symm.trans here)
    have given : s.dispatched es = acksIn (heard es) := by
      have reader := waits .reader
      simp only [Waits, here] at reader
      exact heeded.all_given reader.1 reader.2 dialogue.ascii
    have count : (s.dispatched es).length = (s.slotsMade es).length := by
      rw [given, all, count_lineFeed_sentSince filed dialogue.plain, slots]
    have placing : (s.after es).link.traffic.placing = [] := by
      simp [Traffic.placing, Link.traffic, here, writer, WriterStage.placed?]
    rw [← slots] at taken answers only
    refine ⟨?_, List.ext_getElem? fun j => ?_, only⟩
    · rw [taken, count, List.drop_length, placing, List.append_nil]
    · rw [List.getElem?_map, List.getElem?_map, ← given]
      by_cases inside : j < (s.slotsMade es).length
      · have line := List.getElem?_eq_getElem inside
        have ack := List.getElem?_eq_getElem (count ▸ inside : j < (s.dispatched es).length)
        have told := answers j _ line
        rw [ack] at told ⊢
        rw [line]
        exact congrArg some told
      · rw [List.getElem?_eq_none (by omega), List.getElem?_eq_none (by omega)]
        rfl

/-- A port was just opened. -/
def atDevice : Session := (initial none).after (Event.swift 0 (.connect "/dev/mock0" none))

/-- A call and a job each send a line, and the device answers both. -/
def evenLines : List Event :=
  Event.swift 1 (.write "G0 X1\n") ++ Event.swift 2 (.control (.start "G1 X10 (slow)")) ++
    .act (.job 0) :: List.replicate 6 (.act .writer) ++ List.replicate 2 (.act (.call 1)) ++
    .act (.job 0) :: .device 3 (.send "ok\nerror:9\n".toUTF8.toList) ::
    List.replicate 10 (.act .reader) ++ List.replicate 2 (.act (.job 0))

/-- Two slots are made, and each gets its own answer. -/
theorem slots_per_line_evenLines :
    atDevice.Lasts evenLines ∧ (atDevice.after evenLines).Quiescent ∧
      atDevice.slotsMade evenLines = [0, 1] ∧
      ((atDevice.link.traffic.sentSince (atDevice.after evenLines).link.traffic).flatMap
        Payload.bytes).count 10 = 2 ∧
      (atDevice.after evenLines).link.answer? 1 = some (.ack (.error 9)) := by
  have fresh : atDevice.link.connection = some (.fresh 0 "/dev/mock0") := by decide +kernel
  have lasts : atDevice.Lasts evenLines := ⟨by decide +kernel, by decide +kernel⟩
  have unrefused : ∀ x, (x, .failed .write) ∉ atDevice.tries evenLines := by
    have tries : atDevice.tries evenLines = [(0, .sent), (1, .sent)] := by decide +kernel
    simp [tries]
  have reachable : (atDevice.after evenLines).Reachable := (Reachable.of_run none _).after evenLines
  have quiescent := reachable.quiescent_of_rest (by decide +kernel)
  have idle : (atDevice.after evenLines).linkIdle = true := by decide +kernel
  have unstalled (c : Connection) (here : (atDevice.after evenLines).link.connection = some c) :
      c.stalled = false := (linkIdle_cases idle here).2.2.2.2.2.2
  have made : atDevice.slotsMade evenLines = [0, 1] := by decide +kernel
  have noReset : ∀ i x e, atDevice.stage? i = some (.sending x e) → e.isReset = false := by
    have none : atDevice.calls = [] := by decide +kernel
    intro i x e stage
    rw [stage?, none] at stage
    exact absurd stage (by simp)
  have dialogue : atDevice.Dialogue [] [] evenLines :=
    { isOpen := lasts.isOpen
      opened := lasts.opened
      plain := by decide +kernel
      noReset := by decide +kernel
      whole := by simp [evenLines, Event.swift]
      turns := by
        have all : ∀ k ∈ List.range (evenLines.length + 1),
            (acksIn ([] ++ heard (evenLines.take k))).length ≤ 0 + ((atDevice.link.traffic.sentSince
              (atDevice.after (evenLines.take k)).link.traffic).flatMap
                Payload.bytes).count 10 := by
          decide +kernel
        intro fs beginning
        rw [List.prefix_iff_eq_take.mp beginning]
        exact all _ (List.mem_range.mpr (Nat.lt_succ_of_le beginning.length_le))
      ascii := by decide +kernel }
  have tally : atDevice.SlotPerLine evenLines ((initial none).Gives _) :=
    slots_per_line none _ evenLines fresh lasts unrefused quiescent unstalled
  obtain ⟨-, answers, -⟩ := tally.filled noReset dialogue (by decide +kernel)
  have acks : acksIn (heard evenLines) = [.ok, .error 9] := by decide +kernel
  rw [made, acks] at answers
  refine ⟨lasts, quiescent, made, tally.lineFeeds.trans (by decide +kernel), ?_⟩
  exact (List.cons.inj (List.cons.inj answers).2).1

/-- The text of a call ends with two line feeds. The device answers every line feed: the call's
line, the empty line after it, and the line of another call. -/
def unevenLines : List Event :=
  Event.swift 1 (.write "G0 X1\n\n") ++ Event.swift 2 (.writeAcked "M5") ++
    List.replicate 6 (.act .writer) ++ List.replicate 2 (.act (.call 1)) ++
    List.replicate 2 (.act (.call 2)) ++
    .device 3 (.send "ok\nok\nerror:9\n".toUTF8.toList) ::
    List.replicate 14 (.act .reader) ++ [.act (.call 2)]

/-- **A text with a line feed before its end makes fewer slots than line feeds**, and the lines after
it get the answers to others: the device has rejected the second call's line, and the call returns
that it was accepted. -/
theorem uneven_of_lineFeed :
    atDevice.link.connection = some (.fresh 0 "/dev/mock0") ∧ atDevice.Lasts unevenLines ∧
      atDevice.tries unevenLines = [(0, .sent), (1, .sent)] ∧
      (atDevice.after unevenLines).Quiescent ∧ (atDevice.after unevenLines).linkIdle = true ∧
      atDevice.slotsMade unevenLines = [0, 1] ∧
      ((atDevice.link.traffic.sentSince (atDevice.after unevenLines).link.traffic).flatMap
        Payload.bytes).count 10 = 3 ∧
      acksIn (heard unevenLines) = [.ok, .ok, .error 9] ∧
      (atDevice.after unevenLines).resultsOf 2 = [.sent, .ack .ok] := by
  have reachable : (atDevice.after unevenLines).Reachable :=
    (Reachable.of_run none _).after unevenLines
  exact ⟨by decide +kernel, ⟨by decide +kernel, by decide +kernel⟩, by decide +kernel,
    reachable.quiescent_of_rest (by decide +kernel), by decide +kernel, by decide +kernel,
    by decide +kernel, by decide +kernel, by decide +kernel⟩

end Session

end Cnc
