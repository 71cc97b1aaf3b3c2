import Mathlib.Data.List.Induction
import Cnc.Proofs.Errands
import Cnc.Proofs.Payloads
import Cnc.Proofs.Reading

/-!
# The dialogue with the device

In a dialogue the device answers every line that it has received, once and in
the order of receipt, and nothing but answers and failed writes takes a slot
away (`Session.Dialogue`). What the host sees of the answers is bytes, in
pieces of any size, among messages of any other kind.

Then the answers that the reader gives away are the first of those that the
device has sent, and the lines that they go to are the first of those that
the device has received: answers and lines are paired by position.
-/

namespace Cnc

open Traffic

/-! ## What is said -/

/-- The bytes that the device sends in an event. -/
def Event.spoken : Event → List UInt8
  | .device _ (.send bs) => bs
  | _ => []

/-- What the device sends in a run. -/
def heard (es : List Event) : List UInt8 := es.flatMap Event.spoken

namespace Traffic

variable {t₀ t u v : Traffic} {d : Deed} {ds : List Deed} {old bytes : List UInt8}
  {done given : List Ack}

/-- What the reader has still to do with what it has read. -/
def chores (t : Traffic) : List Chore := (t.connection.map (·.chores)).getD []

/-- The payloads that went over the wire since an earlier moment. -/
def sentSince (t₀ t : Traffic) : List Payload := (t.wire.drop t₀.wire.length).filterMap t.payload?

/-- **The device has received as many line feeds as lines**, if all payloads are plain. -/
theorem count_lineFeed_sentSince (filed : t.Filed) (plain : ∀ p ∈ t₀.sentSince t, p.plain = true) :
    ((t₀.sentSince t).flatMap Payload.bytes).count 10 = (t₀.receivedSince t).length := by
  rw [Payload.count_lineFeed_flatMap plain]
  have known : ∀ x ∈ t.wire.drop t₀.wire.length, x < t.posts.length :=
    fun x hx => filed.known x (List.mem_of_mem_drop hx)
  unfold sentSince receivedSince
  generalize t.wire.drop t₀.wire.length = sent at known
  induction sent with
  | nil => rfl
  | cons x sent ih =>
    obtain ⟨p, payload⟩ : ∃ p, t.payload? x = some p :=
      ⟨_, by rw [Traffic.payload?, List.getElem?_eq_getElem (known x List.mem_cons_self)]; rfl⟩
    have isLine : t.isLine x = p.isLine := by simp [Traffic.isLine, payload]
    rw [List.filterMap_cons, payload, List.filter_cons, List.filter_cons, isLine]
    have rest := ih fun y hy => known y (List.mem_cons_of_mem _ hy)
    cases p.isLine
    · simpa using rest
    · simpa using rest

/-- What went over the wire since a moment stays so. -/
theorem Onward.sentSince (h : t.Onward u) (filed : t.Filed) (since : t₀.wire <+: t.wire) :
    t₀.sentSince t <+: t₀.sentSince u := by
  obtain ⟨more, wire⟩ := h.wire
  unfold Traffic.sentSince
  rw [← wire, List.drop_append_of_le_length since.length_le, List.filterMap_append]
  have same : (t.wire.drop t₀.wire.length).filterMap u.payload?
      = (t.wire.drop t₀.wire.length).filterMap t.payload? :=
    List.filterMap_congr fun x hx => by
      rw [payload?_eq, payload?_eq,
        origin?_of_kept h.origins (filed.known x (List.mem_of_mem_drop hx))]
  rw [same]
  exact List.prefix_append _ _

/-- The lines that went over the wire since a moment stay so. -/
theorem Onward.receivedSince (h : t.Onward u) (filed : t.Filed) (since : t₀.wire <+: t.wire) :
    t₀.receivedSince t <+: t₀.receivedSince u := by
  obtain ⟨more, wire⟩ := h.wire
  unfold Traffic.receivedSince
  rw [← wire, List.drop_append_of_le_length since.length_le, List.filter_append]
  have same : (t.wire.drop t₀.wire.length).filter u.isLine
      = (t.wire.drop t₀.wire.length).filter t.isLine :=
    List.filter_congr fun x hx => by
      rw [isLine_of_kept h.origins (filed.known x (List.mem_of_mem_drop hx))]
  rw [same]
  exact List.prefix_append _ _

/-! ## One connection -/

/-- A move that the connection outlasts and that gives up no answers is orderly, if the device takes
payloads whole. -/
theorem Move.orderly (h : Move t d u) {c c' : Connection} (here : t.connection = some c)
    (there : u.connection = some c') (keeps : d ≠ .clear)
    (whole : ∀ n, d = .device (.failFlushes n) → n = 0) : d.orderly = true := by
  cases h with
  | clear => exact absurd rfl keeps
  | close => exact absurd there (by simp)
  | «open» port closed => exact absurd (closed.symm.trans here) (by simp)
  | device d =>
    cases d with
    | failFlushes n => simp [Deed.orderly, whole n rfl]
    | _ => rfl
  | _ => rfl

/-- **The answer that a move gives away** is the first chore that it gets done. -/
theorem Move.ack?_eq (h : Move t d u) {c' : Connection} (there : u.connection = some c') :
    d.ack? = if u.chores.length < t.chores.length then t.chores.head?.bind Chore.ack?
      else none := by
  cases h with
  | post _ _ here | device _ here => simp [Deed.ack?, Traffic.chores, here]
  | settle here first => simp [Deed.ack?, Traffic.chores, here, first, Chore.ack?]
  | chore here first other => simp [Deed.ack?, Traffic.chores, here, first, other]
  | read here done | timeout here done => simp [Deed.ack?, Traffic.chores, here, done]
  | close => exact absurd there (by simp)
  | «open» port closed => simp [Deed.ack?, Traffic.chores, closed]
  | poll _ here => simp [Deed.ack?, Traffic.chores, here]
  | _ here => simp [Deed.ack?, Traffic.chores, here]

/-- **The host is in tune with the device**: it has paired the lines since `t₀` with the answers in
what it heard since, as far as it has got. Before, it had heard `old` and given the answers `done`
away. -/
structure InTune (t₀ t : Traffic) (old : List UInt8) (done : List Ack) (heard : List UInt8)
    (given : List Ack) : Prop where
  filed : t.Filed
  slotted : t.Slotted
  since : t₀.wire <+: t.wire
  paired : t₀.Paired t given
  heeded : ∃ c, t.connection = some c ∧ Heeded (old ++ heard) (done ++ given) c

/-- **Orderly moves keep the host in tune**, if the answers do not outnumber the lines. -/
theorem Moves.inTune (h : Moves t ds u) (tune : t₀.InTune t old done bytes given) {c' : Connection}
    (there : u.connection = some c') (opened : u.opened = t.opened)
    (keeps : ∀ d ∈ ds, d ≠ .clear)
    (whole : ∀ d ∈ ds, ∀ n, d = .device (.failFlushes n) → n = 0)
    (enough : (given ++ ds.filterMap Deed.ack?).length ≤ (t₀.receivedSince t).length) :
    t₀.InTune u old done (bytes ++ ds.flatMap Deed.spoken) (given ++ ds.filterMap Deed.ack?) := by
  induction h generalizing bytes given with
  | nil => simpa using tune
  | @cons t v u d ds first rest ih =>
    obtain ⟨c, here, heeded⟩ := tune.heeded
    have later := (rest.onward (first.filed tune.filed)).2.opened
    have middle : u.opened = v.opened := by
      have := first.opened_le
      omega
    obtain ⟨b, between, -⟩ := rest.connected there middle
    have given_ : given ++ (d :: ds).filterMap Deed.ack?
        = (given ++ d.ack?.toList) ++ ds.filterMap Deed.ack? := by
      rw [List.filterMap_cons, List.append_assoc]
      cases d.ack? <;> rfl
    rw [given_] at enough ⊢
    rw [List.flatMap_cons, ← List.append_assoc]
    have grows := ((first.onward tune.filed).receivedSince tune.filed tune.since).length_le
    have orderly := first.orderly here between (keeps d List.mem_cons_self)
      (whole d List.mem_cons_self)
    have next : t₀.InTune v old done (bytes ++ d.spoken) (given ++ d.ack?.toList) :=
      { filed := first.filed tune.filed
        slotted := first.slotted tune.filed tune.slotted
        since := tune.since.trans first.wire_kept
        paired := by
          refine tune.paired.move first tune.filed tune.slotted tune.since orderly ?_
          rw [List.length_append] at enough
          omega
        heeded := ⟨b, between, by
          simpa only [List.append_assoc] using heeded.move first here between⟩ }
    exact ih next there middle (fun d hd => keeps d (List.mem_cons_of_mem _ hd))
      (fun d hd => whole d (List.mem_cons_of_mem _ hd)) (Nat.le_trans enough grows)

end Traffic

namespace Session

/-! ## What an event says -/

/-- The answer that the reader gives away in an event. -/
def dispatched? (s : Session) (e : Event) : Option Ack :=
  if e = .act .reader ∧ (s.next e).link.traffic.chores.length < s.link.traffic.chores.length then
    s.link.traffic.chores.head?.bind Chore.ack?
  else none

/-- **The answers that the reader gives away** in a run. -/
def dispatched (s : Session) (es : List Event) : List Ack :=
  (s.history es).filterMap fun h => h.1.dispatched? h.2

theorem dispatched_concat (s : Session) (es : List Event) (e : Event) :
    s.dispatched (es ++ [e]) = s.dispatched es ++ ((s.after es).dispatched? e).toList := by
  rw [dispatched, history_concat, List.filterMap_append, dispatched]
  cases h : (s.after es).dispatched? e <;> simp [h]

theorem heard_concat (es : List Event) (e : Event) : heard (es ++ [e]) = heard es ++ e.spoken := by
  simp [heard]

theorem Does.spoken {s : Session} {e : Event} {d : Deed} (does : s.Does e d) :
    d.spoken = e.spoken := by
  cases does with
  | write own =>
    cases d with
    | device d => exact absurd own (by simp [Deed.byWriter])
    | _ => rfl
  | device i d => cases d <;> rfl
  | _ => rfl

/-- Only the reader gives answers away. -/
theorem Does.ack?_eq_none {s : Session} {e : Event} {d : Deed} (does : s.Does e d)
    (notReader : e ≠ .act .reader) : d.ack? = none := by
  cases does with
  | write own =>
    cases d with
    | settle a => exact absurd own (by simp [Deed.byWriter])
    | _ => rfl
  | settle a => exact absurd rfl notReader
  | _ => rfl

/-- **What is said in an event** is what its deeds say. -/
theorem next_exchange {s : Session} (filed : s.link.traffic.Filed) {c c' : Connection}
    (here : s.link.connection = some c) {e : Event}
    (there : (s.next e).link.connection = some c') :
    ∃ ds, Moves s.link.traffic ds (s.next e).link.traffic ∧ (∀ d ∈ ds, s.Does e d) ∧
      ds.flatMap Deed.spoken = e.spoken ∧ ds.filterMap Deed.ack? = (s.dispatched? e).toList := by
  cases e with
  | device i d =>
    have opened : s.link.opened ≠ 0 := Nat.ne_of_gt (Nat.zero_lt_of_lt (filed.newest c here))
    have traffic : (s.next (.device i d)).link.traffic
        = { s.link.traffic with connection := some (c.driven d) } := by
      show (if _ then _ else _ : Session).link.traffic = _
      rw [if_neg opened, deviceAct_traffic, here]
      rfl
    refine ⟨[.device d], ?_, by simpa using Does.device i d, ?_, by simp [Deed.ack?, dispatched?]⟩
    · rw [traffic]
      exact (Move.device d here).moves
    · rw [List.flatMap_singleton, (Does.device (s := s) i d).spoken]
  | act a =>
    by_cases reader : a = .reader
    · subst reader
      rcases next_makes s (e := .act .reader) (by simp) with same | ⟨d, move, does⟩
      · exact ⟨[], same ▸ .nil _, by simp, rfl, by simp [dispatched?, same]⟩
      · refine ⟨[d], move.moves, by simpa using does, ?_, ?_⟩
        · rw [List.flatMap_singleton, does.spoken]
        · have own := move.ack?_eq there
          rw [dispatched?, List.filterMap_cons, own]
          split <;> simp_all
    · obtain ⟨ds, moves, does⟩ := next_trades s (.act a)
      refine ⟨ds, moves, does, ?_, ?_⟩
      · exact List.flatMap_eq_nil_iff.mpr fun d hd => (does d hd).spoken
      · rw [dispatched?, if_neg (by simp [reader]), Option.toList_none, List.filterMap_eq_nil_iff]
        exact fun d hd => (does d hd).ack?_eq_none (by simp [reader])
  | schedule | call | elapse | observe =>
    obtain ⟨ds, moves, does⟩ := next_trades s _
    refine ⟨ds, moves, does, ?_, ?_⟩
    · exact List.flatMap_eq_nil_iff.mpr fun d hd => (does d hd).spoken
    · rw [dispatched?, if_neg (by simp), Option.toList_none, List.filterMap_eq_nil_iff]
      exact fun d hd => (does d hd).ack?_eq_none (by simp)

/-! ## Dialogues -/

/-- **A run in which the host and the device talk to each other** over one connection. Before, the
device has sent `old` and the reader has given the answers `done` away. -/
structure Dialogue (s : Session) (old : List UInt8) (done : List Ack) (es : List Event) : Prop where
  /-- The connection lasts. -/
  isOpen : (s.after es).link.connection.isSome = true
  opened : (s.after es).link.opened = s.link.opened
  /-- Lines have one line feed, at their end. -/
  plain : ∀ p ∈ s.link.traffic.sentSince (s.after es).link.traffic, p.plain = true
  /-- The controller is not reset. -/
  noReset : Payload.realtime .softReset ∉ s.link.traffic.sentSince (s.after es).link.traffic
  /-- When the device fails to take a payload, nothing was sent. -/
  whole : ∀ i n, Event.device i (.failFlushes (n + 1)) ∉ es
  /-- At no time has the device given more answers than it has received line feeds. -/
  turns : ∀ fs, fs <+: es → (acksIn (old ++ heard fs)).length ≤ done.length +
    ((s.link.traffic.sentSince (s.after fs).link.traffic).flatMap Payload.bytes).count 10
  /-- Answers are ASCII. -/
  ascii : ∀ line ∈ completeLines (old ++ heard es), (lineAck? line).isSome = true →
    ∀ b ∈ line, b < 0x80

/-- **A moment from which on lines and answers can be paired**: no answer is expected, and no call
is about to give up answers. -/
structure Hushed (s : Session) (old : List UInt8) (done : List Ack) : Prop where
  filed : s.link.traffic.Filed
  slotted : s.link.traffic.Slotted
  carrying : s.Carrying
  quiet : s.link.traffic.Quiet
  heeded : ∃ c, s.link.connection = some c ∧ Heeded old done c
  noReset : ∀ i x e, s.stage? i = some (.sending x e) → e.isReset = false

section Dialogue

variable {s : Session} {old : List UInt8} {done : List Ack} {es : List Event} {e : Event}

/-- The beginning of a dialogue is one. -/
theorem Dialogue.init (filed : s.link.traffic.Filed)
    (dialogue : s.Dialogue old done (es ++ [e])) : s.Dialogue old done es := by
  obtain ⟨there, onward⟩ := onward_after filed es
  have later : s.after (es ++ [e]) = (s.after es).next e := after_append s es [e]
  have step := (onward_next there e).2
  have opened := dialogue.opened
  obtain ⟨c', last⟩ := Option.isSome_iff_exists.mp dialogue.isOpen
  rw [later] at opened last
  have same : (s.after es).link.opened = s.link.opened ∧
      ((s.after es).next e).link.opened = (s.after es).link.opened := by
    have first : s.link.opened ≤ (s.after es).link.opened := onward.opened
    have second : (s.after es).link.opened ≤ ((s.after es).next e).link.opened := step.opened
    omega
  have sent := step.sentSince there onward.wire
  rw [← later] at sent
  refine ⟨?isOpen, same.1, fun p hp => dialogue.plain p (sent.subset hp),
    fun hp => dialogue.noReset (sent.subset hp), fun i n hn => dialogue.whole i n (by simp [hn]),
    fun fs hfs => dialogue.turns fs (hfs.trans (List.prefix_append _ _)), ?ascii⟩
  case isOpen =>
    obtain ⟨ds, moves, -⟩ := next_trades (s.after es) e
    obtain ⟨c, here, -⟩ := moves.connected last same.2
    exact Option.isSome_iff_exists.mpr ⟨c, here⟩
  case ascii =>
    intro line hline
    refine dialogue.ascii line ?_
    rw [heard_concat, ← List.append_assoc]
    exact (completeLines_append _ _).subset hline

/-- The post of a reset that a call waits for was handed over since no call waited for one. -/
theorem reset_since (noReset : ∀ i x e, s.stage? i = some (.sending x e) →
      e.isReset = false) (filed : s.link.traffic.Filed) (es : List Event) {i x : Nat} {e : Errand}
    (stage : (s.after es).stage? i = some (.sending x e)) (reset : e.isReset = true) :
    s.link.posts.length ≤ x := by
  induction es using List.reverseRecOn with
  | nil => exact absurd reset (by simp [noReset i x e stage])
  | append_singleton es a ih =>
    rw [after_append] at stage
    rcases next_sends (s.after es) stage with before | ⟨-, ticket, -⟩
    · exact ih before
    · rw [ticket]
      exact length_le_of_kept (onward_after filed es).2.origins

/-- The payload of an errand that resets the controller. -/
theorem payload?_of_isReset {e : Errand} (reset : e.isReset = true) :
    e.payload? = some (.realtime .softReset) := by
  cases e with
  | realtime command =>
    have same : command = .softReset := by simpa [Errand.isReset] using reset
    rw [same]
    rfl
  | stop => rfl
  | _ => exact absurd reset (by simp [Errand.isReset])

/-- In a dialogue nobody gives up answers. -/
theorem Dialogue.keeps (hushed : s.Hushed old done)
    (dialogue : s.Dialogue old done es) {d : Deed} (does : (s.after es).Does e d) :
    d ≠ .clear := by
  obtain ⟨there, onward⟩ := onward_after hushed.filed es
  rintro rfl
  cases does with
  | write own => exact absurd own (by simp [Deed.byWriter])
  | @clear i x errand stage reset sent =>
    refine dialogue.noReset ?_
    -- the reset went over the wire, and not before the dialogue
    have since := reset_since hushed.noReset hushed.filed es stage reset
    obtain ⟨rest, wire⟩ := onward.wire
    have onWire := there.sent x sent
    rw [← wire] at onWire
    have late : x ∈ (s.after es).link.traffic.wire.drop s.link.traffic.wire.length := by
      rw [← wire, List.drop_left]
      refine (List.mem_append.mp onWire).resolve_left fun before => ?_
      have early : x < s.link.posts.length := hushed.filed.known x before
      omega
    obtain ⟨c, p, origin, own⟩ :=
      carrying_after hushed.filed hushed.carrying es i x errand stage
    obtain rfl := own _ (payload?_of_isReset reset)
    refine List.mem_filterMap.mpr ⟨x, late, ?_⟩
    rw [payload?_eq, origin]
    rfl

/-- The next answer that the reader gives away is there to be given. -/
theorem dispatched?_among {c : Connection} (here : s.link.connection = some c)
    (e : Event) : (s.dispatched? e).toList <+: c.chores.filterMap Chore.ack? := by
  have own : s.link.traffic.chores = c.chores := by simp [Traffic.chores, Link.traffic, here]
  unfold dispatched?
  rw [own]
  split
  · cases c.chores with
    | nil => exact List.nil_prefix
    | cons chore rest => cases ack : chore.ack? <;> simp [ack]
  · exact List.nil_prefix

/-- **In a dialogue the host stays in tune with the device.** -/
theorem inTune_after (hushed : s.Hushed old done) (dialogue : s.Dialogue old done es) :
    s.link.traffic.InTune (s.after es).link.traffic old done (heard es) (s.dispatched es) := by
  induction es using List.reverseRecOn with
  | nil =>
    exact
      { filed := hushed.filed
        slotted := hushed.slotted
        since := List.prefix_rfl
        paired := hushed.quiet.paired
        heeded := by simpa [heard, dispatched, Link.traffic] using hushed.heeded }
  | append_singleton es e ih =>
    have earlier := dialogue.init hushed.filed
    have tune := ih earlier
    obtain ⟨c, here, heeded⟩ := tune.heeded
    obtain ⟨c', there⟩ := Option.isSome_iff_exists.mp dialogue.isOpen
    have opened : (s.after (es ++ [e])).link.opened = (s.after es).link.opened :=
      dialogue.opened.trans earlier.opened.symm
    rw [after_append] at there opened ⊢
    obtain ⟨ds, moves, does, spoken, acks⟩ := next_exchange tune.filed here there
    rw [heard_concat, dispatched_concat, ← spoken, ← acks]
    refine moves.inTune tune there opened (fun d hd => earlier.keeps hushed (does d hd)) ?whole
      ?enough
    case whole =>
      rintro d hd n rfl
      cases does _ hd with
      | write own => exact absurd own (by simp [Deed.byWriter])
      | device i =>
        cases n with
        | zero => rfl
        | succ n => exact absurd (by simp) (dialogue.whole i n)
    case enough =>
      -- answers that are still to be given have been sent, and so each has its line
      have known : (done ++ s.dispatched es ++ ds.filterMap Deed.ack?) <+:
          acksIn (old ++ heard es) := by
        rw [acks]
        exact ((List.prefix_append_right_inj _).mpr (dispatched?_among here e)).trans
          (heeded.pending_among earlier.ascii)
      have turns := known.length_le.trans (earlier.turns es List.prefix_rfl)
      rw [count_lineFeed_sentSince tune.filed earlier.plain, List.append_assoc,
        List.length_append] at turns
      exact Nat.le_of_add_le_add_left turns

end Dialogue

/-! ## From the opening of a connection -/

/-- A connection that has just been opened is a good start, unless a reset of an earlier connection
is still to be noted. -/
theorem hushed_of_fresh (timeout : Option Nat) (es : List Event) {n : Nat} {port : String}
    (fresh : ((initial timeout).after es).link.connection = some (.fresh n port))
    (noReset : ∀ i x e, ((initial timeout).after es).stage? i = some (.sending x e) →
      e.isReset = false) : ((initial timeout).after es).Hushed [] [] where
  filed := filed_after timeout es
  slotted := (slotted_after (filed_initial timeout) (slotted_initial timeout) es).1
  carrying := carrying_after (filed_initial timeout) (carrying_initial timeout) es
  quiet := by
    constructor <;>
      simp [Link.traffic, fresh, Traffic.slots, Traffic.placing, Connection.fresh,
        WriterStage.placed?, Traffic.Steady]
  heeded := ⟨_, fresh, ⟨[], [], [], rfl, .nil, rfl, rfl⟩⟩
  noReset := noReset

/-- **Lines and answers are paired by position**: the reader has given the first answers of the
device away, to the first lines that the device has received and to nobody else, and answers are
still expected for the lines after those, in the order of the wire, and for the line that is being
written. -/
def Pairs (s : Session) (old : List UInt8) (done : List Ack) (es : List Event) : Prop :=
  let t := (s.after es).link.traffic
  let received := s.link.traffic.receivedSince t
  let given := s.dispatched es
  done ++ given <+: acksIn (old ++ heard es) ∧
    t.slots = received.drop given.length ++ t.placing ∧
    t.placing.length ≤ 1 ∧
    (∀ (j x : Nat), received[j]? = some x → t.answer? x = (given[j]?).map .ack) ∧
    ∀ x a, s.link.traffic.answer? x = none → t.answer? x = some (.ack a) → x ∈ received

/-- **A dialogue pairs lines and answers.** -/
theorem Hushed.pairs {s : Session} {old : List UInt8} {done : List Ack} {es : List Event}
    (hushed : s.Hushed old done) (dialogue : s.Dialogue old done es) : s.Pairs old done es := by
  obtain ⟨-, -, -, paired, c, -, heeded⟩ := inTune_after hushed dialogue
  refine ⟨heeded.given_among dialogue.ascii, paired.slots, ?one, paired.answers, ?only⟩
  case one =>
    refine (List.length_filter_le _ _).trans ?_
    cases (s.after es).link.traffic.connection.bind (·.writer.placed?) <;> simp
  case only =>
    intro x a new told
    refine (paired.only x a told).resolve_left fun before => ?_
    rw [new] at before
    exact absurd before (by simp)

/-- **From the opening of a connection on, lines and answers are paired**, unless a reset of an
earlier connection is still to be noted. -/
theorem pairs_of_fresh (timeout : Option Nat) (before es : List Event) {n : Nat} {port : String}
    (fresh : ((initial timeout).after before).link.connection = some (.fresh n port))
    (noReset : ∀ i x e, ((initial timeout).after before).stage? i = some (.sending x e) →
      e.isReset = false)
    (dialogue : ((initial timeout).after before).Dialogue [] [] es) :
    ((initial timeout).after before).Pairs [] [] es :=
  (hushed_of_fresh timeout before fresh noReset).pairs dialogue

/-- Two lines are written before the first is answered, and the device sends its answers in two
pieces, the second of which begins in the middle of the first answer. -/
def twoLines : List Event :=
  Event.swift 1 (.writeAcked "G0 X1") ++ Event.swift 2 (.writeAcked "G0 X2\n") ++
    List.replicate 6 (.act .writer) ++
    .device 3 (.send "<I>\nok".toUTF8.toList) :: List.replicate 6 (.act .reader) ++
    .device 4 (.send "\nerror:9\n".toUTF8.toList) :: List.replicate 9 (.act .reader)

/-- The two lines get the answers `ok` and `error:9`, in this order. -/
theorem pairs_twoLines :
    let s := (initial none).after (Event.swift 0 (.connect "/dev/mock0" none))
    s.Dialogue [] [] twoLines ∧ s.dispatched twoLines = [.ok, .error 9] ∧
      (s.after twoLines).link.traffic.answer? 1 = some (.ack (.error 9)) := by
  intro s
  have fresh : s.link.connection = some (.fresh 0 "/dev/mock0") := by decide +kernel
  have noReset : ∀ i x e, s.stage? i = some (.sending x e) → e.isReset = false := by
    have none : s.calls = [] := by decide +kernel
    intro i x e stage
    rw [stage?, none] at stage
    exact absurd stage (by simp)
  have dialogue : s.Dialogue [] [] twoLines :=
    { isOpen := by decide +kernel
      opened := by decide +kernel
      plain := by decide +kernel
      noReset := by decide +kernel
      whole := by simp [twoLines, Event.swift]
      turns := by
        have all : ∀ k ∈ List.range (twoLines.length + 1),
            (acksIn ([] ++ heard (twoLines.take k))).length ≤ 0 + ((s.link.traffic.sentSince
              (s.after (twoLines.take k)).link.traffic).flatMap Payload.bytes).count 10 := by
          decide +kernel
        intro fs beginning
        rw [List.prefix_iff_eq_take.mp beginning]
        exact all _ (List.mem_range.mpr (Nat.lt_succ_of_le beginning.length_le))
      ascii := by decide +kernel }
  obtain ⟨-, -, -, answers, -⟩ := pairs_of_fresh none _ twoLines fresh noReset dialogue
  refine ⟨dialogue, by decide +kernel, ?_⟩
  rw [answers 1 1 (by decide +kernel)]
  decide +kernel

end Session

end Cnc
