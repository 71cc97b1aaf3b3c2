import Cnc.Proofs.Dialogue

/-!
# What a soft reset gives up

A controller that is reset answers none of the lines before the reset, so the
call that has sent a soft reset gives up all answers that are expected. It
does so when it has its next turn. Meanwhile the writer may have brought more
lines to the wire, or given one its place, and the slots of these are given
up too: the lines that lose their slots are the unanswered ones among those
before the reset, those after it, and the one that is being written
(`Session.reset_boundary`). Only if there are none of the last two kinds does
the reset separate the lines that lose their answers from those that keep
them, and the dialogue with the device can go on from there.
-/

namespace Cnc

open Traffic

namespace Session

/-- **The call `i` gives up the expected answers**, because its soft reset with the ticket `r` was
sent. -/
structure Clears (s : Session) (i r : Nat) (e : Errand) : Prop where
  stage : s.stage? i = some (.sending r e)
  reset : e.isReset = true
  sent : s.link.delivery? r = some .sent
  isOpen : s.link.connection.isSome = true
  /-- The call does not have to wait. -/
  done : (s.next (.act (.call i))).stage? i = some (.counting r e)

/-- Giving up the answers is a move of the traffic. -/
theorem Clears.move {s : Session} {i r : Nat} {e : Errand} (clears : s.Clears i r e) :
    Move s.link.traffic .clear (s.next (.act (.call i))).link.traffic := by
  obtain ⟨c, here⟩ := Option.isSome_iff_exists.mp clears.isOpen
  have turn : s.next (.act (.call i)) = s.countErrand i r e := by
    show s.callTurn i = _
    simp only [callTurn, clears.stage, clears.sent, Delivery.error?]
  have done := clears.done
  rw [turn] at done ⊢
  unfold countErrand at done ⊢
  rw [if_pos clears.reset] at done ⊢
  rcases use_cases s (.call i) .slots dropAnswers
    (fun s => (s.setStage i (.counting r e)).again (.call i)) with h | ⟨u, hu, h⟩
  · rw [stage?_congr h.2.2.2.1, clears.stage] at done
    exact absurd done (by simp)
  · have dropped := alike_dropAnswers (s := u) (by rw [hu.2.1]; exact here)
    have clear : Move s.link.traffic .clear _ := .clear here
    rw [h]
    simpa [Link.traffic, setStage, dropped, hu] using clear

/-- **What the call gives up**: the slots of all unanswered lines that have one. -/
theorem Clears.answer? {s : Session} {i r : Nat} {e : Errand} (clears : s.Clears i r e)
    (filed : s.link.traffic.Filed) (slotted : s.link.traffic.Slotted) :
    (s.next (.act (.call i))).link.traffic.slots = [] ∧
      ∀ x, (s.next (.act (.call i))).link.traffic.answer? x
        = if x ∈ s.link.traffic.slots then some .lost else s.link.traffic.answer? x := by
  have move := clears.move
  refine ⟨?_, fun x => ?_⟩
  · generalize (s.next (.act (.call i))).link.traffic = t at move
    cases move
    rfl
  · rw [move.answer?]
    by_cases slot : x ∈ s.link.traffic.slots
    · have known := filed.placed_known (slotted.placed_of_slots slot)
      rw [if_pos ⟨slot, known⟩, if_pos slot]
      rfl
    · rw [if_neg fun both => slot both.1, if_neg slot]

/-- The payloads on the wire before and after a realtime command. -/
theorem wire_around {t : Traffic} (filed : t.Filed) {r : Nat} (sent : r ∈ t.wire)
    (realtime : t.isLine r = false) :
    ∃ old new, t.wire = old ++ r :: new ∧ r ∉ old ∧ r ∉ new ∧
      t.received = (old ++ new).filter t.isLine := by
  obtain ⟨old, new, wire⟩ := List.append_of_mem sent
  have once : (t.wire.filter (t.isLine · == false)).Nodup := by
    refine List.Nodup.sublist ?_ ((filed.ascending false).imp Nat.ne_of_lt)
    rw [Traffic.course, List.filter_append, List.append_assoc]
    exact List.sublist_append_left _ _
  rw [wire, List.filter_append, List.filter_cons_of_pos (by simpa using realtime)] at once
  have apart := List.nodup_append.mp once
  refine ⟨old, new, wire, fun before => ?_, fun after => ?_, ?_⟩
  · exact apart.2.2 r (List.mem_filter.mpr ⟨before, by simpa using realtime⟩) r
      List.mem_cons_self rfl
  · exact (List.nodup_cons.mp apart.2.1).1 (List.mem_filter.mpr ⟨after, by simpa using realtime⟩)
  · rw [Traffic.received, wire, List.filter_append, List.filter_append,
      List.filter_cons_of_neg (by simp [realtime])]

/-- The slots are those of the early lines alone, exactly if all late lines are answered. -/
theorem slots_early_iff {t : Traffic} (filed : t.Filed) (slotted : t.Slotted) {old new : List Nat}
    (received : t.received = (old ++ new).filter t.isLine) :
    (∀ x, x ∈ t.slots ↔ x ∈ old ∧ t.isLine x = true ∧ t.unanswered x = true) ↔
      ∀ x ∈ new.filter t.isLine ++ t.placing, t.unanswered x = false := by
  have placed : t.placed = old.filter t.isLine ++ (new.filter t.isLine ++ t.placing) := by
    rw [Traffic.placed, received, List.filter_append, List.append_assoc]
  have disjoint : ∀ x ∈ old.filter t.isLine, x ∉ new.filter t.isLine ++ t.placing := by
    have apart := filed.placed_ascending.imp Nat.ne_of_lt
    rw [placed] at apart
    exact fun x early late => (List.nodup_append.mp apart).2.2 x early x late rfl
  have slot (x : Nat) : x ∈ t.slots ↔ (x ∈ old.filter t.isLine ∨
      x ∈ new.filter t.isLine ++ t.placing) ∧ t.unanswered x = true := by
    rw [slotted.slots, placed, List.mem_filter, List.mem_append]
  constructor
  · intro early x late
    by_contra unanswered
    obtain ⟨inOld, line, -⟩ := (early x).mp ((slot x).mpr ⟨.inr late, by simpa using unanswered⟩)
    exact disjoint x (List.mem_filter.mpr ⟨inOld, line⟩) late
  · intro answered x
    rw [slot, List.mem_filter]
    constructor
    · rintro ⟨early | late, unanswered⟩
      · exact ⟨early.1, early.2, unanswered⟩
      · rw [answered x late] at unanswered
        exact absurd unanswered (by simp)
    · rintro ⟨inOld, line, unanswered⟩
      exact ⟨.inl ⟨inOld, line⟩, unanswered⟩

/-- When no line is being written and nobody else is about to give up answers, the dialogue can go
on. -/
theorem Clears.hushed {s : Session} {i r : Nat} {e : Errand} (clears : s.Clears i r e)
    (filed : s.link.traffic.Filed) (slotted : s.link.traffic.Slotted) (carrying : s.Carrying)
    (free : s.link.traffic.placing = [])
    (steady : s.link.traffic.Steady)
    (alone : ∀ j x f, j ≠ i → s.stage? j = some (.sending x f) → f.isReset = false)
    {old : List UInt8} {done : List Ack}
    (heeded : ∃ c, (s.next (.act (.call i))).link.connection = some c ∧ Heeded old done c) :
    (s.next (.act (.call i))).Hushed old done where
  filed := clears.move.filed filed
  slotted := clears.move.slotted filed slotted
  carrying := next_carrying filed carrying _
  quiet := by
    have move := clears.move
    have isLine := isLine_of_origins (move.origins.resolve_right (by simp)).1
    refine ⟨(clears.answer? filed slotted).1, ?_, move.steady steady (by simp)⟩
    generalize (s.next (.act (.call i))).link.traffic = t at move isLine
    cases move with
    | clear here => simpa [Traffic.placing, isLine, here] using free
  heeded := heeded
  noReset := by
    intro j x f stage
    by_cases own : j = i
    · rw [own, clears.done] at stage
      exact absurd stage (by simp)
    · rcases next_sends s stage with before | ⟨same, -⟩
      · exact alone j x f own before
      · exact absurd (by simpa using same) (Ne.symm own)

/-- The lines on the wire after a reset are those since the answers were given up, if there was none
before that. -/
theorem Clears.received {s : Session} {i r : Nat} {e : Errand} (clears : s.Clears i r e)
    (filed : s.link.traffic.Filed) {old new : List Nat}
    (wire : s.link.wire = old ++ r :: new) (none : new.filter s.link.traffic.isLine = [])
    (fs : List Event) :
    let s' := s.next (.act (.call i))
    let u := (s'.after fs).link.traffic
    ∃ later, u.wire = old ++ r :: later ∧
      later.filter u.isLine = s'.link.traffic.receivedSince u := by
  intro s' u
  have same : s'.link.traffic.wire = s.link.traffic.wire := by
    have move : Move s.link.traffic .clear s'.link.traffic := clears.move
    generalize s'.link.traffic = t at move
    cases move
    rfl
  obtain ⟨there, step⟩ := onward_next filed (.act (.call i))
  obtain ⟨more, whole⟩ := (onward_after there fs).2.wire
  have onward := step.trans (onward_after there fs).2
  have before : s'.link.traffic.wire = old ++ r :: new := same.trans wire
  refine ⟨new ++ more, ?_, ?_⟩
  · rw [show u.wire = _ from whole.symm, show (s.next _).link.traffic.wire = _ from before]
    simp
  · have silent : new.filter u.isLine = [] := by
      rw [← none]
      refine List.filter_congr fun x hx => isLine_of_kept onward.origins (filed.known x ?_)
      show x ∈ s.link.wire
      simp [wire, hx]
    rw [List.filter_append, silent, List.nil_append, Traffic.receivedSince,
      show u.wire = _ from whole.symm, List.drop_left]

/-- **What a reset separates.** A call that has sent a soft reset gives up the slots of all
unanswered lines before the reset, after it, and at the writer. These are the lines before the reset
exactly if every line after it and the one at the writer are answered. If there is none of these at
all, then from here on the lines after the reset and the answers are paired. -/
theorem reset_boundary (timeout : Option Nat) (es : List Event) {i r : Nat} {e : Errand}
    (clears : ((initial timeout).after es).Clears i r e) :
    let s := (initial timeout).after es
    let t := s.link.traffic
    let s' := s.next (.act (.call i))
    ∃ old new, t.wire = old ++ r :: new ∧ r ∉ old ∧ r ∉ new ∧
      s'.link.traffic.slots = [] ∧
      (∀ x, s'.link.traffic.answer? x = if x ∈ t.slots then some .lost else t.answer? x) ∧
      t.slots = ((old ++ new).filter t.isLine ++ t.placing).filter t.unanswered ∧
      ((∀ x, x ∈ t.slots ↔ x ∈ old ∧ t.isLine x = true ∧ t.unanswered x = true) ↔
        ∀ x ∈ new.filter t.isLine ++ t.placing, t.unanswered x = false) ∧
      (new.filter t.isLine = [] → t.placing = [] →
        t.Steady →
        (∀ j x f, j ≠ i → s.stage? j = some (.sending x f) → f.isReset = false) →
        ∀ heardBefore givenBefore,
          (∃ c, s'.link.connection = some c ∧ Heeded heardBefore givenBefore c) →
          ∀ fs, s'.Dialogue heardBefore givenBefore fs →
            s'.Pairs heardBefore givenBefore fs ∧
            ∃ later, (s'.after fs).link.wire = old ++ r :: later ∧
              later.filter (s'.after fs).link.traffic.isLine
                = s'.link.traffic.receivedSince (s'.after fs).link.traffic) := by
  intro s t s'
  have filed : t.Filed := filed_after timeout es
  have slotted : t.Slotted := (slotted_after (filed_initial timeout) (slotted_initial timeout) es).1
  have carrying : s.Carrying := carrying_after (filed_initial timeout) (carrying_initial timeout) es
  have realtime : t.isLine r = false := by
    obtain ⟨c, p, origin, own⟩ := carrying i r e clears.stage
    obtain rfl := own _ (payload?_of_isReset clears.reset)
    rw [Traffic.isLine, payload?_eq, origin]
    rfl
  obtain ⟨old, new, wire, notOld, notNew, received⟩ :=
    wire_around filed (filed.sent r clears.sent) realtime
  obtain ⟨none, answers⟩ := clears.answer? filed slotted
  refine ⟨old, new, wire, notOld, notNew, none, answers, ?slots,
    slots_early_iff filed slotted received, ?onward⟩
  case slots => rw [slotted.slots, Traffic.placed, received]
  case onward =>
    intro noLines free steady alone heardBefore givenBefore heeded fs dialogue
    have hushed := clears.hushed filed slotted carrying free steady alone heeded
    exact ⟨hushed.pairs dialogue, clears.received filed wire noLines fs⟩

/-- A line and then a reset go over the wire; the call that resets the controller has its turn at
once. -/
def promptReset : List Event :=
  Event.swift 0 (.connect "/dev/mock0" none) ++ Event.swift 1 (.writeAcked "G0 X1") ++
    List.replicate 3 (.act .writer) ++ Event.swift 2 (.realtime .softReset) ++
    List.replicate 2 (.act .writer)

/-- The line before the reset loses its slot, and the dialogue can go on. -/
theorem reset_boundary_promptReset :
    let s := (initial none).after promptReset
    s.Clears 2 1 (.realtime .softReset) ∧
      (∀ x, x ∈ s.link.traffic.slots ↔
        x ∈ [0] ∧ s.link.traffic.isLine x = true ∧ s.link.traffic.unanswered x = true) ∧
      ∀ fs, (s.next (.act (.call 2))).Dialogue [] [] fs →
        (s.next (.act (.call 2))).Pairs [] [] fs := by
  intro s
  have clears : s.Clears 2 1 (.realtime .softReset) :=
    { stage := by decide +kernel
      reset := rfl
      sent := by decide +kernel
      isOpen := by decide +kernel
      done := by decide +kernel }
  obtain ⟨old, new, wire, -, -, -, -, -, separates, onward⟩ :=
    reset_boundary none promptReset clears
  obtain ⟨rfl, rfl⟩ : old = [0] ∧ new = [] := by
    have all : s.link.traffic.wire = [0, 1] := by decide +kernel
    have parts := wire.symm.trans all
    rcases old with _ | ⟨x, _ | ⟨y, old⟩⟩ <;> simp_all
  have free : s.link.traffic.placing = [] := by decide +kernel
  refine ⟨clears, separates.mpr fun x late => ?answered, fun fs dialogue => ?paired⟩
  case answered =>
    have none : x ∈ s.link.traffic.placing := by simpa using late
    rw [free] at none
    exact absurd none (by simp)
  refine (onward rfl free ?steady ?alone [] [] ?heeded fs dialogue).1
  case steady =>
    intro c here
    have calm : s.link.traffic.connection.map (fun c => (c.flushFaults, c.writer))
        = some (0, .idle) := by decide +kernel
    rw [here] at calm
    simp_all
  case alone =>
    intro j x f other stage
    have calls : s.calls
        = [(1, .sending 0 .reportAnswer), (2, .sending 1 (.realtime .softReset))] := by
      decide +kernel
    rw [stage?, calls, List.lookup_cons, List.lookup_cons, beq_false_of_ne other] at stage
    by_cases first : j = 1
    · obtain ⟨-, rfl⟩ : 0 = x ∧ Errand.reportAnswer = f := by simpa [first] using stage
      rfl
    · simp [beq_false_of_ne first] at stage
  case heeded =>
    have read : (s.next (.act (.call 2))).link.connection.map
        (fun c => (c.inbox, c.chores, c.splitter.pending)) = some ([], [], []) := by decide +kernel
    obtain ⟨c, here, same⟩ := Option.map_eq_some_iff.mp read
    obtain ⟨inbox, chores, pending⟩ : c.inbox = [] ∧ c.chores = [] ∧ c.splitter.pending = [] := by
      simpa using same
    exact ⟨c, here, [], [], [], by rw [inbox]; rfl, .nil, by rw [pending]; rfl, by rw [chores]; rfl⟩

/-- The writer is held while it writes a line, and brings another line to the wire after the reset
before the call that resets the controller has its turn. -/
def lateReset : List Event :=
  Event.swift 0 (.connect "/dev/mock0" none) ++ .device 1 .stall ::
    Event.swift 2 (.writeAcked "G0 X1") ++ List.replicate 2 (.act .writer) ++
    Event.swift 3 (.realtime .softReset) ++ Event.swift 4 (.writeAcked "G0 X2") ++
    .device 5 .unstall :: List.replicate 6 (.act .writer)

/-- A line that goes over the wire after a reset can lose its slot because of it. -/
theorem reset_boundary_lateReset :
    ¬ ∀ (timeout : Option Nat) (es : List Event) (i r : Nat) (e : Errand),
      ((initial timeout).after es).Clears i r e →
      ∀ x ∈ ((initial timeout).after es).link.traffic.slots,
        x ∈ ((initial timeout).after es).link.wire.takeWhile (· ≠ r) := by
  intro always
  have clears : ((initial none).after lateReset).Clears 3 1 (.realtime .softReset) :=
    { stage := by decide +kernel
      reset := rfl
      sent := by decide +kernel
      isOpen := by decide +kernel
      done := by decide +kernel }
  exact absurd (always none lateReset 3 1 _ clears 2 (by decide +kernel)) (by decide +kernel)

end Session

end Cnc
