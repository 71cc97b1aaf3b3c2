import Cnc.Proofs.Filing

/-!
# Places among the expected answers

A line is *placed* when it went over the wire or when it has its place among
the expected answers and is about to. After every run, the slots of the link
are the placed lines without an answer, in the order of the wire
(`Traffic.Slotted.slots`) – whatever the device answers, however often, and
whatever is given up in between.

The writer gives up the last slot when a line fails, without looking whose
slot it is. That it is the line's own (`Traffic.Slotted.holder`) depends on
the line being the last that was placed, and on there being no slot at all
if the line was answered before it failed.
-/

namespace Cnc

/-- The ticket of the line that has its place but is not sent; also that of a realtime command that
is being written. -/
def WriterStage.placed? : WriterStage → Option Nat
  | .writing x | .failed x .write => some x
  | .idle | .taken _ | .failed _ .flush => none

/-- The ticket of the payload that the writer has not finished after placing it. -/
def WriterStage.holder? : WriterStage → Option Nat
  | .writing x | .failed x _ => some x
  | .idle | .taken _ => none

/-- The ticket of the line that was taken and has no place yet. -/
def WriterStage.taken? : WriterStage → Option Nat
  | .taken x => some x
  | _ => none

theorem WriterStage.unsent?_of_placed? {w : WriterStage} {x : Nat} (h : w.placed? = some x) :
    w.unsent? = some x := by
  cases w with
  | failed y f => cases f <;> simp_all [placed?, unsent?]
  | _ => simp_all [placed?, unsent?]

theorem WriterStage.unsent?_of_taken? {w : WriterStage} {x : Nat} (h : w.taken? = some x) :
    w.unsent? = some x := by
  cases w <;> simp_all [taken?, unsent?]

theorem WriterStage.ticket?_of_holder? {w : WriterStage} {x : Nat} (h : w.holder? = some x) :
    w.ticket? = some x := by
  cases w <;> simp_all [holder?, ticket?]

namespace Traffic

variable {t u v : Traffic} {d : Deed} {ds : List Deed}

/-- The tickets of the lines that an answer is expected for, oldest first. -/
def slots (t : Traffic) : List Nat := (t.connection.map (·.slots)).getD []

/-- The line that has its place but is not sent. -/
def placing (t : Traffic) : List Nat :=
  ((t.connection.bind (·.writer.placed?)).toList).filter t.isLine

/-- The lines that went over the wire. -/
def received (t : Traffic) : List Nat := t.wire.filter t.isLine

/-- The lines that went over the wire or are about to. -/
def placed (t : Traffic) : List Nat := t.received ++ t.placing

/-- The lines that have no place yet. -/
def unplaced (t : Traffic) : List Nat :=
  (t.connection.bind (·.writer.taken?)).toList ++ t.queue true

/-- Whether a line has no answer. -/
def unanswered (t : Traffic) (x : Nat) : Bool := (t.answer? x).isNone

/-- **The slots are the placed lines without an answer.** -/
structure Slotted (t : Traffic) : Prop where
  slots : t.slots = t.placed.filter t.unanswered
  /-- The line at the writer was placed last, and if it is answered then no slot is left. -/
  holder : ∀ c x, t.connection = some c → c.writer.holder? = some x → t.isLine x = true →
    (∃ before, t.placed = before ++ [x]) ∧ (t.unanswered x = false → c.slots = [])
  /-- Only placed lines are answered. -/
  unplaced : ∀ x ∈ t.unplaced, t.unanswered x = true

/-! ## Answers -/

/-- The lines that a deed answers. -/
def Deed.answered (d : Deed) (t : Traffic) : List Nat :=
  match d with
  | .settle _ => t.slots.head?.toList
  | .giveUp _ => t.slots.getLast?.toList
  | .clear | .close => t.slots
  | _ => []

/-- The answer that a deed gives. -/
def Deed.answer : Deed → Answer
  | .settle a => .ack a
  | _ => .lost

theorem answer?_markDelivered (posts : List Post) (xs : List Nat) (f : Delivery) (x : Nat) :
    ((markDelivered posts xs f)[x]?).bind (·.answer) = (posts[x]?).bind (·.answer) := by
  rw [getElem?_mark]
  cases posts[x]? with
  | none => rfl
  | some p => by_cases h : x ∈ xs <;> simp [h]

theorem answer?_markAnswered (posts : List Post) (xs : List Nat) (a : Answer) (x : Nat) :
    ((markAnswered posts xs a)[x]?).bind (·.answer)
      = if x ∈ xs ∧ x < posts.length then some a else (posts[x]?).bind (·.answer) := by
  rw [getElem?_mark]
  cases found : posts[x]? with
  | none =>
    have outside := List.getElem?_eq_none_iff.mp found
    simp [Nat.not_lt.mpr outside]
  | some p =>
    have inside := (List.getElem?_eq_some_iff.mp found).1
    by_cases h : x ∈ xs <;> simp [h, inside]

/-- **What a move does to the answers.** -/
theorem Move.answer? (h : Move t d u) (x : Nat) :
    u.answer? x = if x ∈ d.answered t ∧ x < t.posts.length then some d.answer else t.answer? x := by
  cases h with
  | @post c a p here =>
    simp only [Deed.answered, List.not_mem_nil, false_and, if_false, Traffic.answer?]
    by_cases inside : x < t.posts.length
    · rw [List.getElem?_append_left inside]
    · rw [List.getElem?_append_right (by omega),
        List.getElem?_eq_none_iff.mpr (Nat.not_lt.mp inside)]
      cases x - t.posts.length <;> simp
  | send | refuseRealtime | spoilRealtime =>
    simpa [Deed.answered, Traffic.answer?] using answer?_markDelivered t.posts _ _ x
  | @giveUp c y f here =>
    have told := answer?_markDelivered (markAnswered t.posts c.slots.getLast?.toList .lost) [y]
      (.failed f) x
    rw [answer?_markAnswered] at told
    simpa [Deed.answered, Deed.answer, Traffic.answer?, Traffic.slots, here] using told
  | @settle c a rest here =>
    have told := answer?_markAnswered t.posts c.slots.head?.toList (.ack a) x
    simpa [Deed.answered, Deed.answer, Traffic.answer?, Traffic.slots, here] using told
  | @clear c here =>
    have told := answer?_markAnswered t.posts c.slots .lost x
    simpa [Deed.answered, Deed.answer, Traffic.answer?, Traffic.slots, here] using told
  | @close c here =>
    have told := answer?_markDelivered (markAnswered t.posts c.slots .lost) c.waiting .lost x
    rw [answer?_markAnswered] at told
    simpa [Deed.answered, Deed.answer, Traffic.answer?, Traffic.slots, here] using told
  | _ => simp [Deed.answered, Traffic.answer?]

/-- A deed that answers no line leaves all answers as they are. -/
theorem Move.answer?_eq (h : Move t d u) (silent : d.answered t = []) : u.answer? = t.answer? := by
  funext x
  rw [h.answer?, silent]
  simp

theorem Move.unanswered (h : Move t d u) {x : Nat} (known : x < t.posts.length) :
    u.unanswered x = (t.unanswered x && decide (x ∉ d.answered t)) := by
  unfold Traffic.unanswered
  rw [h.answer?]
  by_cases h : x ∈ d.answered t <;> simp [h, known]

/-! ## Placed lines -/

theorem mem_unsent_of_placing {x : Nat} (h : x ∈ t.placing) : x ∈ t.unsent := by
  have atWriter := List.mem_of_mem_filter h
  unfold Traffic.unsent
  cases here : t.connection with
  | none => simp [here] at atWriter
  | some c => simpa using WriterStage.unsent?_of_placed? (by simpa [here] using atWriter)

/-- The placed lines are on the course of the lines. -/
theorem placed_sublist_course (t : Traffic) : t.placed.Sublist (t.course true) := by
  have placing : t.placing.Sublist (t.unsent.filter t.isLine) := by
    unfold Traffic.placing Traffic.unsent
    cases here : t.connection with
    | none => simp
    | some c =>
      cases stage : c.writer with
      | failed y f => cases f <;> simp [stage, WriterStage.placed?, WriterStage.unsent?]
      | _ => simp [stage, WriterStage.placed?, WriterStage.unsent?]
  unfold Traffic.placed Traffic.received Traffic.course
  simp only [beq_true, List.filter_append]
  exact ((List.Sublist.refl _).append placing).trans (List.sublist_append_left _ _)

theorem Filed.placed_ascending (filed : t.Filed) : t.placed.Pairwise (· < ·) :=
  (filed.ascending true).sublist (placed_sublist_course t)

theorem Filed.placed_known (filed : t.Filed) {x : Nat} (h : x ∈ t.placed) : x < t.posts.length := by
  rcases List.mem_append.mp h with h | h
  · exact filed.known x (List.mem_of_mem_filter h)
  · exact filed.unsent_known (List.mem_append_right _ (mem_unsent_of_placing h))

theorem isLine_of_placed {x : Nat} (h : x ∈ t.placed) : t.isLine x = true := by
  rcases List.mem_append.mp h with h | h
  · exact (List.mem_filter.mp h).2
  · exact (List.mem_filter.mp h).2

/-- The lines that went over the wire, after a move that sends nothing. -/
theorem Move.received_eq (h : Move t d u) (filed : t.Filed) (same : u.wire = t.wire) :
    u.received = t.received := by
  unfold Traffic.received
  rw [same]
  refine List.filter_congr fun x hx => ?_
  rw [isLine_of_kept h.origins_kept (filed.known x hx)]

/-- **Most moves keep the placed lines**: only placing a line, giving up its place, and closing
change them. -/
theorem Move.placed_eq (h : Move t d u) (filed : t.Filed) (notPlace : ∀ x, d ≠ .place x)
    (notGiveUp : ∀ x, d ≠ .giveUp x) (notClose : d ≠ .close) : u.placed = t.placed := by
  have keeps (same : u.wire = t.wire) (placing : u.placing = t.placing) : u.placed = t.placed := by
    unfold Traffic.placed
    rw [h.received_eq filed same, placing]
  have isLine : (∀ a p, d ≠ .post a p) → u.isLine = t.isLine := fun notPost => by
    rcases h.origins with ⟨same, -⟩ | ⟨_, a, p, post, -⟩
    · exact isLine_of_origins same
    · exact absurd post (notPost a p)
  cases h with
  | @post c a p here =>
    refine keeps rfl ?_
    unfold Traffic.placing
    simp only [here, Option.bind_some, Connection.enqueue_writer]
    refine List.filter_congr fun x hx => ?_
    have atWriter : x ∈ t.unsent := by
      simpa [Traffic.unsent, here] using WriterStage.unsent?_of_placed? (by simpa using hx)
    exact isLine_of_kept (Move.post a p here).origins_kept
      (filed.unsent_known (List.mem_append_right _ atWriter))
  | @takeRealtime c x rest here idle first =>
    refine keeps rfl ?_
    have realtime : t.isLine x = false :=
      filed.sorted false x (by simp [queue, here, Connection.queue, first])
    simp [Traffic.placing, isLine (by simp), here, idle, WriterStage.placed?, realtime]
  | takeLine here idle =>
    refine keeps rfl ?_
    simp [Traffic.placing, here, idle, WriterStage.placed?]
  | send here writing | spoilLine here writing | spoilRealtime here writing =>
    unfold Traffic.placed Traffic.received Traffic.placing
    rw [isLine (by simp)]
    simp [here, writing, WriterStage.placed?]
  | refuseLine here writing =>
    refine keeps rfl ?_
    simp [Traffic.placing, isLine (by simp), here, writing, WriterStage.placed?]
  | refuseRealtime here writing free fault realtime =>
    refine keeps rfl ?_
    simp [Traffic.placing, isLine (by simp), here, writing, WriterStage.placed?, realtime]
  | place => exact absurd rfl (notPlace _)
  | giveUp => exact absurd rfl (notGiveUp _)
  | close => exact absurd rfl notClose
  | device _ here | read here =>
    refine keeps rfl ?_
    unfold Traffic.placing
    rw [isLine (by simp)]
    simp [here]
  | settle here | chore here | timeout here | poll _ here | clear here =>
    refine keeps rfl ?_
    simp [Traffic.placing, isLine (by simp), here]
  | «open» port closed =>
    refine keeps rfl ?_
    simp [Traffic.placing, closed, Connection.fresh, WriterStage.placed?]

/-! ## The line at the writer -/

/-- The line at the writer was there before, or was placed just now. -/
theorem Move.holder (h : Move t d u) (filed : t.Filed) {c' : Connection} {x : Nat}
    (there : u.connection = some c') (held : c'.writer.holder? = some x)
    (line : u.isLine x = true) :
    (∃ c, t.connection = some c ∧ c.writer.holder? = some x ∧ t.isLine x = true)
      ∨ d = .place x := by
  have before {c : Connection} (here : t.connection = some c) (stage : c.writer.holder? = some x) :
      ∃ c, t.connection = some c ∧ c.writer.holder? = some x ∧ t.isLine x = true := by
    have waits : x ∈ t.waiting := by
      simp [Traffic.waiting, here, Connection.waiting, WriterStage.ticket?_of_holder? stage]
    have known := Undelivered.known ((filed.mem_waiting x).mp waits)
    exact ⟨c, here, stage, by rwa [isLine_of_kept h.origins_kept known] at line⟩
  cases h with
  | @post c a p here =>
    obtain rfl := Option.some.inj there
    exact .inl (before here (by rwa [Connection.enqueue_writer] at held))
  | @takeRealtime c y rest here idle first =>
    obtain rfl := Option.some.inj there
    obtain rfl := Option.some.inj held
    have realtime : t.isLine y = false :=
      filed.sorted false y (by simp [queue, here, Connection.queue, first])
    exact absurd line (by simpa [Traffic.isLine, Traffic.payload?] using realtime)
  | place here taken =>
    obtain rfl := Option.some.inj there
    obtain rfl := Option.some.inj held
    exact .inr rfl
  | refuseLine here writing | spoilLine here writing =>
    obtain rfl := Option.some.inj there
    exact .inl (before here (by simpa [writing, WriterStage.holder?] using held))
  | takeLine | send | refuseRealtime | spoilRealtime | giveUp | «open» =>
    obtain rfl := Option.some.inj there
    exact absurd held (by simp [WriterStage.holder?, Connection.fresh])
  | close => exact absurd there (by simp)
  | device d here =>
    obtain rfl := Option.some.inj there
    exact .inl (before here (by rwa [Connection.driven_writer] at held))
  | poll _ here =>
    obtain rfl := Option.some.inj there
    exact .inl (before here held)
  | _ here =>
    obtain rfl := Option.some.inj there
    exact .inl (before here held)

/-- A line that has no place yet had none before, or was handed over just now. -/
theorem Move.mem_unplaced (h : Move t d u) {x : Nat} (unplaced : x ∈ u.unplaced) :
    x ∈ t.unplaced ∨ x ∈ d.ticket t := by
  rcases List.mem_append.mp unplaced with taken | queued
  · left
    cases h with
    | @post c a p here =>
      simp only [Option.bind_some, Connection.enqueue_writer] at taken
      simp [Traffic.unplaced, here, taken]
    | takeLine here idle none first =>
      simp_all [Traffic.unplaced, queue, Connection.queue, WriterStage.taken?]
    | takeRealtime | place | send | refuseLine | refuseRealtime | spoilLine | spoilRealtime | giveUp
    | close | «open» => exact absurd taken (by simp [WriterStage.taken?, Connection.fresh])
    | device _ here => exact List.mem_append_left _ (by simpa [here] using taken)
    | read here => exact List.mem_append_left _ (by simpa [here] using taken)
    | poll _ here => exact List.mem_append_left _ (by simpa [here] using taken)
    | _ here => exact List.mem_append_left _ (by simpa [here] using taken)
  · rcases h.mem_queue queued with before | ⟨new, -⟩
    · exact .inl (List.mem_append_right _ before)
    · exact .inr new

/-- What has no place yet is waiting. -/
theorem mem_waiting_of_unplaced {x : Nat} (h : x ∈ t.unplaced) : x ∈ t.waiting := by
  rcases List.mem_append.mp h with taken | queued
  · refine mem_waiting_of_unsent ?_
    unfold Traffic.unsent
    cases here : t.connection with
    | none => simp [here] at taken
    | some c => simpa using WriterStage.unsent?_of_taken? (by simpa [here] using taken)
  · exact mem_waiting_of_queue queued

/-! ## Every move keeps the slots -/

theorem Deed.mem_slots_of_answered {x : Nat} (h : x ∈ d.answered t) : x ∈ t.slots := by
  cases d with
  | settle a => exact List.mem_of_mem_head? (by simpa [answered] using h)
  | giveUp y => exact List.mem_of_getLast? (by simpa [answered] using h)
  | clear | close => exact h
  | _ => exact absurd h (by simp [answered])

theorem Slotted.placed_of_slots (slotted : t.Slotted) {x : Nat} (h : x ∈ t.slots) :
    x ∈ t.placed := by
  rw [slotted.slots] at h
  exact List.mem_of_mem_filter h

/-- A line that has no place is not placed. -/
theorem Filed.not_placed (filed : t.Filed) {x : Nat} (h : x ∈ t.unplaced) : x ∉ t.placed := by
  intro placed
  rcases List.mem_append.mp h with taken | queued
  · cases here : t.connection with
    | none => simp [here] at taken
    | some c =>
      have stage : c.writer = .taken x := by
        cases writer : c.writer <;> simp_all [WriterStage.taken?]
      have atWriter : x ∈ t.unsent := by simp [Traffic.unsent, here, stage, WriterStage.unsent?]
      rcases List.mem_append.mp placed with onWire | placing
      · exact filed.not_mem_wire atWriter (List.mem_of_mem_filter onWire)
      · simp [Traffic.placing, here, stage, WriterStage.placed?] at placing
  · -- on the course of the lines, the placed ones come before those in the queue
    have before : x ∈ (t.wire ++ t.unsent).filter (t.isLine · == true) := by
      rw [List.mem_filter, beq_true]
      refine ⟨?_, isLine_of_placed placed⟩
      rcases List.mem_append.mp placed with onWire | placing
      · exact List.mem_append_left _ (List.mem_of_mem_filter onWire)
      · exact List.mem_append_right _ (mem_unsent_of_placing placing)
    have less := (List.pairwise_append.mp (filed.ascending true)).2.2 x before x queued
    exact Nat.lt_irrefl x less

theorem Move.unplaced (h : Move t d u) (filed : t.Filed) (slotted : t.Slotted) :
    ∀ x ∈ u.unplaced, u.unanswered x = true := by
  intro x hx
  rcases h.mem_unplaced hx with before | new
  · have known := Undelivered.known ((filed.mem_waiting x).mp (mem_waiting_of_unplaced before))
    have notAnswered : x ∉ d.answered t := fun answered =>
      filed.not_placed before (slotted.placed_of_slots (Deed.mem_slots_of_answered answered))
    rw [h.unanswered known, slotted.unplaced x before]
    simp [notAnswered]
  · obtain ⟨rfl, -⟩ := Deed.mem_ticket new
    rw [Traffic.unanswered, h.answer?]
    simp [Traffic.answer?]

/-- A move that answers nobody, and changes neither the slots nor the placed lines. -/
theorem Move.slotted_of_silent (h : Move t d u) (filed : t.Filed) (slotted : t.Slotted)
    (placed : u.placed = t.placed) (slots : u.slots = t.slots) (silent : d.answered t = [])
    (notPlace : ∀ x, d ≠ .place x) : u.Slotted := by
  have answers : u.unanswered = t.unanswered := by
    funext x
    rw [Traffic.unanswered, h.answer?_eq silent, Traffic.unanswered]
  refine ⟨?slots, ?holder, h.unplaced filed slotted⟩
  case slots => rw [slots, placed, answers, slotted.slots]
  case holder =>
    intro c' x there held line
    rcases h.holder filed there held line with ⟨c, here, stage, isLine⟩ | place
    · have same : c'.slots = c.slots := by simpa [Traffic.slots, there, here] using slots
      rw [placed, answers, same]
      exact slotted.holder c x here stage isLine
    · exact absurd place (notPlace x)

/-- The unanswered among some posts, after a move. -/
theorem Move.filter_unanswered (h : Move t d u) {xs : List Nat}
    (known : ∀ x ∈ xs, x < t.posts.length) :
    xs.filter u.unanswered = (xs.filter t.unanswered).filter (· ∉ d.answered t) := by
  rw [List.filter_filter]
  refine List.filter_congr fun x hx => ?_
  rw [h.unanswered (known x hx), Bool.and_comm]

theorem Move.slotted_of_place {x : Nat} (h : Move t (.place x) u) (filed : t.Filed)
    (slotted : t.Slotted) : u.Slotted := by
  have unplaced : x ∈ t.unplaced := by
    cases h with
    | place here taken => simp [Traffic.unplaced, here, taken, WriterStage.taken?]
  have isLine := isLine_of_origins (h.origins.resolve_right (by simp)).1
  have placed : u.placed = t.placed ++ [x] := by
    unfold Traffic.placed
    rw [h.received_eq filed (by cases h; rfl), Traffic.placing, Traffic.placing, isLine]
    cases h with
    | place here taken =>
      have line : t.isLine x = true := filed.line _ x here (.inl taken)
      simp [here, taken, WriterStage.placed?, line]
  have answers : u.unanswered = t.unanswered := by
    funext y
    rw [Traffic.unanswered, h.answer?_eq rfl, Traffic.unanswered]
  refine ⟨?slots, ?holder, h.unplaced filed slotted⟩
  case slots =>
    rw [placed, answers, List.filter_append, ← slotted.slots]
    cases h with
    | place here => simp [Traffic.slots, here, slotted.unplaced x unplaced]
  case holder =>
    intro c' y there held _
    cases h with
    | place here =>
      obtain rfl := Option.some.inj there
      obtain rfl := Option.some.inj held
      refine ⟨⟨_, placed⟩, fun answered => ?_⟩
      rw [answers, slotted.unplaced x unplaced] at answered
      exact absurd answered (by simp)

/-- The slot that the writer gives up is the slot of its own line, unless no slot is left. -/
theorem Slotted.getLast? (slotted : t.Slotted) {c : Connection} {x : Nat}
    (here : t.connection = some c) (held : c.writer.holder? = some x) (line : t.isLine x = true) :
    c.slots.getLast? = if t.unanswered x then some x else none := by
  obtain ⟨⟨before, last⟩, lone⟩ := slotted.holder c x here held line
  cases answered : t.unanswered x with
  | false => simp [lone answered]
  | true =>
    have slots := slotted.slots
    rw [last, List.filter_append] at slots
    have own : c.slots = before.filter t.unanswered ++ [x] := by
      simpa [Traffic.slots, here, answered] using slots
    simp [own]

theorem Move.slotted_of_giveUp {x : Nat} (h : Move t (.giveUp x) u) (filed : t.Filed)
    (slotted : t.Slotted) : u.Slotted := by
  have received : u.placed = t.received := by
    unfold Traffic.placed
    rw [h.received_eq filed (by cases h; rfl)]
    cases h
    simp [Traffic.placing, WriterStage.placed?]
  refine ⟨?slots, ?holder, h.unplaced filed slotted⟩
  case slots =>
    obtain ⟨c, f, here, failed, slots⟩ : ∃ c f, t.connection = some c ∧ c.writer = .failed x f ∧
        u.slots = c.slots.dropLast := by
      cases h with
      | giveUp here failed => exact ⟨_, _, here, failed, rfl⟩
    have held : c.writer.holder? = some x := by simp [failed, WriterStage.holder?]
    have line : t.isLine x = true := filed.line c x here (.inr ⟨f, failed⟩)
    have known : ∀ y ∈ t.received, y < t.posts.length := fun y hy =>
      filed.placed_known (List.mem_append_left _ hy)
    have answered : Deed.answered (.giveUp x) t = if t.unanswered x then [x] else [] := by
      simp only [Deed.answered, Traffic.slots, here, Option.map_some, Option.getD_some,
        slotted.getLast? here held line]
      split <;> rfl
    have own : c.slots = t.placed.filter t.unanswered := by
      simpa [Traffic.slots, here] using slotted.slots
    rw [slots, received, h.filter_unanswered known, answered, own]
    obtain ⟨before, last⟩ := (slotted.holder c x here held line).1
    have apart : x ∉ before := by
      have ascending := last ▸ filed.placed_ascending
      intro hx
      exact Nat.lt_irrefl x ((List.pairwise_append.mp ascending).2.2 x hx x (by simp))
    have others : before.filter (fun y => !decide (y = x) && t.unanswered y)
        = before.filter t.unanswered :=
      List.filter_congr fun y hy => by
        simp [show y ≠ x from fun same => apart (same ▸ hy)]
    -- the line that failed is the last on the wire, or not on the wire
    have parts : t.received = before ∨ t.received = before ++ [x] := by
      have whole : t.received ++ t.placing = before ++ [x] := last
      cases f with
      | write =>
        have placing : t.placing = [x] := by
          simp [Traffic.placing, here, failed, WriterStage.placed?, line]
        exact .inl (List.append_cancel_right (placing ▸ whole))
      | flush =>
        have placing : t.placing = [] := by
          simp [Traffic.placing, here, failed, WriterStage.placed?]
        exact .inr (by simpa [placing] using whole)
    rw [last, List.filter_append]
    cases unanswered : t.unanswered x with
    | true => rcases parts with parts | parts <;> simp [parts, unanswered, others]
    | false =>
      have none : before.filter t.unanswered = [] := by
        have lone := (slotted.holder c x here held line).2 unanswered
        rw [own, last, List.filter_append] at lone
        exact (List.append_eq_nil_iff.mp lone).1
      rcases parts with parts | parts <;> simp [parts, unanswered, none]
  case holder =>
    intro c' y there held _
    cases h
    obtain rfl := Option.some.inj there
    exact absurd held (by simp [WriterStage.holder?])

theorem Move.slotted_of_settle {a : Ack} (h : Move t (.settle a) u) (filed : t.Filed)
    (slotted : t.Slotted) : u.Slotted := by
  have placed : u.placed = t.placed := h.placed_eq filed (by simp) (by simp) (by simp)
  have slots : u.slots = t.slots.tail := by
    cases h with
    | settle here => simp [Traffic.slots, here]
  have nodup : t.slots.Nodup := by
    rw [slotted.slots]
    exact (filed.placed_ascending.imp Nat.ne_of_lt).filter _
  refine ⟨?slots, ?holder, h.unplaced filed slotted⟩
  case slots =>
    rw [slots, placed, h.filter_unanswered (fun _ => filed.placed_known), ← slotted.slots,
      Deed.answered]
    cases own : t.slots with
    | nil => rfl
    | cons x rest =>
      have apart : x ∉ rest := (List.nodup_cons.mp (own ▸ nodup)).1
      simp only [List.tail_cons, List.head?_cons, Option.toList_some]
      rw [List.filter_cons_of_neg (by simp)]
      refine (List.filter_eq_self.mpr fun y hy => ?_).symm
      simp [show y ≠ x from fun same => apart (same ▸ hy)]
  case holder =>
    intro c' x there held isLine
    obtain ⟨c, here, stage, line⟩ := (h.holder filed there held isLine).resolve_right (by simp)
    obtain ⟨⟨before, last⟩, lone⟩ := slotted.holder c x here stage line
    have tail : c'.slots = c.slots.tail := by simpa [Traffic.slots, there, here] using slots
    refine ⟨⟨before, placed.trans last⟩, fun answered => ?_⟩
    rw [tail]
    have known : x < t.posts.length := filed.placed_known (by simp [last])
    rw [h.unanswered known] at answered
    cases before' : t.unanswered x with
    | false => rw [lone before', List.tail_nil]
    | true =>
      -- the first slot was the line's own, which is the last
      have first : c.slots.head? = some x := by
        simpa [before', Deed.answered, Traffic.slots, here] using answered
      have own : c.slots = before.filter t.unanswered ++ [x] := by
        have slots := slotted.slots
        rw [last, List.filter_append] at slots
        simpa [Traffic.slots, here, before'] using slots
      cases earlier : before.filter t.unanswered with
      | nil => rw [own, earlier]; rfl
      | cons y rest =>
        rw [own, earlier] at first
        obtain rfl : y = x := by simpa using first
        have twice : (y :: rest ++ [y]).Nodup := by
          rw [← earlier, ← own]
          simpa [Traffic.slots, here] using nodup
        exact absurd twice (by simp)

/-- After all slots were given up, none is left. -/
theorem Move.slotted_of_none (h : Move t d u) (filed : t.Filed) (slotted : t.Slotted)
    (all : d.answered t = t.slots) (none : u.slots = []) (fewer : u.placed.Sublist t.placed)
    (same : u.connection.isSome = true → u.placed = t.placed) (notPlace : ∀ x, d ≠ .place x) :
    u.Slotted := by
  refine ⟨?slots, ?holder, h.unplaced filed slotted⟩
  case slots =>
    rw [none, h.filter_unanswered fun x hx => filed.placed_known (fewer.subset hx), all]
    refine (List.filter_eq_nil_iff.mpr fun x hx => ?_).symm
    have slot : x ∈ t.slots := by
      rw [slotted.slots]
      exact (fewer.filter _).subset hx
    simp [slot]
  case holder =>
    intro c' x there held isLine
    obtain ⟨c, here, stage, line⟩ := (h.holder filed there held isLine).resolve_right (notPlace x)
    refine ⟨?_, fun _ => by simpa [Traffic.slots, there] using none⟩
    rw [same (by simp [there])]
    exact (slotted.holder c x here stage line).1

/-- **Every move keeps the slots.** -/
theorem Move.slotted (h : Move t d u) (filed : t.Filed) (slotted : t.Slotted) : u.Slotted := by
  have move := h
  have placed_eq := h.placed_eq filed
  cases h with
  | place => exact move.slotted_of_place filed slotted
  | giveUp => exact move.slotted_of_giveUp filed slotted
  | settle => exact move.slotted_of_settle filed slotted
  | clear here =>
    have placed := placed_eq (by simp) (by simp) (by simp)
    exact move.slotted_of_none filed slotted rfl rfl (placed ▸ List.Sublist.refl _)
      (fun _ => placed) (by simp)
  | close here =>
    refine move.slotted_of_none filed slotted rfl rfl ?_ (by simp) (by simp)
    have received : Traffic.placed _ = t.received ++ [] :=
      congrArg (· ++ []) (move.received_eq filed rfl)
    rw [received, List.append_nil]
    exact List.sublist_append_left _ _
  | poll _ here | post _ _ here | device _ here =>
    exact move.slotted_of_silent filed slotted (placed_eq (by simp) (by simp) (by simp))
      (by simp [Traffic.slots, here]) rfl (by simp)
  | «open» port closed =>
    exact move.slotted_of_silent filed slotted (placed_eq (by simp) (by simp) (by simp))
      (by simp [Traffic.slots, closed, Connection.fresh]) rfl (by simp)
  | _ here =>
    exact move.slotted_of_silent filed slotted (placed_eq (by simp) (by simp) (by simp))
      (by simp [Traffic.slots, here]) rfl (by simp)

/-- **An answer never changes again.** -/
theorem Move.answer_kept (h : Move t d u) (slotted : t.Slotted) {x : Nat} {a : Answer}
    (known : t.answer? x = some a) : u.answer? x = some a := by
  rw [h.answer?, if_neg, known]
  rintro ⟨answered, -⟩
  have slot := Deed.mem_slots_of_answered answered
  rw [slotted.slots, List.mem_filter] at slot
  simp [Traffic.unanswered, known] at slot

theorem Moves.slotted (h : Moves t ds u) (filed : t.Filed) (slotted : t.Slotted) :
    u.Slotted ∧ ∀ x a, t.answer? x = some a → u.answer? x = some a := by
  induction h with
  | nil t => exact ⟨slotted, fun _ _ known => known⟩
  | cons first _ ih =>
    obtain ⟨there, kept⟩ := ih (first.filed filed) (first.slotted filed slotted)
    exact ⟨there, fun x a known => kept x a (first.answer_kept slotted known)⟩

end Traffic

namespace Session

theorem slotted_initial (timeout : Option Nat) : (initial timeout).link.traffic.Slotted := by
  constructor <;>
    simp [initial, Link.initial, Link.traffic, Traffic.slots, Traffic.placed, Traffic.received,
      Traffic.placing, Traffic.unplaced, Traffic.queue]

/-- **The slots after every run** are the placed lines without an answer, and no answer ever
changes. -/
theorem slotted_after {s : Session} (filed : s.link.traffic.Filed)
    (slotted : s.link.traffic.Slotted) (es : List Event) :
    (s.after es).link.traffic.Slotted ∧ ∀ x a, s.link.traffic.answer? x = some a →
      (s.after es).link.traffic.answer? x = some a := by
  induction es generalizing s with
  | nil => exact ⟨slotted, fun _ _ known => known⟩
  | cons e es ih =>
    obtain ⟨ds, moves, -⟩ := next_trades s e
    obtain ⟨there, kept⟩ := moves.slotted filed slotted
    obtain ⟨last, further⟩ := ih (moves.onward filed).1 there
    exact ⟨last, fun x a known => further x a (kept x a known)⟩

end Session

end Cnc
