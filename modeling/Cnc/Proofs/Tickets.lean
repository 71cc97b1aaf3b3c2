import Cnc.Proofs.Turns

/-!
# Tickets

A post keeps its origin – the connection, the sender and the payload –
whatever becomes of it. It waits at the writer or in a queue, goes over the
wire or not, and at some time it is known what became of it. This module
says, for every move of the traffic, which of that changes.
-/

namespace Cnc

/-- What does not change about a post. -/
def Post.origin (p : Post) : Nat × Actor × Payload := (p.connection, p.sender, p.payload)

/-- The ticket of the payload at the writer, unless it went over the wire. -/
def WriterStage.unsent? : WriterStage → Option Nat
  | .taken x | .writing x | .failed x .write => some x
  | .idle | .failed _ .flush => none

/-- The ticket at the writer, unless it went over the wire, is at the writer. -/
theorem WriterStage.ticket?_of_unsent? {w : WriterStage} {x : Nat} (h : w.unsent? = some x) :
    w.ticket? = some x := by
  cases w with
  | failed y f => cases f <;> simp_all [unsent?, ticket?]
  | _ => simp_all [unsent?, ticket?]

/-- The tickets in one of the two queues. -/
def Connection.queue (c : Connection) (line : Bool) : List Nat :=
  if line then c.lines else c.realtime

namespace Traffic

variable {t u v : Traffic} {d : Deed} {ds : List Deed}

/-! ## Origins -/

/-- The origin of the post with a ticket. -/
def origin? (t : Traffic) (x : Nat) : Option (Nat × Actor × Payload) :=
  (t.posts[x]?).map Post.origin

/-- Who handed over the post with a ticket. -/
def sender? (t : Traffic) (x : Nat) : Option Actor := (t.posts[x]?).map (·.sender)

/-- The origins of all posts. -/
def origins (t : Traffic) : List (Nat × Actor × Payload) := t.posts.map Post.origin

theorem getElem?_origins (t : Traffic) (x : Nat) : t.origins[x]? = t.origin? x := List.getElem?_map

theorem length_origins (t : Traffic) : t.origins.length = t.posts.length := List.length_map _

theorem payload?_eq (t : Traffic) (x : Nat) : t.payload? x = (t.origin? x).map (·.2.2) := by
  simp [payload?, origin?, Post.origin, Function.comp_def]

theorem sender?_eq (t : Traffic) (x : Nat) : t.sender? x = (t.origin? x).map (·.2.1) := by
  simp [sender?, origin?, Post.origin, Function.comp_def]

theorem map_origin_mark {f : Post → Post} (keeps : ∀ p, (f p).origin = p.origin)
    (posts : List Post) (tickets : List Nat) :
    (mark f posts tickets).map Post.origin = posts.map Post.origin := by
  apply List.ext_getElem?
  intro x
  rw [List.getElem?_map, List.getElem?_map, getElem?_mark, Option.map_map]
  congr 1
  funext p
  by_cases h : x ∈ tickets
  · simp [h, keeps]
  · simp [h]

/-- **A move keeps the origin of every post**, and adds at most one post. -/
theorem Move.origins (h : Move t d u) :
    (u.origins = t.origins ∧ ∀ a p, d ≠ .post a p) ∨
      ∃ c a p, d = .post a p ∧ t.connection = some c ∧
        u.origins = t.origins ++ [(c.number, a, p)] := by
  have told (posts : List Post) (xs : List Nat) (f : Delivery) :
      (markDelivered posts xs f).map Post.origin = posts.map Post.origin := by
    apply map_origin_mark
    intro p
    rfl
  have known (posts : List Post) (xs : List Nat) (a : Answer) :
      (markAnswered posts xs a).map Post.origin = posts.map Post.origin := by
    apply map_origin_mark
    intro p
    rfl
  cases h with
  | post a p here =>
    refine .inr ⟨_, a, p, rfl, here, ?_⟩
    simp [Traffic.origins, Post.origin]
  | send | refuseRealtime | spoilRealtime => exact .inl ⟨told _ _ _, by simp⟩
  | settle | clear => exact .inl ⟨known _ _ _, by simp⟩
  | giveUp | close => exact .inl ⟨(told _ _ _).trans (known _ _ _), by simp⟩
  | _ => exact .inl ⟨rfl, by simp⟩

theorem Move.origins_kept (h : Move t d u) : t.origins <+: u.origins := by
  rcases h.origins with h | ⟨c, a, p, -, -, h⟩
  · exact h.1 ▸ List.prefix_rfl
  · exact h ▸ List.prefix_append _ _

/-- What is known about a ticket stays. -/
theorem origin?_of_kept (h : t.origins <+: u.origins) {x : Nat} (known : x < t.posts.length) :
    u.origin? x = t.origin? x := by
  obtain ⟨new, h⟩ := h
  rw [← getElem?_origins, ← getElem?_origins, ← h,
    List.getElem?_append_left (by rwa [length_origins])]

theorem length_le_of_kept (h : t.origins <+: u.origins) : t.posts.length ≤ u.posts.length := by
  have := h.length_le
  rwa [length_origins, length_origins] at this

theorem isLine_of_kept (h : t.origins <+: u.origins) {x : Nat} (known : x < t.posts.length) :
    u.isLine x = t.isLine x := by
  rw [isLine, isLine, payload?_eq, payload?_eq, origin?_of_kept h known]

theorem isLine_of_origins (h : u.origins = t.origins) : u.isLine = t.isLine := by
  funext x
  rw [isLine, isLine, payload?_eq, payload?_eq, ← getElem?_origins, ← getElem?_origins, h]

/-! ## Places -/

/-- The tickets of the payloads that are not delivered yet. -/
def waiting (t : Traffic) : List Nat := (t.connection.map Connection.waiting).getD []

/-- The ticket at the writer, unless it went over the wire. -/
def unsent (t : Traffic) : List Nat := (t.connection.bind (·.writer.unsent?)).toList

/-- The tickets in one of the two queues. -/
def queue (t : Traffic) (line : Bool) : List Nat := (t.connection.map (·.queue line)).getD []

/-- A connection that has just been opened has nothing to write. -/
theorem waiting_fresh (number : Nat) (port : String) :
    (Connection.fresh number port).waiting = [] := rfl

/-- What is at the writer and not sent is waiting. -/
theorem mem_waiting_of_unsent {x : Nat} (h : x ∈ t.unsent) : x ∈ t.waiting := by
  unfold unsent at h
  unfold Traffic.waiting
  cases here : t.connection with
  | none => simp [here] at h
  | some c =>
    have ticket := WriterStage.ticket?_of_unsent? (by simpa [here] using h)
    simp [Connection.waiting, ticket]

/-- What is in a queue is waiting. -/
theorem mem_waiting_of_queue {x : Nat} {line : Bool} (h : x ∈ t.queue line) : x ∈ t.waiting := by
  unfold queue at h
  unfold Traffic.waiting
  cases here : t.connection with
  | none => simp [here] at h
  | some c => cases line <;> simp_all [Connection.waiting, Connection.queue]

/-- The ticket that a deed gives out. -/
def Deed.ticket (d : Deed) (t : Traffic) : List Nat :=
  match d with
  | .post .. => [t.posts.length]
  | _ => []

theorem Deed.mem_ticket {x : Nat} (h : x ∈ d.ticket t) :
    x = t.posts.length ∧ ∃ a p, d = .post a p := by
  cases d with
  | post a p => exact ⟨by simpa [ticket] using h, a, p, rfl⟩
  | _ => exact absurd h (by simp [ticket])

/-- **What goes over the wire** is what the writer writes. -/
theorem Move.wire (h : Move t d u) :
    u.wire = t.wire
      ∨ ∃ x, t.unsent = [x] ∧ u.wire = t.wire ++ [x] ∧ (d = .send x ∨ d = .fail x .flush) := by
  cases h with
  | send here writing =>
    exact .inr ⟨_, by simp [unsent, here, writing, WriterStage.unsent?], rfl, .inl rfl⟩
  | spoilLine here writing | spoilRealtime here writing =>
    exact .inr ⟨_, by simp [unsent, here, writing, WriterStage.unsent?], rfl, .inr rfl⟩
  | _ => exact .inl rfl

/-- What went over the wire stays so. -/
theorem Move.wire_kept (h : Move t d u) : t.wire <+: u.wire := by
  rcases h.wire with same | ⟨x, -, one, -⟩
  · exact same ▸ List.prefix_rfl
  · exact one ▸ List.prefix_append _ _

/-- What joins a queue is a new payload of its kind. -/
theorem Move.mem_queue (h : Move t d u) {line : Bool} {x : Nat} (queued : x ∈ u.queue line) :
    x ∈ t.queue line ∨ (x ∈ d.ticket t ∧ u.isLine x = line) := by
  cases h with
  | @post c a p here =>
    have new : x ∈ c.queue line ∨ (x = t.posts.length ∧ p.isLine = line) := by
      simp only [queue, Option.map_some, Option.getD_some, Connection.enqueue] at queued
      split at queued
      · next isLine => cases line <;> simp_all [Connection.queue]
      · next realtime => cases line <;> simp_all [Connection.queue]
    rcases new with h | ⟨rfl, h⟩
    · exact .inl (by simpa [queue, here] using h)
    · exact .inr ⟨by simp [Deed.ticket], by simp [isLine, payload?, h]⟩
  | takeRealtime here idle first | takeLine here idle none first =>
    left
    cases line <;> simp_all [queue, Connection.queue]
  | close => exact absurd queued (by simp [queue])
  | «open» =>
    exact absurd queued (by cases line <;> simp [queue, Connection.queue, Connection.fresh])
  | read here => exact .inl (by simpa [queue, here, Connection.queue] using queued)
  | device d here =>
    exact .inl (by simpa [queue, here, Connection.queue] using queued)
  | poll _ here => exact .inl (by simpa [queue, here, Connection.queue] using queued)
  | _ here => exact .inl (by simpa [queue, here, Connection.queue] using queued)

/-- The writer holds a line that it held before, the first line of the queue, or one that the
device just failed to take. -/
theorem Move.held (h : Move t d u) {c' : Connection} {x : Nat} (there : u.connection = some c')
    (stage : c'.writer = .taken x ∨ ∃ f, c'.writer = .failed x f) :
    (∃ c, t.connection = some c ∧ (c.writer = .taken x ∨ ∃ f, c.writer = .failed x f))
      ∨ x ∈ t.queue true ∨ (t.unsent = [x] ∧ t.isLine x = true) := by
  cases h with
  | @post c a p here =>
    refine .inl ⟨c, here, ?_⟩
    rwa [← Option.some.inj there, Connection.enqueue_writer] at stage
  | takeLine here idle none first =>
    obtain rfl := Option.some.inj there
    refine .inr (.inl ?_)
    simp_all [queue, Connection.queue]
  | refuseLine here writing free fault line | spoilLine here writing free fault line =>
    obtain rfl := Option.some.inj there
    refine .inr (.inr ?_)
    simp_all [unsent, WriterStage.unsent?]
  | takeRealtime | place | send | refuseRealtime | spoilRealtime | giveUp | «open» =>
    obtain rfl := Option.some.inj there
    simp [Connection.fresh] at stage
  | close => exact absurd there (by simp)
  | @device c d here =>
    exact .inl ⟨c, here, by rwa [← Option.some.inj there, Connection.driven_writer] at stage⟩
  | poll _ here => exact .inl ⟨_, here, by rwa [← Option.some.inj there] at stage⟩
  | read here =>
    rw [← Option.some.inj there, Connection.readPiece_writer] at stage
    exact .inl ⟨_, here, stage⟩
  | _ here => exact .inl ⟨_, here, by rwa [← Option.some.inj there] at stage⟩

/-! ## Connections -/

/-- A connection stays the same one until it ends. -/
theorem Move.connected (h : Move t d u) {c' : Connection} (there : u.connection = some c') :
    (∃ c, t.connection = some c ∧ c'.number = c.number ∧ u.opened = t.opened)
      ∨ (t.connection = none ∧ c' = .fresh t.opened c'.port ∧ u.opened = t.opened + 1) := by
  cases h with
  | @post c a p here =>
    left
    exact ⟨c, here, by rw [← Option.some.inj there, Connection.enqueue_number], rfl⟩
  | @device c d here =>
    left
    exact ⟨c, here, by rw [← Option.some.inj there, Connection.driven_number], rfl⟩
  | close => exact absurd there (by simp)
  | «open» port closed =>
    right
    rw [← Option.some.inj there]
    exact ⟨closed, rfl, rfl⟩
  | poll _ here => exact .inl ⟨_, here, by rw [← Option.some.inj there], rfl⟩
  | read here =>
    exact .inl ⟨_, here, by rw [← Option.some.inj there, Connection.readPiece_number], rfl⟩
  | _ here => exact .inl ⟨_, here, by rw [← Option.some.inj there], rfl⟩

theorem Move.opened_le (h : Move t d u) : t.opened ≤ u.opened := by
  cases h with
  | «open» => exact Nat.le_succ _
  | _ => exact Nat.le_refl _

/-- Connections are opened one after the other. -/
theorem Moves.opened_le (h : Moves t ds u) : t.opened ≤ u.opened := by
  induction h with
  | nil => exact Nat.le_refl _
  | cons first _ ih => exact Nat.le_trans first.opened_le ih

/-- A connection that is there after some moves during which none was opened was there before. -/
theorem Moves.connected (h : Moves t ds u) {c' : Connection} (there : u.connection = some c')
    (opened : u.opened = t.opened) : ∃ c, t.connection = some c ∧ c'.number = c.number := by
  induction h with
  | nil => exact ⟨c', there, rfl⟩
  | cons first rest ih =>
    have before := first.opened_le
    have after := rest.opened_le
    obtain ⟨b, between, number⟩ := ih there (by omega)
    rcases first.connected between with ⟨c, here, same, -⟩ | ⟨-, -, new⟩
    · exact ⟨c, here, number.trans same⟩
    · omega

/-- The device takes payloads whole: no flush is to fail, and none has failed just now. -/
def Steady (t : Traffic) : Prop :=
  ∀ c, t.connection = some c → c.flushFaults = 0 ∧ ∀ x, c.writer ≠ .failed x .flush

/-- As long as nobody makes flushes fail, the device takes payloads whole. -/
theorem Move.steady (h : Move t d u) (steady : t.Steady)
    (whole : ∀ n, d = .device (.failFlushes n) → n = 0) : u.Steady := by
  intro c' there
  cases h with
  | spoilLine here writing free fault | spoilRealtime here writing free fault =>
    exact absurd (steady _ here).1 (Nat.ne_of_gt fault)
  | @device c d here =>
    obtain rfl := Option.some.inj there
    refine ⟨?_, by rw [Connection.driven_writer]; exact (steady c here).2⟩
    cases d with
    | failFlushes n => exact whole n rfl
    | _ => exact (steady c here).1
  | post a p here =>
    obtain rfl := Option.some.inj there
    simpa using steady _ here
  | takeRealtime here | takeLine here | place here | send here | refuseLine here
  | refuseRealtime here | giveUp here =>
    obtain rfl := Option.some.inj there
    exact ⟨(steady _ here).1, by simp⟩
  | close => exact absurd there (by simp)
  | «open» port closed =>
    obtain rfl := Option.some.inj there
    exact ⟨rfl, by simp [Connection.fresh]⟩
  | poll _ here =>
    obtain rfl := Option.some.inj there
    exact ⟨(steady _ here).1, (steady _ here).2⟩
  | _ here =>
    obtain rfl := Option.some.inj there
    exact ⟨(steady _ here).1, (steady _ here).2⟩

/-! ## Deliveries -/

/-- What became of the post with a ticket. -/
def delivery? (t : Traffic) (x : Nat) : Option Delivery := (t.posts[x]?).bind (·.delivery)

/-- The answer to the post with a ticket. -/
def answer? (t : Traffic) (x : Nat) : Option Answer := (t.posts[x]?).bind (·.answer)

/-- Whether it is not known yet what became of a post. -/
def Undelivered (t : Traffic) (x : Nat) : Prop := ∃ p, t.posts[x]? = some p ∧ p.delivery = none

theorem Undelivered.known {x : Nat} (h : t.Undelivered x) : x < t.posts.length := by
  obtain ⟨p, h, -⟩ := h
  exact (List.getElem?_eq_some_iff.mp h).1

/-- A delivered post is one that was not delivered and is not among those that were marked. -/
theorem undelivered_markDelivered (posts : List Post) (xs : List Nat) (f : Delivery) (x : Nat) :
    (∃ p, (markDelivered posts xs f)[x]? = some p ∧ p.delivery = none)
      ↔ (∃ p, posts[x]? = some p ∧ p.delivery = none) ∧ x ∉ xs := by
  rw [markDelivered, getElem?_mark]
  cases posts[x]? with
  | none => simp
  | some p => by_cases h : x ∈ xs <;> simp [h]

theorem undelivered_markAnswered (posts : List Post) (xs : List Nat) (a : Answer) (x : Nat) :
    (∃ p, (markAnswered posts xs a)[x]? = some p ∧ p.delivery = none)
      ↔ ∃ p, posts[x]? = some p ∧ p.delivery = none := by
  rw [markAnswered, getElem?_mark]
  cases posts[x]? with
  | none => simp
  | some p => by_cases h : x ∈ xs <;> simp [h]

theorem undelivered_append (posts : List Post) {q : Post} (open_ : q.delivery = none) (x : Nat) :
    (∃ p, (posts ++ [q])[x]? = some p ∧ p.delivery = none)
      ↔ (∃ p, posts[x]? = some p ∧ p.delivery = none) ∨ x = posts.length := by
  rcases Nat.lt_trichotomy x posts.length with h | rfl | h
  · simp [List.getElem?_append_left h, Nat.ne_of_lt h]
  · simp [open_]
  · have past : posts[x]? = none := List.getElem?_eq_none (by omega)
    have past' : (posts ++ [q])[x]? = none := List.getElem?_eq_none (by simp; omega)
    simp [past, past', Nat.ne_of_gt h]

/-- **What a move does to the payloads that wait.** Some are done with, and a new one may join. -/
theorem Move.waiting (h : Move t d u) :
    ∃ done, (u.waiting ++ done).Perm (t.waiting ++ d.ticket t) ∧
      ∀ x, u.Undelivered x ↔ (t.Undelivered x ∨ x ∈ d.ticket t) ∧ x ∉ done := by
  cases h with
  | @post c a p here =>
    refine ⟨[], ?_, fun x => ?_⟩
    · simp only [Traffic.waiting, here, Connection.enqueue, Deed.ticket, Option.map_some,
        Option.getD_some]
      split
      · refine List.perm_iff_count.mpr fun y => ?_
        simp [Connection.waiting, List.count_cons]
      · simp [Connection.waiting]
    · simp only [Undelivered, Deed.ticket, List.not_mem_nil, not_false_eq_true, and_true,
        List.mem_singleton]
      exact undelivered_append t.posts rfl x
  | @send c x here writing =>
    refine ⟨[x], ?_, fun y => ?_⟩
    · refine List.perm_iff_count.mpr fun y => ?_
      simp [Traffic.waiting, here, Connection.waiting, writing, WriterStage.ticket?, Deed.ticket,
        List.count_cons]
      omega
    · simpa [Deed.ticket, Undelivered] using undelivered_markDelivered t.posts [x] .sent y
  | @refuseRealtime c x here writing =>
    refine ⟨[x], ?_, fun y => ?_⟩
    · refine List.perm_iff_count.mpr fun y => ?_
      simp [Traffic.waiting, here, Connection.waiting, writing, WriterStage.ticket?, Deed.ticket,
        List.count_cons]
      omega
    · simpa [Deed.ticket, Undelivered] using undelivered_markDelivered t.posts [x] _ y
  | @spoilRealtime c x here writing =>
    refine ⟨[x], ?_, fun y => ?_⟩
    · refine List.perm_iff_count.mpr fun y => ?_
      simp [Traffic.waiting, here, Connection.waiting, writing, WriterStage.ticket?, Deed.ticket,
        List.count_cons]
      omega
    · simpa [Deed.ticket, Undelivered] using undelivered_markDelivered t.posts [x] _ y
  | @giveUp c x f here failed =>
    refine ⟨[x], ?_, fun y => ?_⟩
    · refine List.perm_iff_count.mpr fun y => ?_
      simp [Traffic.waiting, here, Connection.waiting, failed, WriterStage.ticket?, Deed.ticket,
        List.count_cons]
      omega
    · have told := undelivered_markDelivered
        (markAnswered t.posts c.slots.getLast?.toList .lost) [x]
        (.failed f) y
      rw [undelivered_markAnswered] at told
      simpa [Deed.ticket, Undelivered] using told
  | @close c here =>
    refine ⟨c.waiting, ?_, fun y => ?_⟩
    · simp [Traffic.waiting, here, Deed.ticket]
    · have told := undelivered_markDelivered (markAnswered t.posts c.slots .lost) c.waiting .lost y
      rw [undelivered_markAnswered] at told
      simpa [Deed.ticket, Undelivered] using told
  | @settle c a rest here first =>
    refine ⟨[], ?_, fun y => ?_⟩
    · simp [Traffic.waiting, here, Connection.waiting, Deed.ticket]
    · simpa [Deed.ticket, Undelivered] using
        undelivered_markAnswered t.posts c.slots.head?.toList (.ack a) y
  | @clear c here =>
    refine ⟨[], ?_, fun y => ?_⟩
    · simp [Traffic.waiting, here, Connection.waiting, Deed.ticket]
    · simpa [Deed.ticket, Undelivered] using undelivered_markAnswered t.posts c.slots .lost y
  | takeRealtime here idle first =>
    refine ⟨[], ?_, by simp [Undelivered, Deed.ticket]⟩
    refine List.perm_iff_count.mpr fun y => ?_
    simp [Traffic.waiting, here, Connection.waiting, idle, first, WriterStage.ticket?, Deed.ticket,
      List.count_cons]
    omega
  | takeLine here idle none first =>
    refine ⟨[], ?_, by simp [Undelivered, Deed.ticket]⟩
    simp [Traffic.waiting, here, Connection.waiting, idle, first, WriterStage.ticket?, Deed.ticket]
  | place here stage | refuseLine here stage | spoilLine here stage =>
    refine ⟨[], ?_, by simp [Undelivered, Deed.ticket]⟩
    simp [Traffic.waiting, here, Connection.waiting, stage, WriterStage.ticket?, Deed.ticket]
  | chore here | timeout here | poll _ here =>
    refine ⟨[], ?_, by simp [Undelivered, Deed.ticket]⟩
    simp [Traffic.waiting, here, Connection.waiting, Deed.ticket]
  | read here =>
    refine ⟨[], ?_, by simp [Undelivered, Deed.ticket]⟩
    simp [Traffic.waiting, here, Connection.waiting, Deed.ticket]
  | device d here =>
    refine ⟨[], ?_, by simp [Undelivered, Deed.ticket]⟩
    simp [Traffic.waiting, here, Connection.waiting, Deed.ticket]
  | «open» port closed =>
    refine ⟨[], ?_, by simp [Undelivered, Deed.ticket]⟩
    simp [Traffic.waiting, closed, Connection.waiting, Connection.fresh, WriterStage.ticket?,
      Deed.ticket]

/-- **What became of a payload** is found out when it is sent, when the device fails to take it,
or when the connection ends. -/
theorem Move.delivered (h : Move t d u) {x : Nat} {f : Delivery} (told : u.delivery? x = some f) :
    t.delivery? x = some f ∨ (x ∈ t.waiting ∧
      ((f = .sent ∧ d = .send x)
        ∨ (∃ w, f = .failed w ∧ (d = .fail x w ∨ d = .giveUp x) ∧ (w = .write → x ∈ t.unsent))
        ∨ (f = .lost ∧ d = .close))) := by
  -- an answer does not change what became of a payload
  have answered (posts : List Post) (xs : List Nat) (a : Answer) :
      ((markAnswered posts xs a)[x]?).bind (·.delivery) = (posts[x]?).bind (·.delivery) := by
    rw [getElem?_mark]
    cases posts[x]? with
    | none => rfl
    | some p => by_cases h : x ∈ xs <;> simp [h]
  have marked (posts : List Post) (xs : List Nat) (g : Delivery)
      (told : ((markDelivered posts xs g)[x]?).bind (·.delivery) = some f) :
      (posts[x]?).bind (·.delivery) = some f ∨ (x ∈ xs ∧ f = g) := by
    rw [getElem?_mark] at told
    cases found : posts[x]? with
    | none => simp [found] at told
    | some p =>
      by_cases h : x ∈ xs
      · exact .inr ⟨h, by simpa [found, h, eq_comm] using told⟩
      · exact .inl (by simpa [found, h] using told)
  have atWriter {c : Connection} (here : t.connection = some c)
      (ticket : c.writer.ticket? = some x) : x ∈ t.waiting := by
    simp [Traffic.waiting, here, Connection.waiting, ticket]
  cases h with
  | @post c a p here =>
    left
    unfold Traffic.delivery? at told ⊢
    by_cases inside : x < t.posts.length
    · rwa [List.getElem?_append_left inside] at told
    · rw [List.getElem?_append_right (by omega)] at told
      cases at0 : x - t.posts.length with
      | zero => simp [at0] at told
      | succ n => simp [at0] at told
  | @send c y here writing =>
    rcases marked _ _ _ told with h | ⟨h, rfl⟩
    · exact .inl h
    · obtain rfl := List.mem_singleton.mp h
      exact .inr ⟨atWriter here (by simp [writing, WriterStage.ticket?]), .inl ⟨rfl, rfl⟩⟩
  | @refuseRealtime c y here writing =>
    rcases marked _ _ _ told with h | ⟨h, rfl⟩
    · exact .inl h
    · obtain rfl := List.mem_singleton.mp h
      refine .inr ⟨atWriter here (by simp [writing, WriterStage.ticket?]), .inr (.inl ?_)⟩
      exact ⟨_, rfl, .inl rfl, fun _ => by simp [unsent, here, writing, WriterStage.unsent?]⟩
  | @spoilRealtime c y here writing =>
    rcases marked _ _ _ told with h | ⟨h, rfl⟩
    · exact .inl h
    · obtain rfl := List.mem_singleton.mp h
      refine .inr ⟨atWriter here (by simp [writing, WriterStage.ticket?]), .inr (.inl ?_)⟩
      exact ⟨_, rfl, .inl rfl, by simp⟩
  | @giveUp c y f here failed =>
    rcases marked _ _ _ told with h | ⟨h, rfl⟩
    · exact .inl (by rwa [answered] at h)
    · obtain rfl := List.mem_singleton.mp h
      refine .inr ⟨atWriter here (by simp [failed, WriterStage.ticket?]), .inr (.inl ?_)⟩
      refine ⟨_, rfl, .inr rfl, ?_⟩
      rintro rfl
      simp [unsent, here, failed, WriterStage.unsent?]
  | close here =>
    rcases marked _ _ _ told with h | ⟨waits, rfl⟩
    · exact .inl (by rwa [answered] at h)
    · exact .inr ⟨by simpa [Traffic.waiting, here] using waits, .inr (.inr ⟨rfl, rfl⟩)⟩
  | settle | clear => exact .inl (by rwa [Traffic.delivery?, answered] at told)
  | _ => exact .inl told

end Traffic

end Cnc
