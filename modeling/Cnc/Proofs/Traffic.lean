import Mathlib.Data.List.Basic
import Cnc.Session.Run

/-!
# The traffic of a link

What is handed to a link, how far each payload has come, and which answers
are still expected is the *traffic* of the link. The status, the settings,
the statistics and the event bus are no part of it.

`Traffic.Move` lists everything that can happen to the traffic in one go:
a payload is posted, the writer takes one and brings it to the wire, the
reader reads and gives an answer away, the device does something, all
answers are given up, the connection ends, a connection is opened. Whatever
holds of the traffic after every run is proved once for each of these
moves.
-/

namespace Cnc

/-- **The traffic of a link.** -/
structure Traffic where
  /-- All posts; the ticket of a post is its index. -/
  posts : List Post
  /-- The tickets of the payloads that went over the wire, in order. -/
  wire : List Nat
  /-- How many connections have been opened. -/
  opened : Nat
  connection : Option Connection

/-- The traffic of a link. -/
def Link.traffic (l : Link) : Traffic := ⟨l.posts, l.wire, l.opened, l.connection⟩

/-! ## Marking posts -/

/-- The posts after those that have one of the tickets were changed. -/
def mark (f : Post → Post) (posts : List Post) (tickets : List Nat) : List Post :=
  posts.mapIdx fun x p => if x ∈ tickets then f p else p

/-- The posts, with what became of those that have one of the tickets. -/
abbrev markDelivered (posts : List Post) (tickets : List Nat) (d : Delivery) : List Post :=
  mark (fun p => { p with delivery := some d }) posts tickets

/-- The posts, with the answer to those that have one of the tickets. -/
abbrev markAnswered (posts : List Post) (tickets : List Nat) (a : Answer) : List Post :=
  mark (fun p => { p with answer := some a }) posts tickets

section Mark

variable (f : Post → Post) (posts : List Post)

theorem getElem?_mark (tickets : List Nat) (x : Nat) :
    (mark f posts tickets)[x]? = (posts[x]?).map fun p => if x ∈ tickets then f p else p :=
  List.getElem?_mapIdx

@[simp] theorem mark_nil : mark f posts [] = posts := by
  apply List.ext_getElem?
  intro x
  rw [getElem?_mark]
  simp

/-- Marking some posts and then others is marking all of them, if marking twice is marking
once. -/
theorem mark_mark (again : ∀ p, f (f p) = f p) (xs ys : List Nat) :
    mark f (mark f posts xs) ys = mark f posts (xs ++ ys) := by
  apply List.ext_getElem?
  intro x
  rw [getElem?_mark, getElem?_mark, getElem?_mark, Option.map_map]
  congr 1
  funext p
  by_cases hx : x ∈ xs <;> by_cases hy : x ∈ ys <;> simp [hx, hy, again]

/-- Replacing one post is marking it. -/
theorem set_eq_mark {x : Nat} {p : Post} (found : posts[x]? = some p) :
    posts.set x (f p) = mark f posts [x] := by
  obtain ⟨inside, rfl⟩ := List.getElem?_eq_some_iff.mp found
  apply List.ext_getElem?
  intro y
  rw [getElem?_mark, List.getElem?_set]
  by_cases h : x = y
  · subst h
    simp [inside]
  · simp [h, Ne.symm h]

/-- Marking a ticket that no post has changes nothing. -/
theorem mark_of_absent {x : Nat} (absent : posts[x]? = none) : mark f posts [x] = posts := by
  apply List.ext_getElem?
  intro y
  rw [getElem?_mark]
  by_cases h : y = x
  · simp [h, absent]
  · simp [h]

end Mark

/-! ## Moves -/

namespace Connection

/-- The connection with one more payload in its queue. -/
def enqueue (c : Connection) (payload : Payload) (ticket : Nat) : Connection :=
  if payload.isLine then { c with lines := c.lines ++ [ticket] }
  else { c with realtime := c.realtime ++ [ticket] }

/-- The connection after the device did something. -/
def driven (c : Connection) : DeviceAction → Connection
  | .send bs => { c with inbox := c.inbox ++ [.bytes bs] }
  | .hangUp => { c with inbox := c.inbox ++ [.eof] }
  | .failRead fault => { c with inbox := c.inbox ++ [.fault fault] }
  | .stall => { c with stalled := true }
  | .unstall => { c with stalled := false }
  | .failWrites count => { c with writeFaults := count }
  | .failFlushes count => { c with flushFaults := count }

/-- The connection after the reader took the first bytes of what was received. -/
def readPiece (c : Connection) (bs : List UInt8) (rest : List Incoming) : Connection :=
  { c with
    inbox := if (bs.drop readSize).isEmpty then rest else .bytes (bs.drop readSize) :: rest
    splitter := (c.splitter.feed (bs.take readSize)).1
    chores := .countBytes (bs.take readSize).length ::
      (c.splitter.feed (bs.take readSize)).2.flatMap Frame.chores }

section Unchanged

variable (c : Connection) (p : Payload) (x : Nat) (d : DeviceAction) (bs : List UInt8)
  (rest : List Incoming)

@[simp] theorem enqueue_number : (c.enqueue p x).number = c.number := by
  unfold enqueue; split <;> rfl

@[simp] theorem enqueue_writer : (c.enqueue p x).writer = c.writer := by
  unfold enqueue; split <;> rfl

@[simp] theorem enqueue_slots : (c.enqueue p x).slots = c.slots := by
  unfold enqueue; split <;> rfl

@[simp] theorem enqueue_inbox : (c.enqueue p x).inbox = c.inbox := by
  unfold enqueue; split <;> rfl

@[simp] theorem enqueue_splitter : (c.enqueue p x).splitter = c.splitter := by
  unfold enqueue; split <;> rfl

@[simp] theorem enqueue_chores : (c.enqueue p x).chores = c.chores := by
  unfold enqueue; split <;> rfl

@[simp] theorem enqueue_pollers : (c.enqueue p x).pollers = c.pollers := by
  unfold enqueue; split <;> rfl

@[simp] theorem enqueue_flushFaults : (c.enqueue p x).flushFaults = c.flushFaults := by
  unfold enqueue; split <;> rfl

@[simp] theorem driven_number : (c.driven d).number = c.number := by cases d <;> rfl

@[simp] theorem driven_lines : (c.driven d).lines = c.lines := by cases d <;> rfl

@[simp] theorem driven_realtime : (c.driven d).realtime = c.realtime := by cases d <;> rfl

@[simp] theorem driven_writer : (c.driven d).writer = c.writer := by cases d <;> rfl

@[simp] theorem driven_slots : (c.driven d).slots = c.slots := by cases d <;> rfl

@[simp] theorem driven_splitter : (c.driven d).splitter = c.splitter := by cases d <;> rfl

@[simp] theorem driven_pollers : (c.driven d).pollers = c.pollers := by cases d <;> rfl

@[simp] theorem driven_chores : (c.driven d).chores = c.chores := by cases d <;> rfl

@[simp] theorem readPiece_number : (c.readPiece bs rest).number = c.number := rfl

@[simp] theorem readPiece_lines : (c.readPiece bs rest).lines = c.lines := rfl

@[simp] theorem readPiece_realtime : (c.readPiece bs rest).realtime = c.realtime := rfl

@[simp] theorem readPiece_writer : (c.readPiece bs rest).writer = c.writer := rfl

@[simp] theorem readPiece_slots : (c.readPiece bs rest).slots = c.slots := rfl

@[simp] theorem readPiece_flushFaults : (c.readPiece bs rest).flushFaults = c.flushFaults := rfl

end Unchanged

/-- The tickets of the payloads that are not delivered yet: the writer's, and those in the
queues. -/
def waiting (c : Connection) : List Nat := c.writer.ticket?.toList ++ c.lines ++ c.realtime

end Connection

/-- The answer that a chore gives away. -/
def Chore.ack? : Chore → Option Ack
  | .settle a => some a
  | _ => none

namespace Traffic

/-- The payload of a post. -/
def payload? (t : Traffic) (x : Nat) : Option Payload := (t.posts[x]?).map (·.payload)

/-- Whether a ticket is that of a line. -/
def isLine (t : Traffic) (x : Nat) : Bool := (t.payload? x).any Payload.isLine

/-- What is done to the traffic, as far as one who did not do it needs to know. -/
inductive Deed where
  | post (sender : Actor) (payload : Payload)
  /-- The writer takes a payload from a queue. -/
  | take
  /-- A line gets its place among the expected answers. -/
  | place (x : Nat)
  /-- A payload goes over the wire. -/
  | send (x : Nat)
  /-- The device fails to take a payload. -/
  | fail (x : Nat) (fault : WriteFault)
  /-- The place of a line that the device failed to take is given up. -/
  | giveUp (x : Nat)
  /-- An answer is given to the line that expects one for longest. -/
  | settle (a : Ack)
  /-- The reader reads, or does something else with what it has read. -/
  | read
  | device (d : DeviceAction)
  | poll
  /-- All expected answers are given up. -/
  | clear
  | close
  | open
deriving DecidableEq

/-- **What can happen to the traffic in one go.** -/
inductive Move (t : Traffic) : Deed → Traffic → Prop
  | post {c : Connection} (sender : Actor) (payload : Payload) (here : t.connection = some c) :
    Move t (.post sender payload)
      { t with
        posts := t.posts ++ [⟨c.number, sender, payload, none, none⟩]
        connection := some (c.enqueue payload t.posts.length) }
  | takeRealtime {c : Connection} {x : Nat} {rest : List Nat} (here : t.connection = some c)
      (idle : c.writer = .idle) (first : c.realtime = x :: rest) :
    Move t .take { t with connection := some { c with realtime := rest, writer := .writing x } }
  | takeLine {c : Connection} {x : Nat} {rest : List Nat} (here : t.connection = some c)
      (idle : c.writer = .idle) (none : c.realtime = []) (first : c.lines = x :: rest) :
    Move t .take { t with connection := some { c with lines := rest, writer := .taken x } }
  | place {c : Connection} {x : Nat} (here : t.connection = some c) (taken : c.writer = .taken x) :
    Move t (.place x)
      { t with connection := some { c with slots := c.slots ++ [x], writer := .writing x } }
  | send {c : Connection} {x : Nat} (here : t.connection = some c) (writing : c.writer = .writing x)
      (free : c.stalled = false) (writes : c.writeFaults = 0) (flushes : c.flushFaults = 0) :
    Move t (.send x)
      { t with
        posts := markDelivered t.posts [x] .sent
        wire := t.wire ++ [x]
        connection := some { c with writer := .idle } }
  /-- The device does not take a line. -/
  | refuseLine {c : Connection} {x : Nat} (here : t.connection = some c)
      (writing : c.writer = .writing x) (free : c.stalled = false) (fault : 0 < c.writeFaults)
      (line : t.isLine x = true) :
    Move t (.fail x .write)
      { t with
        connection := some
          { c with writeFaults := c.writeFaults - 1, writer := .failed x .write } }
  /-- The device does not take a realtime command. -/
  | refuseRealtime {c : Connection} {x : Nat} (here : t.connection = some c)
      (writing : c.writer = .writing x) (free : c.stalled = false) (fault : 0 < c.writeFaults)
      (realtime : t.isLine x = false) :
    Move t (.fail x .write)
      { t with
        posts := markDelivered t.posts [x] (.failed .write)
        connection := some { c with writeFaults := c.writeFaults - 1, writer := .idle } }
  /-- The device takes a line and then fails. -/
  | spoilLine {c : Connection} {x : Nat} (here : t.connection = some c)
      (writing : c.writer = .writing x) (free : c.stalled = false) (fault : 0 < c.flushFaults)
      (line : t.isLine x = true) :
    Move t (.fail x .flush)
      { t with
        wire := t.wire ++ [x]
        connection := some
          { c with flushFaults := c.flushFaults - 1, writer := .failed x .flush } }
  /-- The device takes a realtime command and then fails. -/
  | spoilRealtime {c : Connection} {x : Nat} (here : t.connection = some c)
      (writing : c.writer = .writing x) (free : c.stalled = false) (fault : 0 < c.flushFaults)
      (realtime : t.isLine x = false) :
    Move t (.fail x .flush)
      { t with
        posts := markDelivered t.posts [x] (.failed .flush)
        wire := t.wire ++ [x]
        connection := some { c with flushFaults := c.flushFaults - 1, writer := .idle } }
  | giveUp {c : Connection} {x : Nat} {f : WriteFault} (here : t.connection = some c)
      (failed : c.writer = .failed x f) :
    Move t (.giveUp x)
      { t with
        posts := markDelivered (markAnswered t.posts c.slots.getLast?.toList .lost) [x] (.failed f)
        connection := some { c with slots := c.slots.dropLast, writer := .idle } }
  | settle {c : Connection} {a : Ack} {rest : List Chore} (here : t.connection = some c)
      (first : c.chores = .settle a :: rest) :
    Move t (.settle a)
      { t with
        posts := markAnswered t.posts c.slots.head?.toList (.ack a)
        connection := some { c with chores := rest, slots := c.slots.tail } }
  /-- The reader does another chore. -/
  | chore {c : Connection} {ch : Chore} {rest : List Chore} (here : t.connection = some c)
      (first : c.chores = ch :: rest) (other : ch.ack? = none) :
    Move t .read { t with connection := some { c with chores := rest } }
  | read {c : Connection} {bs : List UInt8} {rest : List Incoming} (here : t.connection = some c)
      (done : c.chores = []) (first : c.inbox = .bytes bs :: rest) :
    Move t .read { t with connection := some (c.readPiece bs rest) }
  /-- Nothing came in time. -/
  | timeout {c : Connection} {rest : List Incoming} (here : t.connection = some c)
      (done : c.chores = []) (first : c.inbox = .fault .timedOut :: rest) :
    Move t .read { t with connection := some { c with inbox := rest } }
  | device {c : Connection} (d : DeviceAction) (here : t.connection = some c) :
    Move t (.device d) { t with connection := some (c.driven d) }
  | poll {c : Connection} (pollers : List Poller) (here : t.connection = some c) :
    Move t .poll { t with connection := some { c with pollers } }
  | clear {c : Connection} (here : t.connection = some c) :
    Move t .clear
      { t with
        posts := markAnswered t.posts c.slots .lost
        connection := some { c with slots := [] } }
  | close {c : Connection} (here : t.connection = some c) :
    Move t .close
      { t with
        posts := markDelivered (markAnswered t.posts c.slots .lost) c.waiting .lost
        connection := none }
  | open (port : String) (closed : t.connection = none) :
    Move t .open
      { t with opened := t.opened + 1, connection := some (.fresh t.opened port) }

/-- Several moves, one after the other. -/
inductive Moves : Traffic → List Deed → Traffic → Prop
  | nil (t : Traffic) : Moves t [] t
  | cons {t u v : Traffic} {d : Deed} {ds : List Deed} (first : Move t d u)
      (rest : Moves u ds v) : Moves t (d :: ds) v

/-- One move. -/
theorem Move.moves {t u : Traffic} {d : Deed} (h : Move t d u) : Moves t [d] u :=
  .cons h (.nil u)

theorem Moves.append {t u v : Traffic} {ds es : List Deed} (h : Moves t ds u)
    (k : Moves u es v) : Moves t (ds ++ es) v := by
  induction h with
  | nil => exact k
  | cons first _ ih => exact .cons first (ih k)

/-- **What every move keeps, several moves keep.** -/
theorem Moves.induction {P : Traffic → Prop} {t u : Traffic} {ds : List Deed}
    (h : Moves t ds u) (start : P t) (step : ∀ {t u d}, Move t d u → P t → P u) : P u := by
  induction h with
  | nil => exact start
  | cons first _ ih => exact ih (step first start)

end Traffic

end Cnc
