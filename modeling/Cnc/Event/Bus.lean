/-!
# Event buses

A bus delivers every published event to every subscriber that is there when
it is published. Publishing never waits: the bus keeps the newest events, a
fixed number of them, and a subscriber that has fallen further behind is
told how many it lost and goes on with the oldest one kept.

The bus is modelled by the list of all events ever published; subscribers
are positions in that list.
-/

namespace Cnc

/-- What a subscriber gets when it asks for the next event. -/
inductive Heard (E : Type) where
  /-- The next event. -/
  | event (e : E)
  /-- A number of events were lost. -/
  | lagged (lost : Nat)
deriving DecidableEq, Repr

/-- A bus for events of one type. -/
structure EventBus (E : Type) where
  /-- How many of the newest events are kept. -/
  capacity : Nat
  /-- All events published so far, in order. -/
  log : List E
  /-- For every subscription ever made, the number of events it is past; none once it is dropped. -/
  positions : List (Option Nat)
deriving DecidableEq, Repr

namespace EventBus

variable {E : Type}

/-- A bus that keeps at least `n` events: the least power of two that is no less. There is no bus
that keeps none. -/
def ofCapacity? (n : Nat) : Option (EventBus E) :=
  if n = 0 then none else some ⟨n.nextPowerOfTwo, [], []⟩

/-- The bus of a link or a job streamer. -/
def standard : EventBus E := ⟨256, [], []⟩

/-- Publishes an event. -/
def publish (b : EventBus E) (e : E) : EventBus E := { b with log := b.log ++ [e] }

/-- The number of present subscribers. -/
def subscribers (b : EventBus E) : Nat := (b.positions.filter Option.isSome).length

/-- The number of the next subscription. -/
def nextSubscription (b : EventBus E) : Nat := b.positions.length

/-- Adds a subscriber for the events to come; its number is `nextSubscription`. -/
def subscribe (b : EventBus E) : EventBus E :=
  { b with positions := b.positions ++ [some b.log.length] }

/-- Drops a subscription. -/
def unsubscribe (b : EventBus E) (sub : Nat) : EventBus E :=
  { b with positions := b.positions.set sub none }

/-- The position of the oldest event that is kept. -/
def oldest (b : EventBus E) : Nat := b.log.length - b.capacity

/-- The position of a subscriber. -/
def position? (b : EventBus E) (sub : Nat) : Option Nat := (b.positions[sub]?).join

/-- What a subscriber hears next, if anything, and the bus after it. -/
def receive (b : EventBus E) (sub : Nat) : Option (Heard E) × EventBus E :=
  match b.position? sub with
  | none => (none, b)
  | some p =>
    if p < b.oldest then
      (some (.lagged (b.oldest - p)), { b with positions := b.positions.set sub (some b.oldest) })
    else match b.log[p]? with
      | some e => (some (.event e), { b with positions := b.positions.set sub (some (p + 1)) })
      | none => (none, b)

/-- Everything that a subscriber has not heard yet, and the bus after it. -/
def drain (b : EventBus E) (sub : Nat) : List (Heard E) × EventBus E :=
  match b.position? sub with
  | none => ([], b)
  | some p =>
    let lost := b.oldest - p
    ((if lost = 0 then [] else [.lagged lost]) ++ (b.log.drop (Nat.max p b.oldest)).map .event,
      { b with positions := b.positions.set sub (some b.log.length) })

@[simp] theorem publish_log (b : EventBus E) (e : E) : (b.publish e).log = b.log ++ [e] := rfl

@[simp] theorem subscribe_log (b : EventBus E) : b.subscribe.log = b.log := rfl

@[simp] theorem unsubscribe_log (b : EventBus E) (sub : Nat) : (b.unsubscribe sub).log = b.log :=
  rfl

/-- Hearing an event publishes none. -/
@[simp] theorem receive_log (b : EventBus E) (sub : Nat) : (b.receive sub).2.log = b.log := by
  unfold receive
  split
  · rfl
  · split
    · rfl
    · split <;> rfl

/-- Listening to events publishes none. -/
@[simp] theorem drain_log (b : EventBus E) (sub : Nat) : (b.drain sub).2.log = b.log := by
  unfold drain
  split <;> rfl

end EventBus

end Cnc
