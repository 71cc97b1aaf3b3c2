import Cnc.Link.Post

/-!
# Locks

Three parts of a link are used by one actor at a time: the statistics, the
list of expected answers, and the settings. An actor that finds a part in
use waits in line, and whoever leaves hands the lock to the first in line.

Mostly an actor leaves a lock in the same turn in which it got it. It keeps
the lock only when it has to give way right after it got it, and that is
what makes lines form.
-/

namespace Cnc

/-- A part of a link that one actor uses at a time. -/
inductive Guarded where
  | stats
  /-- The answers that are still expected. -/
  | slots
  | settings
deriving DecidableEq, Repr

/-- The lock of a guarded part. -/
structure Lock where
  /-- Who has the lock. -/
  holder : Option Actor
  /-- Who waits for it, in the order in which they came. -/
  line : List Actor
deriving DecidableEq, Repr

namespace Lock

/-- A lock that nobody has. -/
def free : Lock := ⟨none, []⟩

/-- The lock after an actor has asked for it: it gets a free lock, and else waits in line. -/
def request (l : Lock) (a : Actor) : Lock :=
  match l.holder with
  | none => { l with holder := some a }
  | some h => if h = a ∨ a ∈ l.line then l else { l with line := l.line ++ [a] }

/-- The lock after its holder has left it to the first in line. -/
def leave (l : Lock) : Lock := ⟨l.line.head?, l.line.tail⟩

/-- The lock without an actor that no longer exists. -/
def forget (l : Lock) (a : Actor) : Lock :=
  if l.holder = some a then l.leave else { l with line := l.line.filter (· ≠ a) }

/-- Asking for a free lock is getting it. -/
@[simp] theorem request_free (a : Actor) : free.request a = ⟨some a, []⟩ := rfl

/-- A lock that somebody has stays with them until they leave it. -/
theorem request_holder {l : Lock} {h : Actor} (held : l.holder = some h) (a : Actor) :
    (l.request a).holder = some h := by
  simp only [request, held]
  split <;> simp [held]

/-- A lock that was got and left at once is as it was. -/
theorem leave_request_free (a : Actor) : (free.request a).leave = free := rfl

end Lock

/-- The locks of all guarded parts. -/
structure Locks where
  stats : Lock
  slots : Lock
  settings : Lock
deriving DecidableEq, Repr

namespace Locks

/-- Locks that nobody has. -/
def free : Locks := ⟨.free, .free, .free⟩

/-- The lock of a part. -/
def get (ls : Locks) : Guarded → Lock
  | .stats => ls.stats
  | .slots => ls.slots
  | .settings => ls.settings

/-- Replaces the lock of a part. -/
def set (ls : Locks) (g : Guarded) (l : Lock) : Locks :=
  match g with
  | .stats => { ls with stats := l }
  | .slots => { ls with slots := l }
  | .settings => { ls with settings := l }

/-- Whether an actor waits in a line. -/
def inLine (ls : Locks) (a : Actor) : Bool :=
  a ∈ ls.stats.line || a ∈ ls.slots.line || a ∈ ls.settings.line

@[simp] theorem get_set_self (ls : Locks) (g : Guarded) (l : Lock) : (ls.set g l).get g = l := by
  cases g <;> rfl

@[simp] theorem get_set_of_ne (ls : Locks) {g h : Guarded} (l : Lock) (ne : h ≠ g) :
    (ls.set g l).get h = ls.get h := by
  cases g <;> cases h <;> simp_all [get, set]

end Locks

end Cnc
