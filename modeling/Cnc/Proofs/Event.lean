import Cnc.Proofs.Scheduling

/-!
# Runs under any scheduler

`Session.settle` lets the actors act in one fixed order. A host with several
processors need not keep to it: any actor may act at any moment, with any
credit, between any two things that happen outside. A run here is therefore
a list of events in any order – the scheduler rearranges its queues, an actor
has a turn, a host call begins, the device does something, time passes, the
observer listens – and `Session.after` is the session that a run leads to.

What holds after every run holds whatever the order of turns is. The fixed
order is one of them: settling a session is itself a run
(`Session.settle_eq_after`).
-/

namespace Cnc

/-- **What can happen next in a session.** -/
inductive Event where
  /-- The scheduler decides who may act next, with which credit. -/
  | schedule (ready : List Actor) (acting : Option Actor) (credit : Nat) (yielded : List Actor)
      (stretches : Nat)
  /-- An actor has a turn, whether anything woke it or not. -/
  | act (a : Actor)
  /-- A host call begins; its index is one that no unfinished call has. -/
  | call (i : Nat) (c : Call)
  /-- The device does something. -/
  | device (i : Nat) (d : DeviceAction)
  /-- Time passes, in milliseconds. -/
  | elapse (time : Nat)
  /-- The observer hears all events that were published. -/
  | observe
deriving DecidableEq

/-- Whether an event is a turn, or who has the next one is decided. -/
def Event.isTurn : Event → Bool
  | .schedule .. | .act _ => true
  | .call .. | .device .. | .elapse _ | .observe => false

/-- A host call that has its first turn at once. -/
def Event.swift (i : Nat) (c : Call) : List Event := [.call i c, .act (.call i)]

namespace Session

/-- The session after an event. -/
def next (s : Session) (e : Event) : Session :=
  match e with
  | .schedule ready acting credit yielded stretches =>
    { s with ready, acting, credit, yielded, stretches }
  | .act a => s.act a
  | .call i c => if (s.stage? i).isSome then s else s.begin i (.call c)
  | .device i d => s.begin i (.device d)
  | .elapse time => { s with now := s.now + time }
  | .observe => (s.observe s).2

/-- The session after a run. -/
def after (s : Session) (es : List Event) : Session := es.foldl next s

/-- The events of a run, each with the session that it finds. -/
def history (s : Session) : List Event → List (Session × Event)
  | [] => []
  | e :: es => (s, e) :: history (s.next e) es

@[simp] theorem after_nil (s : Session) : s.after [] = s := rfl

@[simp] theorem after_cons (s : Session) (e : Event) (es : List Event) :
    s.after (e :: es) = (s.next e).after es := rfl

@[simp] theorem after_append (s : Session) (es fs : List Event) :
    s.after (es ++ fs) = (s.after es).after fs := List.foldl_append

@[simp] theorem history_nil (s : Session) : s.history [] = [] := rfl

theorem history_append (s : Session) (es fs : List Event) :
    s.history (es ++ fs) = s.history es ++ (s.after es).history fs := by
  induction es generalizing s with
  | nil => rfl
  | cons e es ih =>
    show (s, e) :: (s.next e).history (es ++ fs) = _
    rw [ih]
    rfl

/-- The history of a run that is one event longer. -/
theorem history_concat (s : Session) (es : List Event) (e : Event) :
    s.history (es ++ [e]) = s.history es ++ [(s.after es, e)] :=
  history_append s es [e]

/-- **What every event keeps holds after every run.** -/
theorem after_induction {P : Session → Prop} {s : Session} (start : P s)
    (step : ∀ t e, P t → P (t.next e)) (es : List Event) : P (s.after es) := by
  induction es generalizing s with
  | nil => exact start
  | cons e es ih => exact ih (step s e start)

/-! ## The fixed order is one of many -/

/-- **What the next turn of the fixed order is**: whoever acts goes on, or else a stretch or a round
begins. -/
inductive LeadsTo (s : Session) : Session → Prop
  | act {a : Actor} (acting : s.acting = some a) : LeadsTo s ({ s with acting := none }.act a)
  | stretch {a : Actor} {rest : List Actor} (idle : s.acting = none) (ready : s.ready = a :: rest) :
    LeadsTo s (s.beginStretch a rest)
  | round (idle : s.acting = none) (ends : s.stretches = roundLength ∨ s.yielded ≠ []) :
    LeadsTo s s.beginRound

theorem leadsTo_of_turn {s t : Session} (h : s.turn = some t) : s.LeadsTo t := by
  unfold turn at h
  split at h
  · next acting => exact Option.some.inj h ▸ .act acting
  · next idle ready =>
    rw [← Option.some.inj h]
    split
    · next full => exact .round idle (.inl full)
    · exact .stretch idle ready
  · next idle _ =>
    split at h
    · exact absurd h (by simp)
    · next gaveWay => exact Option.some.inj h ▸ .round idle (.inr gaveWay)

/-- There is no next turn only if nobody is due for one. -/
theorem idle_of_turn {s : Session} (h : s.turn = none) :
    s.acting = none ∧ s.ready = [] ∧ s.yielded = [] := by
  unfold turn at h
  split at h
  · exact absurd h (by simp)
  · exact absurd h (by simp)
  · next idle ready =>
    split at h
    · next yielded => exact ⟨idle, ready, yielded⟩
    · exact absurd h (by simp)

/-- A turn of the fixed order is a run in which nothing comes from outside. -/
theorem turn_eq_after {s t : Session} (h : s.turn = some t) :
    ∃ es, (∀ e ∈ es, e.isTurn = true) ∧ t = s.after es := by
  cases leadsTo_of_turn h with
  | @act a =>
    exact ⟨[.schedule s.ready none s.credit s.yielded s.stretches, .act a],
      by simp [Event.isTurn], rfl⟩
  | @stretch a rest =>
    exact ⟨[.schedule rest (some a) stretchCredit s.yielded (s.stretches + 1)],
      by simp [Event.isTurn], rfl⟩
  | round =>
    exact ⟨[.schedule (s.ready ++ s.yielded) s.acting s.credit [] 0], by simp [Event.isTurn], rfl⟩

theorem turns_eq_after (s : Session) (n : Nat) :
    ∃ es, (∀ e ∈ es, e.isTurn = true) ∧ s.turns n = s.after es := by
  induction n generalizing s with
  | zero => exact ⟨[], by simp, rfl⟩
  | succ n ih =>
    cases h : s.turn with
    | none => exact ⟨[], by simp, by rw [turns, h]; rfl⟩
    | some t =>
      obtain ⟨es, first, rfl⟩ := turn_eq_after h
      obtain ⟨fs, rest, hfs⟩ := ih (s.after es)
      refine ⟨es ++ fs, fun e member => ?_, by rw [turns, h, after_append]; exact hfs⟩
      exact (List.mem_append.mp member).elim (first e) (rest e)

/-- **Settling is a run** in which nothing comes from outside. -/
theorem settle_eq_after (s : Session) :
    ∃ es, (∀ e ∈ es, e.isTurn = true) ∧ s.settle = s.after es := by
  obtain ⟨es, turns, h⟩ :=
    turns_eq_after { s with stretches := 0 } (8 * (s.work + 1) * (s.population + 2))
  refine ⟨.schedule s.ready s.acting s.credit s.yielded 0 :: es, fun e member => ?_, h⟩
  rcases List.mem_cons.mp member with rfl | later
  · rfl
  · exact turns e later

end Session

end Cnc
