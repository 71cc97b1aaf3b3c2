import Mathlib.Data.List.Basic
import Cnc.Session.Run

/-!
# What scheduling leaves alone

Waking an actor, giving way and handing on a lock decide who acts next and
nothing else: the time, the link, the job streamer, the host calls and the
refreshers stay as they are. Two sessions that differ at most in who acts
next are `Session.Alike`, and every operation on the queue, the credit and
the locks leaves a session alike.

The locks come in through `Session.use`, which either gets nothing done or
does all that was to be done (`Session.use_cases`). What a turn does can
therefore be read off as if the actor were alone.
-/

namespace Cnc.Session

/-- **Two sessions that differ at most in who acts next.** -/
abbrev Alike (s t : Session) : Prop :=
  s.now = t.now ∧ s.link = t.link ∧ s.streamer = t.streamer ∧ s.calls = t.calls
    ∧ s.refreshers = t.refreshers ∧ s.spawned = t.spawned ∧ s.results = t.results

theorem Alike.trans {s t u : Session} (h : s.Alike t) (k : t.Alike u) : s.Alike u := by
  obtain ⟨h₁, h₂, h₃, h₄, h₅, h₆, h₇⟩ := h
  obtain ⟨k₁, k₂, k₃, k₄, k₅, k₆, k₇⟩ := k
  exact ⟨h₁.trans k₁, h₂.trans k₂, h₃.trans k₃, h₄.trans k₄, h₅.trans k₅, h₆.trans k₆,
    h₇.trans k₇⟩

/-! ## Waking, credit and locks -/

@[simp] theorem alike_wake (s : Session) (a : Actor) : Alike (s.wake a) s := by
  unfold wake
  split
  · exact ⟨rfl, rfl, rfl, rfl, rfl, rfl, rfl⟩
  · exact ⟨rfl, rfl, rfl, rfl, rfl, rfl, rfl⟩

@[simp] theorem alike_wakeAll (s : Session) (as : List Actor) : Alike (s.wakeAll as) s := by
  unfold wakeAll
  induction as generalizing s with
  | nil => exact ⟨rfl, rfl, rfl, rfl, rfl, rfl, rfl⟩
  | cons a as ih => exact (ih (s.wake a)).trans (alike_wake s a)

@[simp] theorem alike_again (s : Session) (a : Actor) : Alike (s.again a) s :=
  ⟨rfl, rfl, rfl, rfl, rfl, rfl, rfl⟩

@[simp] theorem alike_spend (s : Session) : Alike s.spend s :=
  ⟨rfl, rfl, rfl, rfl, rfl, rfl, rfl⟩

@[simp] theorem alike_giveWay (s : Session) (a : Actor) : Alike (s.giveWay a) s :=
  ⟨rfl, rfl, rfl, rfl, rfl, rfl, rfl⟩

@[simp] theorem alike_leave (s : Session) (g : Guarded) : Alike (s.leave g) s :=
  (alike_wakeAll _ _).trans ⟨rfl, rfl, rfl, rfl, rfl, rfl, rfl⟩

@[simp] theorem alike_forget (s : Session) (a : Actor) : Alike (s.forget a) s :=
  (alike_wakeAll _ _).trans ⟨rfl, rfl, rfl, rfl, rfl, rfl, rfl⟩

/-- **Using a guarded part is all or nothing.** An actor that does not get the lock, or has no
credit, changes nothing but who acts next; one that gets through does what is to be done. -/
theorem use_cases (s : Session) (a : Actor) (g : Guarded) (inside after : Session → Session) :
    Alike (s.use a g inside after) s
      ∨ ∃ s' : Session, Alike s' s ∧ s.use a g inside after = after ((inside s').leave g) := by
  unfold use
  dsimp only
  split
  · exact .inl ⟨rfl, rfl, rfl, rfl, rfl, rfl, rfl⟩
  · split
    · exact .inl ⟨rfl, rfl, rfl, rfl, rfl, rfl, rfl⟩
    · refine .inr ⟨_, ?_, rfl⟩
      exact ⟨rfl, rfl, rfl, rfl, rfl, rfl, rfl⟩

/-- **Using a guarded part keeps** what scheduling leaves alone, if what is to be done there and
what comes after keep it. -/
theorem use_keeps {β : Type} (f : Session → β) (respects : ∀ {s t : Session}, Alike s t → f s = f t)
    {s : Session} {a : Actor} {g : Guarded} {inside after : Session → Session}
    (within : ∀ u, f (inside u) = f u) (later : ∀ u, f (after u) = f u) :
    f (s.use a g inside after) = f s := by
  rcases use_cases s a g inside after with h | ⟨u, hu, h⟩
  · exact respects h
  · rw [h, later, respects (alike_leave _ g), within, respects hu]

end Cnc.Session
