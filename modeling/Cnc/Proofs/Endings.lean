import Mathlib.Data.List.Induction
import Cnc.Proofs.Announcements

/-!
# How often the end of a job is told

The ends that were told of the job that was started last are the terminal
events since it was started (`endings`). As long as there is a job, its end
was not told (`Session.endings_after`); an event that ends the job tells so
once, and everything else tells of no end (`StreamerCore.Tells.endings`).
-/

namespace Cnc

/-- The ends that were told of the last job, after another event. -/
def noteEnding (ends : List JobEvent) : JobEvent → List JobEvent
  | .started _ => []
  | d => if d.isTerminal then ends ++ [d] else ends

/-- **The ends that were told of the job that was started last.** -/
def endings (log : List JobEvent) : List JobEvent := log.foldl noteEnding []

theorem endings_append (log told : List JobEvent) :
    endings (log ++ told) = told.foldl noteEnding (endings log) :=
  List.foldl_append

namespace StreamerCore

variable {m m' : StreamerCore} {told : List JobEvent}

/-- A state that is set tells of no end, unless it says that a job was stopped. -/
theorem foldl_shift (m : StreamerCore) {state : JobState} (other : state ≠ .stopped)
    (ends : List JobEvent) : (m.shift state).foldl noteEnding ends = ends := by
  unfold shift
  split
  · rfl
  · cases state with
    | stopped => exact absurd rfl other
    | _ => rfl

/-- **What is told of ends**: nothing while the job goes on, and one end when the job is dropped. -/
inductive Tolls (m m' : StreamerCore) (told : List JobEvent) : Prop
  | none (job : m'.job = m.job) (started : m'.started = m.started)
      (task : m'.task ≠ .none → m.task ≠ .none)
      (same : ∀ ends, told.foldl noteEnding ends = ends)
  | start {lines : List String} (begins : m.Begins m' lines)
      (announced : .started lines.length ∈ told)
      (clear : ∀ ends, told.foldl noteEnding ends = [])
  | one (d : JobEvent) (ends : m.Ends m') (first : d ∈ told)
      (cause : (∃ k, m.task = some k ∧ (d = .aborted ∨
          d = .completed k.job.lines.length ∧ k.stage = .ready ∧ k.job.lines.length ≤ k.cursor)) ∨
        d = .state .stopped)
      (one : ∀ before, told.foldl noteEnding before = before ++ [d])

theorem Tells.tolls (tells : m.Tells m' told) : m.Tolls m' told := by
  have finishes {d : JobEvent} (ends : m.Ends m')
      (terminal : ∀ before, noteEnding before d = before ++ [d]) (cause) :
      m.Tolls m' (d :: m.shift .idle) :=
    .one d ends List.mem_cons_self cause fun before => by
      rw [List.foldl_cons, m.foldl_shift (by simp), terminal]
  have remains (kept : m.Kept m') (some : m'.task ≠ none) : m.task ≠ none := by
    obtain ⟨k', task'⟩ := Option.ne_none_iff_exists'.mp some
    obtain ⟨k, task, -⟩ := kept.task k' task'
    simp [task]
  cases tells with
  | silent kept => exact .none kept.job kept.started (remains kept) fun _ => rfl
  | shift kept active =>
    refine .none kept.job kept.started (remains kept) (m.foldl_shift ?_)
    rintro stopped
    rw [stopped] at active
    exact absurd active (by simp)
  | fail kept _ reason =>
    refine .none kept.job kept.started (remains kept) fun ends => ?_
    rw [List.foldl_append, m.foldl_shift (by simp)]
    rfl
  | start begins => exact .start begins (by simp) fun _ => rfl
  | advance advances rejection =>
    refine .none advances.job advances.started (fun _ => by simp [advances.before]) fun ends => ?_
    cases rejection <;> rfl
  | complete ends task ready done =>
    exact finishes ends (fun _ => rfl) (.inl ⟨_, task, .inr ⟨rfl, ready, done⟩⟩)
  | abort ends task => exact finishes ends (fun _ => rfl) (.inl ⟨_, task, .inl rfl⟩)
  | stop ends => exact finishes ends (fun _ => rfl) (.inr rfl)

end StreamerCore

namespace Session

/-- **A call is about to stop the job.** -/
def StopPending (s : Session) : Prop := ∃ i st, s.stage? i = some st ∧ st.stops = true

/-- **While there is a job, its end was not told.** -/
theorem endings_after (timeout : Option Nat) (es : List Event)
    (job : ((initial timeout).after es).streamer.job ≠ none) :
    endings ((initial timeout).after es).streamer.events.log = [] := by
  induction es using List.reverseRecOn with
  | nil => exact absurd rfl job
  | append_singleton es e ih =>
    rw [after_append, after_cons, after_nil] at job ⊢
    obtain ⟨told, log, tells, -⟩ := next_announces ((initial timeout).after es) e
    rw [log, endings_append]
    cases tells.tolls with
    | none same _ _ quiet => rw [quiet, ih fun none => job (same.trans none)]
    | start _ _ clear => exact clear _
    | one _ ends => exact absurd ends.job job

end Session

end Cnc
