import Mathlib.Data.List.Induction
import Cnc.Proofs.Outlook
import Cnc.Proofs.Reachable

/-!
# When something happens in a run

The time of a session changes only when time passes, so every event of a run
has its time. `Session.since?` is the time of the event after which something
first holds, and what events keep holds from then on (`Session.of_since?`).
Three such moments matter to a line: it goes over the wire, its sender learns
of that, and it is acknowledged.
-/

namespace Cnc

namespace Traffic

variable {t u : Traffic} {ds : List Deed} {x : Nat}

/-- **What has just been sent** was not on the wire before. -/
theorem Moves.sends (h : Moves t ds u) (filed : t.Filed) (before : t.delivery? x = none)
    (sent : u.delivery? x = some .sent) : x ∉ t.wire ∧ .send x ∈ ds := by
  induction h with
  | nil => exact absurd (before.symm.trans sent) (by simp)
  | @cons t v u d ds first rest ih =>
    have onward := rest.onward (first.filed filed)
    cases told : v.delivery? x with
    | none =>
      obtain ⟨new, sends⟩ := ih (first.filed filed) told sent
      exact ⟨fun old => new (first.wire_kept.mem old), List.mem_cons_of_mem _ sends⟩
    | some f =>
      obtain rfl := Option.some.inj ((onward.2.told x f told).symm.trans sent)
      rcases first.delivered told with same | ⟨-, ⟨-, rfl⟩ | ⟨_, failed, -⟩ | ⟨lost, -⟩⟩
      · exact absurd (before.symm.trans same) (by simp)
      · refine ⟨filed.not_mem_wire ?_, List.mem_cons_self⟩
        cases first with
        | send here writing => simp [unsent, here, writing, WriterStage.unsent?]
      · exact absurd failed (by simp)
      · exact absurd lost (by simp)

end Traffic

namespace Session

open Traffic

variable {s : Session} {e : Event} {es fs : List Event} {p : Session → Bool} {n w x : Nat}

/-- **When something first holds in a run**: the time of the event that brings it about. -/
def since? (s : Session) (es : List Event) (p : Session → Bool) : Option Nat :=
  ((s.history es).find? fun h => p (h.1.next h.2)).map (·.1.now)

/-- When a payload goes over the wire in a run. -/
def sentAt? (s : Session) (es : List Event) (x : Nat) : Option Nat :=
  s.since? es fun t => x ∈ t.link.wire

/-- When a line is acknowledged in a run. -/
def ackedAt? (s : Session) (es : List Event) (x : Nat) : Option Nat :=
  s.since? es fun t => match t.link.answer? x with
    | some (.ack _) => true
    | _ => false

/-- When the task of the `n`-th job learns in a run that its line was sent. -/
def learnedAt? (s : Session) (es : List Event) (n x : Nat) : Option Nat :=
  s.since? es fun t => t.awaitsAnswer (.job n) x

theorem since?_concat (s : Session) (es : List Event) (e : Event) (p : Session → Bool) :
    s.since? (es ++ [e]) p
      = (s.since? es p).or (if p (s.after (es ++ [e])) then some (s.after es).now else none) := by
  have last : s.after (es ++ [e]) = (s.after es).next e := after_append s es [e]
  rw [since?, history_concat, List.find?_append, since?, last]
  cases (s.history es).find? fun h => p (h.1.next h.2) with
  | some h => rfl
  | none =>
    cases holds : p ((s.after es).next e) <;> simp [holds]

/-- What has happened in a run has happened when the run goes on. -/
theorem since?_of_initial (first : fs <+: es) (before : s.since? fs p = some w) :
    s.since? es p = some w := by
  obtain ⟨gs, rfl⟩ := first
  obtain ⟨h, found, time⟩ := Option.map_eq_some_iff.mp before
  rw [since?, history_append, List.find?_append, found]
  exact congrArg some time

theorem since?_of_not (never : p (s.after (es ++ [e])) = false) :
    s.since? (es ++ [e]) p = s.since? es p := by
  rw [since?_concat, never]
  exact Option.or_none

/-- What has happened in a run happened before its last event, or in it. -/
theorem since?_concat_cases (happened : s.since? (es ++ [e]) p = some w) :
    s.since? es p = some w ∨
      s.since? es p = none ∧ w = (s.after es).now ∧ p (s.after (es ++ [e])) = true := by
  rw [since?_concat] at happened
  cases before : s.since? es p with
  | some w' => exact .inl (by rwa [before, Option.some_or] at happened)
  | none =>
    rw [before, Option.none_or] at happened
    obtain ⟨holds, time⟩ := Option.ite_none_right_eq_some.mp happened
    exact .inr ⟨rfl, (Option.some.inj time).symm, holds⟩

/-- What something brings about lasts, if events keep it. -/
theorem of_since? {Q : Session → Prop}
    (gives : ∀ fs, p (s.after fs) = true → Q (s.after fs))
    (stays : ∀ fs e, Q (s.after fs) → Q (s.after (fs ++ [e])))
    (happened : s.since? es p = some w) : Q (s.after es) := by
  induction es using List.reverseRecOn with
  | nil => exact absurd happened (by simp [since?])
  | append_singleton es e ih =>
    rcases since?_concat_cases happened with before | ⟨-, -, holds⟩
    · exact stays es e (ih before)
    · exact gives _ holds

/-- Only time that passes changes the time. -/
theorem next_time (s : Session) (e : Event) :
    (s.next e).now = s.now ∨ ∃ time, e = .elapse time := by
  cases e with
  | elapse time => exact .inr ⟨time, rfl⟩
  | act a => exact .inl (act_now s a)
  | schedule | observe => exact .inl rfl
  | call i c =>
    left
    show Session.now (if _ then _ else _) = _
    split
    · rfl
    · exact (alike_wake _ _).1
  | device i d =>
    left
    show Session.now (if _ then _ else _) = _
    split
    · rfl
    · unfold deviceAct
      split
      · rfl
      · cases d with
        | send | hangUp | failRead | unstall => exact (alike_wake _ _).1
        | _ => rfl

theorem now_le_next (s : Session) (e : Event) : s.now ≤ (s.next e).now := by
  rcases next_time s e with same | ⟨time, rfl⟩
  · exact Nat.le_of_eq same.symm
  · exact Nat.le_add_right _ _

theorem Reachable.mem_wire_of_sentAt? (reachable : s.Reachable)
    (happened : s.sentAt? es x = some w) : x ∈ (s.after es).link.wire := by
  refine of_since? (Q := fun t => x ∈ t.link.wire) (fun fs holds => of_decide_eq_true holds)
    (fun fs e member => ?_) happened
  rw [after_append]
  exact (onward_next (reachable.after fs).filed e).2.wire.mem member

/-- **A payload that has just been sent** went over the wire in this event, the writer's. -/
theorem Reachable.sentAt?_of_delivered (reachable : s.Reachable)
    (before : (s.after es).link.delivery? x = none)
    (sent : (s.after (es ++ [e])).link.delivery? x = some .sent) :
    e = .act .writer ∧ s.sentAt? (es ++ [e]) x = some (s.after es).now := by
  have filed := (reachable.after es).filed
  obtain ⟨ds, moves, does⟩ := next_trades (s.after es) e
  rw [after_append, after_cons, after_nil] at sent
  obtain ⟨new, sends⟩ := moves.sends filed before sent
  refine ⟨?_, ?_⟩
  · cases does _ sends with
    | write => rfl
  · have unsent : s.since? es (fun t => x ∈ t.link.wire) = none :=
      Option.eq_none_iff_forall_ne_some.mpr fun w happened =>
        new (reachable.mem_wire_of_sentAt? happened)
    have wired : x ∈ ((s.after es).next e).link.wire :=
      (onward_next filed e).1.sent x sent
    rw [sentAt?, since?_concat, unsent, Option.none_or, after_append, after_cons, after_nil]
    simp [wired]

/-- The task of the `n`-th job expects the answer to the line `x`. -/
theorem awaitsAnswer_job_iff : s.awaitsAnswer (.job n) x = true ↔
    ∃ k deadline, s.streamer.task = some k ∧ k.job.number = n ∧ k.stage = .awaiting x deadline := by
  unfold awaitsAnswer task?
  constructor
  · intro awaits
    obtain ⟨k, found, own⟩ := (Option.any_eq_true _ _).mp awaits
    obtain ⟨task, number⟩ := Option.filter_eq_some_iff.mp found
    split at own
    · next y deadline stage =>
      exact ⟨k, deadline, task, by simpa using number, by rw [stage, of_decide_eq_true own]⟩
    · exact absurd own (by simp)
  · rintro ⟨k, deadline, task, rfl, stage⟩
    simp [task, stage]

section Moments

variable {timeout : Option Nat}

theorem mem_wire_of_sentAt? (happened : (initial timeout).sentAt? es x = some w) :
    x ∈ ((initial timeout).after es).link.wire :=
  (Reachable.of_run timeout []).mem_wire_of_sentAt? happened

/-- A task that waits to know whether its line was sent has not learned it. -/
theorem learnedAt?_of_sending {k : StreamTask} (task : (s.after (es ++ [e])).streamer.task = some k)
    (stage : k.stage = .sending x) (n : Nat) :
    s.learnedAt? (es ++ [e]) n x = s.learnedAt? es n x := by
  refine since?_of_not (Bool.not_eq_true _ ▸ fun awaits => ?_)
  obtain ⟨k', deadline, own, -, stage'⟩ := awaitsAnswer_job_iff.mp awaits
  rw [← Option.some.inj (task.symm.trans own), stage] at stage'
  exact absurd stage' (by simp)

end Moments

end Session

end Cnc
