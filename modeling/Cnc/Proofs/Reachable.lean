import Cnc.Proofs.Awaited
import Cnc.Proofs.Endings

/-!
# Sessions that can be reached

A session can be reached if a run of a new one leaves it
(`Session.Reachable`). The invariants of runs hold in every such session, and
runs that go on from there reach only such sessions again.
-/

namespace Cnc.Session

/-- **A session that a run of a new one leaves.** -/
def Reachable (s : Session) : Prop := ∃ timeout es, s = (initial timeout).after es

namespace Reachable

open Traffic

variable {s : Session} (reachable : s.Reachable)

theorem of_run (timeout : Option Nat) (es : List Event) : ((initial timeout).after es).Reachable :=
  ⟨timeout, es, rfl⟩

include reachable

theorem after (fs : List Event) : (s.after fs).Reachable := by
  obtain ⟨timeout, es, rfl⟩ := reachable
  exact ⟨timeout, es ++ fs, (after_append ..).symm⟩

theorem next (e : Event) : (s.next e).Reachable := reachable.after [e]

theorem filed : s.link.traffic.Filed := by
  obtain ⟨timeout, es, rfl⟩ := reachable
  exact filed_after timeout es

theorem slotted : s.link.traffic.Slotted := by
  obtain ⟨timeout, es, rfl⟩ := reachable
  exact (slotted_after (filed_initial timeout) (slotted_initial timeout) es).1

theorem carrying : s.Carrying := by
  obtain ⟨timeout, es, rfl⟩ := reachable
  exact carrying_after (filed_initial timeout) (carrying_initial timeout) es

theorem governed : Governed s.stage? s.streamer.core := by
  obtain ⟨timeout, es, rfl⟩ := reachable
  exact governed_after timeout es

theorem kempt : s.streamer.core.Kempt s.Stopping := by
  obtain ⟨timeout, es, rfl⟩ := reachable
  exact kempt_after timeout es

theorem assigned : s.Assigned := by
  obtain ⟨timeout, es, rfl⟩ := reachable
  exact assigned_after timeout es

/-- **Nobody has anything to do** exactly if everybody waits. -/
theorem quiescent_iff : s.Quiescent ↔ ∀ a, s.Waits a := by
  obtain ⟨timeout, es, rfl⟩ := reachable
  exact (locked_after timeout es).quiescent_iff

/-- A session in which all is done is quiescent. -/
theorem quiescent_of_rest
    (rest : (s.calls, s.streamer.task, s.refreshers, s.linkIdle) = ([], none, [], true)) :
    s.Quiescent := by
  obtain ⟨timeout, es, rfl⟩ := reachable
  simp only [Prod.mk.injEq] at rest
  exact quiescent_of_done (locked_after timeout es) rest.1 (waits_of_no_task rest.2.1) rest.2.2.1
    rest.2.2.2

/-- A streamer that stops a job is not idle. -/
theorem active (stopping : s.Stopping) : s.streamer.core.state ≠ .idle := by
  obtain ⟨timeout, es, rfl⟩ := reachable
  exact active_after timeout es stopping

/-- No end is told while there is a job. -/
theorem untold {j : Job} (job : s.streamer.job = some j) : endings s.streamer.events.log = [] := by
  obtain ⟨timeout, es, rfl⟩ := reachable
  exact endings_after timeout es (by rw [job]; simp)

/-- What jobs hand over are lines. -/
theorem isLine {n x : Nat} (sender : s.link.traffic.sender? x = some (.job n)) :
    s.link.traffic.isLine x = true := by
  obtain ⟨timeout, es, rfl⟩ := reachable
  exact line_of_job timeout es sender

/-- **A line that went over the wire and is not answered** has its place among the expected
answers. -/
theorem mem_slots {x : Nat} (line : s.link.traffic.isLine x = true) (sent : x ∈ s.link.wire)
    (unanswered : s.link.answer? x = none) : x ∈ s.link.traffic.slots := by
  have placed : x ∈ s.link.traffic.placed :=
    List.mem_append_left _ (List.mem_filter.mpr ⟨sent, line⟩)
  rw [reachable.slotted.slots, List.mem_filter]
  exact ⟨placed, Option.isNone_iff_eq_none.mpr unanswered⟩

/-- So has a line that the task waits for, when it was sent. -/
theorem slot_of_unanswered {k : StreamTask} {x : Nat} (task : s.streamer.task = some k)
    (ticket : k.stage.ticket? = some x) (sent : s.link.delivery? x = some .sent)
    (unanswered : s.link.answer? x = none) : x ∈ s.link.traffic.slots :=
  reachable.mem_slots (reachable.isLine (reachable.assigned.sender k x task ticket))
    (reachable.filed.sent x sent) unanswered

end Reachable

end Cnc.Session
