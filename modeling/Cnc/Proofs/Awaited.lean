import Cnc.Proofs.Coherence
import Cnc.Proofs.Stopping

/-!
# What is waited for when nobody has anything to do

The streaming task waits for a line of its own job (`Session.Assigned`). When
everybody waits, a payload whose sender does not know yet what became of it
is held up by a device that takes no bytes, and a line that was sent and has
lost its answer is waited for by nobody.
-/

namespace Cnc

/-- The ticket of the line that a streaming task waits for. -/
def StreamStage.ticket? : StreamStage → Option Nat
  | .ready => none
  | .sending x | .awaiting x _ => some x

namespace Session

open Traffic

variable {s t : Session} {e : Event}

/-- **The task waits for a line that it handed over**, and for its answer when the line was sent. -/
structure Assigned (s : Session) : Prop where
  sender : ∀ k x, s.streamer.core.task = some k → k.stage.ticket? = some x →
    s.link.traffic.sender? x = some (.job k.job.number)
  sent : ∀ k x deadline, s.streamer.core.task = some k → k.stage = .awaiting x deadline →
    s.link.traffic.delivery? x = some .sent

/-- The task goes on waiting for what it waited for. -/
theorem Assigned.onward (assigned : s.Assigned) (onward : s.link.traffic.Onward t.link.traffic)
    (task : t.streamer.core.task = none ∨ t.streamer.core.task = s.streamer.core.task) :
    t.Assigned := by
  constructor
  · intro k x own stage
    rcases task with none | same
    · exact absurd (none.symm.trans own) (by simp)
    · have sender := assigned.sender k x (same ▸ own) stage
      rw [sender?_of_kept onward.origins (known_of_sender? sender), sender]
  · intro k x deadline own stage
    rcases task with none | same
    · exact absurd (none.symm.trans own) (by simp)
    · exact onward.told x .sent (assigned.sent k x deadline (same ▸ own) stage)

/-- The task has not handed a line over. -/
theorem Assigned.of_ready (ready : ∀ k, t.streamer.core.task = some k → k.stage = .ready) :
    t.Assigned where
  sender k x own stage := by
    rw [ready k own] at stage
    exact absurd stage (by simp [StreamStage.ticket?])
  sent k x deadline own stage := by
    rw [ready k own] at stage
    exact absurd stage (by simp)

/-- The task waits for a certain line. -/
theorem Assigned.of_task {k : StreamTask} (task : t.streamer.core.task = some k)
    (sender : ∀ x, k.stage.ticket? = some x →
      t.link.traffic.sender? x = some (.job k.job.number))
    (sent : ∀ x deadline, k.stage = .awaiting x deadline →
      t.link.traffic.delivery? x = some .sent) : t.Assigned where
  sender k' x own stage := by
    obtain rfl := Option.some.inj (task.symm.trans own)
    exact sender x stage
  sent k' x deadline own stage := by
    obtain rfl := Option.some.inj (task.symm.trans own)
    exact sent x deadline stage

theorem next_assigned (filed : s.link.traffic.Filed) (assigned : s.Assigned) (e : Event) :
    (s.next e).Assigned := by
  have onward := (onward_next filed e).2
  have steps := next_steps s e
  generalize s.next e = t at onward steps
  cases steps with
  | call handles =>
    rcases handles.1.jobs with ⟨program, turns, -, -, core⟩ | ⟨-, task, -⟩
    · refine .of_ready fun k own => ?_
      rw [core] at own
      obtain rfl := Option.some.inj own
      rfl
    · exact assigned.onward onward task
  | gone | begin _ _ _ _ core | aside _ _ core =>
    exact assigned.onward onward (.inr (by first | rfl | rw [core]))
  | @stream k _ task streams =>
    have own : s.streamer.core.task = some k := task
    generalize after : t.streamer.core = m at streams
    generalize v : t.link.traffic = u at streams onward
    cases streams with
    | wait => exact assigned.onward (v ▸ onward) (.inr (by rw [after]))
    | conclude | vanish =>
      refine .of_ready fun k' own' => ?_
      rw [after] at own'
      exact absurd own' (by simp)
    | retry | advance =>
      refine .of_ready fun k' own' => ?_
      rw [after] at own'
      obtain rfl := Option.some.inj own'
      rfl
    | @hand c line here =>
      refine .of_task (by rw [after]) (fun x stage => ?_) (fun x deadline stage => ?_)
      · obtain rfl := Option.some.inj stage
        rw [v]
        simp [Traffic.sender?]
      · exact absurd stage (by simp)
    | @sent x deadline stage sent =>
      have sender := assigned.sender k x own (by rw [stage]; rfl)
      refine .of_task (by rw [after]) (fun y stage' => ?_) (fun y deadline' stage' => ?_)
      · obtain rfl := Option.some.inj stage'
        rwa [v]
      · obtain ⟨rfl, -⟩ := StreamStage.awaiting.inj stage'
        rwa [v]
    | @late x deadline noAck stage =>
      have sender := assigned.sender k x own (by rw [stage]; rfl)
      have sent := assigned.sent k x deadline own stage
      refine .of_task (by rw [after]) (fun y stage' => ?_) (fun y deadline' stage' => ?_)
      · obtain rfl := Option.some.inj stage'
        rwa [v]
      · obtain ⟨rfl, -⟩ := StreamStage.awaiting.inj stage'
        rwa [v]

theorem assigned_after (timeout : Option Nat) (es : List Event) :
    ((initial timeout).after es).Assigned := by
  induction es using List.reverseRecOn with
  | nil =>
    exact .of_ready fun k own => absurd own (by simp [initial, Streamer.initial, Streamer.core])
  | append_singleton es e ih =>
    rw [after_append, after_cons, after_nil]
    exact next_assigned (filed_after timeout es) ih e

/-! ## When everybody waits -/

/-- **A payload that waits is held up by the device**, when everybody waits. -/
theorem stalled_of_undelivered (waits : s.Waits .writer) (filed : s.link.traffic.Filed) {x : Nat}
    (known : x < s.link.posts.length) (undelivered : s.link.delivery? x = none) :
    ∃ c, s.link.connection = some c ∧ c.stalled = true := by
  have waiting := filed.waiting_of_undelivered known undelivered
  unfold Traffic.waiting at waiting
  cases here : s.link.connection with
  | none => simp [Link.traffic, here] at waiting
  | some c =>
    refine ⟨c, rfl, ?_⟩
    have mem : x ∈ c.waiting := by simpa [Link.traffic, here] using waiting
    simp only [Waits, here] at waits
    cases stage : c.writer with
    | idle =>
      simp only [stage] at waits
      simp [Connection.waiting, WriterStage.ticket?, stage, waits] at mem
    | writing y => simpa only [stage] using waits
    | taken | failed => simp only [stage] at waits

/-- A call that waits for what became of its payload is held up by the device. -/
theorem stalled_of_sending (waits : ∀ a, s.Waits a) (filed : s.link.traffic.Filed)
    (carrying : s.Carrying) {i x : Nat} {errand : Errand}
    (stage : s.stage? i = some (.sending x errand)) :
    ∃ c, s.link.connection = some c ∧ c.stalled = true := by
  have undelivered := waits (.call i)
  simp only [Waits, stage] at undelivered
  obtain ⟨n, p, origin, -⟩ := carrying i x errand stage
  obtain ⟨q, found, -⟩ := Option.map_eq_some_iff.mp origin
  have known := (List.getElem?_eq_some_iff.mp found).1
  exact stalled_of_undelivered (waits .writer) filed known undelivered

/-- **A call that stops a job is held up by the device**, when everybody waits. -/
theorem stalled_of_stopping (waits : ∀ a, s.Waits a) (filed : s.link.traffic.Filed)
    (carrying : s.Carrying) (stopping : s.Stopping) :
    ∃ c, s.link.connection = some c ∧ c.stalled = true := by
  obtain ⟨i, st, stage, stop⟩ := stopping
  cases st with
  | sending x errand => exact stalled_of_sending waits filed carrying stage
  | counting x errand =>
    have never := waits (.call i)
    simp only [Waits, stage] at never
  | _ => exact absurd stop (by simp [CallStage.errand?])

end Session

end Cnc
