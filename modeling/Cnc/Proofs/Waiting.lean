import Cnc.Proofs.Streaming

/-!
# What actors wait for

`Session.Waits` says what each actor waits for when it has nothing to do. An
actor that waits does nothing when it has a turn, whatever its credit is and
whoever has the locks (`Session.Waits.act`).
-/

namespace Cnc.Session

/-- **What an actor waits for** that has nothing to do. -/
def Waits (s : Session) : Actor → Prop
  | .call i => match s.stage? i with
    | none => True
    | some (.turn _) => s.streamer.turns.head? ≠ some i
    | some (.sending x _) => s.link.delivery? x = none
    | some (.awaitingAnswer x) => s.link.answer? x = none
    | some .awaitingIdle => s.streamer.state ≠ .idle
    | some (.confirming _ sub deadline) =>
      s.now < deadline ∧ (s.link.events.receive sub).1 = none
    | some (.begin _) | some (.counting ..) | some (.lookingUp _) => False
  | .job n => match s.task? n with
    | none => True
    | some k => match k.stage with
      | .ready => k.job.lines[k.cursor]? ≠ none ∧ s.streamer.state ≠ .running
        ∧ s.streamer.state ≠ .idle ∧ s.link.status.state ≠ .disconnected
      | .sending x => s.link.delivery? x = none
      | .awaiting x deadline => s.link.answer? x = none ∧ s.streamer.state ≠ .idle
        ∧ deadline.any (· ≤ s.now) = false
  | .poller n => match s.poller? n with
    | none => True
    | some p => match p.sending with
      | none => s.now < p.due
      | some x => s.link.delivery? x = none
  | .refresher n => match s.refresher? n with
    | none => True
    | some r => match r.sending with
      | none => s.now < r.due
      | some x => s.link.delivery? x = none
  | .writer => match s.link.connection with
    | none => True
    | some c => match c.writer with
      | .idle => c.realtime = [] ∧ c.lines = []
      | .writing _ => c.stalled = true
      | .taken _ | .failed .. => False
  | .reader => match s.link.connection with
    | none => True
    | some c => c.chores = [] ∧ c.inbox = []

variable {s t : Session}

/-! ## One that waits does nothing -/

section Alike

theorem Alike.symm (h : s.Alike t) : t.Alike s :=
  ⟨h.1.symm, h.2.1.symm, h.2.2.1.symm, h.2.2.2.1.symm, h.2.2.2.2.1.symm, h.2.2.2.2.2.1.symm,
    h.2.2.2.2.2.2.symm⟩

theorem Alike.refl (s : Session) : s.Alike s := ⟨rfl, rfl, rfl, rfl, rfl, rfl, rfl⟩

theorem Alike.stage? (h : t.Alike s) (i : Nat) : t.stage? i = s.stage? i :=
  stage?_congr h.2.2.2.1 i

end Alike

/-- Sessions that are alike wait alike. -/
theorem Waits.of_alike {a : Actor} (alike : t.Alike s) (waits : s.Waits a) : t.Waits a := by
  obtain ⟨now, link, streamer, calls, refreshers, -, -⟩ := alike
  cases a <;>
    simpa only [Waits, stage?, task?, poller?, refresher?, now, link, streamer, calls, refreshers]
      using waits

theorem callTurn_of_waits {i : Nat} (waits : s.Waits (.call i)) : Alike (s.callTurn i) s := by
  unfold callTurn
  unfold Waits at waits
  cases stage : s.stage? i with
  | none => exact .refl s
  | some st =>
    cases st with
    | begin | counting | lookingUp => simp [stage] at waits
    | turn c =>
      simp only [stage] at waits
      simp only [if_neg waits]
      exact .refl s
    | sending x e | awaitingAnswer x =>
      simp only [stage] at waits
      simp only [waits]
      exact .refl s
    | awaitingIdle =>
      simp only [stage] at waits
      simp only [if_neg waits]
      exact .refl s
    | confirming key sub deadline =>
      simp only [stage] at waits
      have early : ¬ deadline ≤ s.now := Nat.not_le.mpr waits.1
      obtain ⟨events, silent⟩ : ∃ events, s.link.events.receive sub = (none, events) :=
        ⟨_, Prod.ext waits.2 rfl⟩
      simp only [confirmTurn, silent, if_neg early]
      split
      · exact alike_giveWay s _
      · exact .refl s

theorem jobTurn_of_waits {n : Nat} (waits : s.Waits (.job n)) : Alike (s.jobTurn n) s := by
  unfold jobTurn
  unfold Waits at waits
  cases task : s.task? n with
  | none => exact .refl s
  | some k =>
    simp only [task] at waits
    dsimp only [taskTurn]
    cases stage : k.stage with
    | ready =>
      simp only [stage] at waits
      obtain ⟨more, notRunning, notIdle, linked⟩ := waits
      dsimp only
      split
      · next none => exact absurd none more
      · unfold handOver
        split
        · next running => exact absurd running notRunning
        · next idle => exact absurd idle notIdle
        · rw [if_neg linked]
          exact .refl s
    | sending x =>
      simp only [stage] at waits
      simp only [waits]
      exact .refl s
    | awaiting x deadline =>
      simp only [stage] at waits
      obtain ⟨unanswered, notIdle, inTime⟩ := waits
      simp only [unanswered, if_neg notIdle, inTime]
      exact .refl s

theorem pollerTurn_of_waits {n : Nat} (waits : s.Waits (.poller n)) :
    Alike (s.pollerTurn n) s := by
  unfold pollerTurn
  unfold Waits at waits
  cases found : s.poller? n with
  | none => exact .refl s
  | some p =>
    simp only [found] at waits
    cases sending : p.sending with
    | none =>
      simp only [sending] at waits
      simp only [sending, if_neg (Nat.not_le.mpr waits)]
      exact .refl s
    | some x =>
      simp only [sending] at waits
      simp only [sending, waits]
      exact .refl s

theorem refresherTurn_of_waits {n : Nat} (waits : s.Waits (.refresher n)) :
    Alike (s.refresherTurn n) s := by
  unfold refresherTurn
  unfold Waits at waits
  cases found : s.refresher? n with
  | none => exact .refl s
  | some r =>
    simp only [found] at waits
    cases sending : r.sending with
    | none =>
      simp only [sending] at waits
      simp only [sending, if_neg (Nat.not_le.mpr waits)]
      exact .refl s
    | some x =>
      simp only [sending] at waits
      simp only [sending, waits]
      exact .refl s

theorem writerTurn_of_waits (waits : s.Waits .writer) : Alike s.writerTurn s := by
  unfold writerTurn
  unfold Waits at waits
  cases here : s.link.connection with
  | none => exact .refl s
  | some c =>
    simp only [here] at waits
    cases stage : c.writer with
    | idle =>
      simp only [stage] at waits
      simp only [stage, takePayload, waits]
      split
      · exact alike_giveWay s _
      · exact .refl s
    | writing x =>
      simp only [stage] at waits
      simp only [stage, waits, if_true]
      exact .refl s
    | taken | failed => simp [stage] at waits

theorem readerTurn_of_waits (waits : s.Waits .reader) : Alike s.readerTurn s := by
  unfold readerTurn
  unfold Waits at waits
  cases here : s.link.connection with
  | none => exact .refl s
  | some c =>
    simp only [here] at waits
    simp only [waits]
    exact .refl s

/-- **One that waits does nothing**, whatever its credit is and whoever has the locks. -/
theorem Waits.act {a : Actor} (waits : s.Waits a) : Alike (s.act a) s := by
  cases a with
  | call i => exact callTurn_of_waits waits
  | job n => exact jobTurn_of_waits waits
  | poller n => exact pollerTurn_of_waits waits
  | refresher n => exact refresherTurn_of_waits waits
  | writer => exact writerTurn_of_waits waits
  | reader => exact readerTurn_of_waits waits

/-- Where nothing is streamed, no streaming task has anything to do. -/
theorem waits_of_no_task (none : s.streamer.task = none) (n : Nat) : s.Waits (.job n) := by
  simp [Waits, task?, none]

/-- Where the job is held, no streaming task has anything to do. -/
theorem waits_of_held {k : StreamTask} (task : s.streamer.task = some k) (ready : k.stage = .ready)
    (more : k.job.lines[k.cursor]? ≠ none) (state : s.streamer.state = .paused)
    (linked : s.link.status.state ≠ .disconnected) (n : Nat) : s.Waits (.job n) := by
  by_cases own : k.job.number = n
  · simp only [Waits, ← own, task?, task, Option.filter_some, decide_true, if_true, ready, state]
    exact ⟨more, by simp, by simp, linked⟩
  · simp [Waits, task?, task, Option.filter_some, own]

end Cnc.Session
