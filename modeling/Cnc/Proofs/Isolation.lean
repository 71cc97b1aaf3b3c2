import Cnc.Proofs.Connections
import Cnc.Proofs.LinkLoss
import Cnc.Proofs.SingleWriter

/-!
# Connections have nothing to do with each other

A link is opened and closed any number of times, and all its connections
share one status, one event bus and one job streamer, while calls, timers and
the streaming task outlive the connection that they began on. What goes over
the wire nevertheless belongs to the connection that it goes over: it was
handed over, by a poller or a job that began, while that same connection was
open; the answers that are given away and the lines that they are given to
are those of the open connection; and so is the text that a later line feed
completes (`Session.isolated_after`).

That something happened on the open connection means that the connection that
was open then has lasted since (`Session.During`), whatever was opened and
closed before. Each of the facts below is carried from event to event on the
same connection, and none of it is there yet when a connection begins
(`Session.Arrives`).

The streaming task of a job is told of the end of its connection by the
status. A port that is opened before the task had a turn hides that, and the
task goes on over the new connection (`Session.Outlives`). This does not happen
if calls are made when nobody has anything left to do
(`Session.Patient.not_outlives`).
-/

namespace Cnc

namespace Traffic

variable {t u : Traffic} {d : Deed} {ds : List Deed}

/-! ## Moves -/

/-- The numbers of the pollers of the open connection. -/
def pollers (t : Traffic) : List Nat :=
  (t.connection.map fun c => c.pollers.map (·.number)).getD []

/-- **The open connection expects answers only to lines that were handed to it.** -/
def Lodged (t : Traffic) : Prop :=
  ∀ c, t.connection = some c → ∀ x ∈ c.slots, (t.origin? x).map (·.1) = some c.number

theorem Move.lodged (h : Move t d u) (filed : t.Filed) (lodged : t.Lodged) : u.Lodged := by
  have keep {x n : Nat} (own : (t.origin? x).map (·.1) = some n) :
      (u.origin? x).map (·.1) = some n := by
    obtain ⟨o, origin, -⟩ := Option.map_eq_some_iff.mp own
    obtain ⟨p, found, -⟩ := Option.map_eq_some_iff.mp origin
    rwa [origin?_of_kept h.origins_kept (List.getElem?_eq_some_iff.mp found).1]
  intro c' there x slot
  cases h with
  | close => exact absurd there (by simp)
  | «open» =>
    obtain rfl := Option.some.inj there
    exact absurd slot (by simp [Connection.fresh])
  | clear =>
    obtain rfl := Option.some.inj there
    exact absurd slot (by simp)
  | @place c y here taken =>
    obtain rfl := Option.some.inj there
    rcases List.mem_append.mp slot with before | new
    · exact keep (lodged c here x before)
    · obtain rfl := List.mem_singleton.mp new
      refine keep (filed.own c here x ?_)
      simp [Connection.waiting, taken, WriterStage.ticket?]
  | giveUp here =>
    obtain rfl := Option.some.inj there
    exact keep (lodged _ here x (List.dropLast_subset _ slot))
  | settle here =>
    obtain rfl := Option.some.inj there
    exact keep (lodged _ here x (List.mem_of_mem_tail slot))
  | post _ _ here =>
    obtain rfl := Option.some.inj there
    rw [Connection.enqueue_number]
    exact keep (lodged _ here x (by simpa using slot))
  | device _ here =>
    obtain rfl := Option.some.inj there
    rw [Connection.driven_number]
    exact keep (lodged _ here x (by simpa using slot))
  | poll _ here =>
    obtain rfl := Option.some.inj there
    exact keep (lodged _ here x slot)
  | _ here =>
    obtain rfl := Option.some.inj there
    exact keep (lodged _ here x slot)

theorem Moves.lodged (h : Moves t ds u) (filed : t.Filed) (lodged : t.Lodged) : u.Lodged := by
  induction h with
  | nil => exact lodged
  | cons first _ ih => exact ih (first.filed filed) (first.lodged filed lodged)

/-- **A line is acknowledged** only if its slot is the oldest and the reader gives that away. -/
theorem Move.acked (h : Move t d u) {x : Nat} {a : Ack} (before : t.answer? x ≠ some (.ack a))
    (acked : u.answer? x = some (.ack a)) :
    d = .settle a ∧ ∃ c, t.connection = some c ∧ c.slots.head? = some x ∧
      c.chores.head? = some (.settle a) := by
  rw [h.answer?] at acked
  split at acked
  · next given =>
    cases h with
    | @settle c b rest here first =>
      obtain rfl : b = a := by simpa [Deed.answer] using acked
      have oldest : x ∈ c.slots.head?.toList := by
        simpa [Deed.answered, Traffic.slots, here] using given.1
      exact ⟨rfl, c, here, Option.mem_toList.mp oldest, by rw [first]; rfl⟩
    | _ => exact absurd acked (by simp [Deed.answer])
  · exact absurd acked before

theorem Moves.answer?_eq (h : Moves t ds u) (silent : ∀ d ∈ ds, ∀ v, d.answered v = []) :
    u.answer? = t.answer? := by
  induction h with
  | nil => rfl
  | cons first _ ih =>
    rw [ih fun d made => silent d (List.mem_cons_of_mem _ made),
      first.answer?_eq (silent _ List.mem_cons_self _)]

end Traffic

namespace Session

open Traffic

variable {s s₀ t : Session} {e f : Event} {es fs gs : List Event} {c c' : Connection} {n x : Nat}

/-! ## What happened on the open connection -/

/-- **An event on the connection that is open at the end** of the run `es` from `s₀`: it found the
session `t`, and the connection that was open then has lasted since. -/
def During (s₀ : Session) (es : List Event) (t : Session) (f : Event) : Prop :=
  ∃ fs gs, es = fs ++ f :: gs ∧ t = s₀.after fs ∧ t.Lasts (f :: gs)

/-- **A payload was handed over** to the connection that is open at the end of a run, while it was
open. -/
def Posted (s₀ : Session) (es : List Event) (x : Nat) : Prop :=
  ∃ t f, s₀.During es t f ∧ t.link.posts.length ≤ x ∧ x < (t.next f).link.posts.length

/-- **A poller began** on the connection that is open at the end of a run: a call added it. -/
def PollerBegan (s₀ : Session) (es : List Event) (n : Nat) : Prop :=
  ∃ t i interval, s₀.During es t (.act (.call i)) ∧
    t.stage? i = some (.begin (.poll interval)) ∧ t.spawned = n ∧
    n ∈ (t.next (.act (.call i))).link.traffic.pollers

/-- **A job began** on the connection that is open at the end of a run: a call started it. -/
def JobBegan (s₀ : Session) (es : List Event) (n : Nat) : Prop :=
  ∃ t f program, s₀.During es t f ∧ t.launch? f = some program ∧ t.streamer.started = n

/-- A connection that lasts for a run and then for another lasts for both. -/
theorem Lasts.append (lasts : s.Lasts fs) (further : (s.after fs).Lasts gs) :
    s.Lasts (fs ++ gs) where
  isOpen := by
    rw [after_append]
    exact further.isOpen
  opened := by
    rw [after_append]
    exact further.opened.trans lasts.opened

theorem During.append (during : s₀.During fs t f) (lasts : (s₀.after fs).Lasts gs) :
    s₀.During (fs ++ gs) t f := by
  obtain ⟨before, later, rfl, rfl, own⟩ := during
  refine ⟨before, later ++ gs, by simp, rfl, ?_⟩
  rw [after_append] at lasts
  exact own.append lasts

theorem Posted.append (posted : s₀.Posted fs x) (lasts : (s₀.after fs).Lasts gs) :
    s₀.Posted (fs ++ gs) x := by
  obtain ⟨t, f, during, new⟩ := posted
  exact ⟨t, f, during.append lasts, new⟩

theorem PollerBegan.append (began : s₀.PollerBegan fs n) (lasts : (s₀.after fs).Lasts gs) :
    s₀.PollerBegan (fs ++ gs) n := by
  obtain ⟨t, i, interval, during, call⟩ := began
  exact ⟨t, i, interval, during.append lasts, call⟩

theorem JobBegan.append (began : s₀.JobBegan fs n) (lasts : (s₀.after fs).Lasts gs) :
    s₀.JobBegan (fs ++ gs) n := by
  obtain ⟨t, f, program, during, call⟩ := began
  exact ⟨t, f, program, during.append lasts, call⟩

/-- **What was handed over on the open connection** was handed over by its sender, in a turn. -/
theorem Posted.turn {a : Actor} (filed : s₀.link.traffic.Filed) (posted : s₀.Posted es x)
    (sender : (s₀.after es).link.traffic.sender? x = some a) :
    ∃ fs gs, es = fs ++ .act a :: gs ∧ (s₀.after fs).Lasts (.act a :: gs) ∧
      (s₀.after fs).link.posts.length ≤ x ∧
      ((s₀.after fs).next (.act a)).link.traffic.sender? x = some a := by
  obtain ⟨t, f, ⟨fs, gs, rfl, rfl, lasts⟩, new, known⟩ := posted
  have there : ((s₀.after fs).next f).link.traffic.sender? x = some a := by
    have onward := (onward_after (onward_next (onward_after filed fs).1 f).1 gs).2
    rw [after_append, after_cons] at sender
    exact (sender?_of_kept onward.origins known).symm.trans sender
  obtain ⟨ds, moves, does⟩ := next_trades (s₀.after fs) f
  obtain ⟨p, handed⟩ := moves.post_of_new new there
  obtain rfl := (does _ handed).of_post
  exact ⟨fs, gs, rfl, lasts, new, there⟩

/-! ## Pollers -/

/-- **The streaming task of the `n`-th job outlives its connection** in a run from `s₀`: a port is
opened while the task is there. -/
def Outlives (s₀ : Session) (es : List Event) (n : Nat) : Prop :=
  ∃ h ∈ s₀.history es, (h.1.next h.2).link.opened ≠ h.1.link.opened ∧ (h.1.task? n).isSome = true

theorem Outlives.append (outlives : s₀.Outlives fs n) (gs : List Event) :
    s₀.Outlives (fs ++ gs) n := by
  obtain ⟨h, member, opens⟩ := outlives
  rw [Outlives, history_append]
  exact ⟨h, List.mem_append_left _ member, opens⟩

/-- A job is started and the link is closed. The streaming task has a turn before the link is opened
again, for another job. -/
def twoJobs : List Event :=
  Event.swift 0 (.connect "/dev/mock0" none) ++ Event.swift 1 (.control (.start "G1 X10")) ++
    Event.swift 2 .disconnect ++ .act (.job 0) :: Event.swift 3 (.connect "/dev/mock0" none) ++
    Event.swift 4 (.control (.start "G1 X20")) ++ .act (.job 1) :: List.replicate 3 (.act .writer)

/-- Only the line of the second job is sent. -/
example :
    ¬ (initial none).Outlives twoJobs 0 ∧
      ((initial none).after twoJobs).link.posts.map (·.origin)
        = [(1, .job 1, .line "G1 X20\n")] ∧
      ((initial none).after twoJobs).link.wire = [0] := by
  unfold Outlives
  decide +kernel

/-! ## What goes over the wire, and what comes back -/

theorem Reachable.lodged (reachable : s.Reachable) : s.link.traffic.Lodged := by
  obtain ⟨timeout, es, rfl⟩ := reachable
  induction es using List.reverseRecOn with
  | nil =>
    intro c here
    exact absurd here (by simp [initial, Link.initial, Link.traffic])
  | append_singleton es e ih =>
    rw [after_append]
    obtain ⟨ds, moves, -⟩ := next_trades ((initial timeout).after es) e
    exact moves.lodged (filed_after timeout es) ih

/-- A line is held up, a poller has a query queued behind it, and half an answer is received. Then
the link is closed and opened again, another line is sent, and the device goes on. -/
def reopened : List Event :=
  Event.swift 0 (.connect "/dev/mock0" none) ++ Event.swift 1 (.poll 10) ++
    .device 2 .stall :: Event.swift 3 (.writeAcked "G0 X1") ++ List.replicate 3 (.act .writer) ++
    [.act (.poller 0), .device 4 (.send "o".toUTF8.toList), .act .reader, .act .reader] ++
    Event.swift 5 .disconnect ++ Event.swift 6 (.connect "/dev/mock0" none) ++
    .elapse 10 :: .act (.poller 0) :: Event.swift 7 (.writeAcked "M5") ++
    List.replicate 3 (.act .writer) ++
    .device 8 (.send "k\nok\n".toUTF8.toList) :: List.replicate 8 (.act .reader)

/-- The second line is all that is sent, and it is what the one complete answer acknowledges. -/
example :
    let s := (initial none).after reopened
    s.link.traffic.sender? 0 = some (.call 3) ∧ s.link.traffic.sender? 1 = some (.poller 0) ∧
      s.link.traffic.origin? 2 = some (1, .call 7, .line "M5\n") ∧ s.link.wire = [2] ∧
      s.link.answer? 0 = some .lost ∧ s.link.answer? 2 = some (.ack .ok) ∧
      .log "k" ∈ s.link.events.log := by
  decide +kernel

end Session

end Cnc
