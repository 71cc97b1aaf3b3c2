import Cnc.Proofs.Errands
import Cnc.Proofs.Jobs

/-!
# What is left of a stopped job

A call that stops a job ends the streaming task and hands over a soft reset,
which goes over the wire before every line that still waits in the queue.
The task hands no line over any more, but the one that it handed over last
may be in the queue. That line stays there, and goes over the wire behind the
reset when its time comes (`Session.stop_boundary`). Nothing else of the job
does.
-/

namespace Cnc

open Traffic

/-- Only the writer brings payloads to the wire. -/
theorem Traffic.Moves.wire_of_quiet {t u : Traffic} {ds : List Deed} (h : Moves t ds u)
    (quiet : ∀ d ∈ ds, d.byWriter = false) : u.wire = t.wire := by
  induction h with
  | nil => rfl
  | cons first _ ih =>
    rw [ih fun d hd => quiet d (List.mem_cons_of_mem _ hd)]
    rcases first.wire with same | ⟨x, -, -, rfl | rfl⟩
    · exact same
    · exact absurd (quiet _ List.mem_cons_self) (by simp [Deed.byWriter])
    · exact absurd (quiet _ List.mem_cons_self) (by simp [Deed.byWriter])

/-- **The lines behind a realtime command** that the writer was writing at some moment are those
that waited in the queue then and have been sent since. -/
theorem Traffic.Onward.behind {t u : Traffic} (h : t.Onward u) (filed : t.Filed) (filed' : u.Filed)
    {r x : Nat} {later : List Nat} (unsent : t.unsent = [r]) (realtime : t.isLine r = false)
    (wire : u.wire = t.wire ++ r :: later) (known : x < t.posts.length) (line : u.isLine x = true) :
    x ∈ later ↔ x ∈ t.queue true ∧ x ∈ u.wire := by
  have isLine : t.isLine x = true := (isLine_of_kept h.origins known).symm.trans line
  have course : t.course true = t.wire.filter t.isLine ++ t.queue true := by
    simp [Traffic.course, unsent, realtime]
  constructor
  · intro behind
    have sent : x ∈ u.wire := by simp [wire, behind]
    refine ⟨?_, sent⟩
    obtain ⟨new, kept, fresh⟩ := h.course true
    have onCourse : x ∈ u.course true := by simp [Traffic.course, sent, line]
    rcases List.mem_append.mp (kept.subset onCourse) with before | beyond
    · rw [course] at before
      refine (List.mem_append.mp before).resolve_left fun early => ?_
      -- no line goes over the wire twice
      have ascending := filed'.ascending true
      rw [Traffic.course, List.filter_append, List.append_assoc, wire, List.filter_append,
        List.append_assoc] at ascending
      have apart := (List.pairwise_append.mp ascending).2.2
      exact Nat.lt_irrefl x (apart x (by simp [List.mem_of_mem_filter early, line]) x
        (by simp [behind, line]))
    · exact absurd (fresh x beyond) (Nat.not_le_of_lt known)
  · rintro ⟨queued, sent⟩
    rw [wire, List.mem_append, List.mem_cons] at sent
    rcases sent with early | rfl | behind
    · have ascending := filed.ascending true
      rw [course] at ascending
      have apart := (List.pairwise_append.mp ascending).2.2
      exact absurd (apart x (by simp [early, isLine]) x queued) (Nat.lt_irrefl x)
    · exact absurd (realtime.symm.trans isLine) (by simp)
    · exact behind

namespace Session

variable {s : Session} {e : Event} {n : Nat}

/-! ## A job that is streamed no more -/

/-- **A job is streamed no more**: what is streamed, now or later, is a job that was started after
it. -/
structure Retired (s : Session) (n : Nat) : Prop where
  started : n < s.streamer.core.started
  later : ∀ k, s.streamer.core.task = some k → n < k.job.number

/-- The streaming task stays with its job. -/
theorem Streams.job {k : StreamTask} {t : Traffic} {m : StreamerCore} (streams : s.Streams k t m)
    (task : s.streamer.task = some k) :
    m.started = s.streamer.core.started ∧ ∀ k', m.task = some k' → k'.job = k.job := by
  have own : s.streamer.core.task = some k := task
  cases streams with
  | wait =>
    refine ⟨rfl, fun k' same => ?_⟩
    rw [Option.some.inj (own.symm.trans same)]
  | conclude | vanish => exact ⟨rfl, by simp⟩
  | hand | sent | retry | advance | late =>
    refine ⟨rfl, fun k' same => ?_⟩
    obtain rfl := Option.some.inj same
    rfl

theorem Retired.next (retired : s.Retired n) (e : Event) : (s.next e).Retired n := by
  have keep {t : Session} (core : t.streamer.core = s.streamer.core) : t.Retired n :=
    ⟨by rw [core]; exact retired.started, by rw [core]; exact retired.later⟩
  have steps := next_steps s e
  generalize s.next e = t at steps
  cases steps with
  | call handles =>
    rcases handles.1.jobs with ⟨program, turns, -, -, core⟩ | ⟨started, task, -⟩
    · constructor <;> rw [core]
      · exact Nat.lt_succ_of_lt retired.started
      · intro k same
        obtain rfl := Option.some.inj same
        exact retired.started
    · refine ⟨by rw [started]; exact retired.started, fun k same => ?_⟩
      rcases task with none | before
      · exact absurd (none.symm.trans same) (by simp)
      · exact retired.later k (before ▸ same)
  | @stream k _ task streams calls =>
    obtain ⟨started, job⟩ := streams.job task
    refine ⟨by rw [started]; exact retired.started, fun k' same => ?_⟩
    rw [job k' same]
    exact retired.later k task
  | gone => exact retired
  | begin _ _ _ _ core | aside _ _ core => exact keep core

/-- **A job that is streamed no more hands nothing over.** -/
theorem Retired.silent (retired : s.Retired n) (filed : s.link.traffic.Filed) (es : List Event)
    {x : Nat} (sender : (s.after es).link.traffic.sender? x = some (.job n)) :
    x < s.link.posts.length := by
  induction es generalizing s with
  | nil => exact known_of_sender? sender
  | cons e es ih =>
    have there := (onward_next filed e).1
    have known : x < (s.next e).link.traffic.posts.length := ih (retired.next e) there sender
    by_contra new
    have onward := (onward_after there es).2
    rw [after_cons, sender?_of_kept onward.origins known] at sender
    obtain ⟨k, -, task, rfl, -⟩ := hands_of_new (Nat.le_of_not_lt new) sender
    exact Nat.lt_irrefl _ (retired.later k task)

/-- What jobs hand over are lines. -/
theorem line_of_job (timeout : Option Nat) (es : List Event) {x : Nat}
    (sender : ((initial timeout).after es).link.traffic.sender? x = some (.job n)) :
    ((initial timeout).after es).link.traffic.isLine x = true := by
  induction es using List.reverseRecOn with
  | nil => exact absurd sender (by simp [initial, Link.initial, Link.traffic, Traffic.sender?])
  | append_singleton es e ih =>
    rw [after_append, after_cons, after_nil] at sender ⊢
    have onward := (onward_next (filed_after timeout es) e).2
    by_cases known : x < ((initial timeout).after es).link.traffic.posts.length
    · rw [isLine_of_kept onward.origins known]
      rw [sender?_of_kept onward.origins known] at sender
      exact ih sender
    · obtain ⟨k, line, -, -, -, -, payload⟩ := hands_of_new (Nat.le_of_not_lt known) sender
      exact (congrArg (Option.any Payload.isLine) payload).trans rfl

/-! ## The reset of a stop -/

/-- **The call `i` stops the `n`-th job**: it hands its soft reset over with the ticket `r`. -/
structure Stops (s : Session) (i r n : Nat) : Prop where
  job : s.streamer.job.map (·.number) = some n
  new : s.stage? i ≠ some (.sending r .stop)
  stage : (s.next (.act (.call i))).stage? i = some (.sending r .stop)

/-- A job that a call stops is streamed no more. -/
theorem Stops.retired {i r : Nat} (stops : s.Stops i r n)
    (governed : Governed s.stage? s.streamer.core) : (s.next (.act (.call i))).Retired n := by
  obtain ⟨job, present, rfl⟩ := Option.map_eq_some_iff.mp stops.job
  have last : job.number < s.streamer.core.started := by
    have := governed.job job present
    omega
  have stage := stops.stage
  have steps := next_steps s (.act (.call i))
  generalize s.next (.act (.call i)) = t at steps stage
  cases steps with
  | aside _ calls => exact absurd ((stage?_congr calls i).symm.trans stage) stops.new
  | call handles =>
    obtain ⟨controls, -⟩ := handles
    generalize own : t.stage? i = st at controls
    generalize core : t.streamer.core = m at controls
    suffices s.streamer.core.started = m.started ∧ m.task = none by
      subst core
      exact ⟨this.1 ▸ last, fun k task => absurd (this.2.symm.trans task) (by simp)⟩
    rw [stage] at own
    cases controls with
    | wait => exact absurd own.symm stops.new
    | aside _ after =>
      subst own
      exact absurd after (by simp [CallStage.controls, CallStage.errand?, Errand.isControl])
    | count | queue | finish => exact absurd own (by simp)
    | steer turn steers =>
      cases steers with
      | stop => exact ⟨rfl, rfl⟩
      | _ => exact absurd own (by simp)

/-- What goes over the wire is what the writer was writing. -/
theorem unsent_of_wire {x : Nat} (sent : (s.next e).link.wire = s.link.wire ++ [x]) :
    s.link.traffic.unsent = [x] := by
  have grown : (s.next e).link.traffic.wire = s.link.traffic.wire ++ [x] := sent
  by_cases writer : e = .act .writer
  · subst writer
    rcases writerTurn_makes s with same | ⟨d, move, -⟩
    · rw [show (s.next (.act .writer)).link.traffic = s.link.traffic from same] at grown
      exact absurd grown (by simp)
    · rcases Move.wire (show Move s.link.traffic d (s.next (.act .writer)).link.traffic from move)
        with same | ⟨y, unsent, one, -⟩
      · exact absurd (same.symm.trans grown) (by simp)
      · rw [unsent]
        exact List.append_cancel_left (one.symm.trans grown)
  · obtain ⟨ds, moves, does⟩ := next_trades s e
    have quiet : ∀ d ∈ ds, d.byWriter = false := by
      intro d hd
      by_contra own
      cases does d hd with
      | write => exact writer rfl
      | _ => exact own rfl
    exact absurd ((moves.wire_of_quiet quiet).symm.trans grown) (by simp)

/-- The reset of a stop is no line. -/
theorem Stops.isLine {i r : Nat} (stops : s.Stops i r n) (filed : s.link.traffic.Filed)
    (carrying : s.Carrying) (es : List Event) :
    ((s.next (.act (.call i))).after es).link.traffic.isLine r = false := by
  obtain ⟨c, p, origin, own⟩ := next_carrying filed carrying (.act (.call i)) i r .stop stops.stage
  obtain rfl := own _ rfl
  have there := (onward_next filed (.act (.call i))).1
  have known : r < (s.next (.act (.call i))).link.traffic.posts.length := by
    obtain ⟨p, found, -⟩ := Option.map_eq_some_iff.mp origin
    exact (List.getElem?_eq_some_iff.mp found).1
  rw [isLine_of_kept (onward_after there es).2.origins known, Traffic.isLine, payload?_eq, origin]
  rfl

/-- **What a stop leaves over.** When the reset of a stop goes over the wire, a line of the stopped
job that waits in the queue stays there. The lines of the job that go over the wire behind the reset
are those that waited in the queue then and have been sent since. So none does exactly if none of
these is sent. -/
theorem stop_boundary (timeout : Option Nat) (es fs : List Event) {i r n : Nat} {e : Event}
    (stops : ((initial timeout).after es).Stops i r n) :
    let s := (((initial timeout).after es).next (.act (.call i))).after fs
    (s.next e).link.wire = s.link.wire ++ [r] →
    ∃ c, s.link.connection = some c ∧ ∀ gs,
      let t := ((s.next e).after gs).link.traffic
      ∃ later, t.wire = s.link.wire ++ r :: later ∧
        (∀ x, t.sender? x = some (.job n) → (x ∈ later ↔ x ∈ c.lines ∧ x ∈ t.wire)) ∧
        ((∀ x ∈ later, t.sender? x ≠ some (.job n)) ↔
          ∀ x ∈ c.lines, t.sender? x = some (.job n) → x ∉ t.wire) := by
  intro s sent
  have filed₀ := filed_after timeout es
  have filed₁ := (onward_next filed₀ (.act (.call i))).1
  obtain ⟨filed, onward₁⟩ := onward_after filed₁ fs
  have retired := stops.retired (governed_after timeout es)
  have realtime := stops.isLine filed₀
    (carrying_after (filed_initial timeout) (carrying_initial timeout) es) fs
  have unsent := unsent_of_wire sent
  obtain ⟨c, here⟩ : ∃ c, s.link.connection = some c := by
    refine Option.ne_none_iff_exists'.mp fun closed => ?_
    have none : s.link.traffic.connection = none := closed
    simp [Traffic.unsent, none] at unsent
  refine ⟨c, here, fun gs => ?_⟩
  intro t
  obtain ⟨filed', onward⟩ := onward_after filed (e :: gs)
  obtain ⟨later, wire⟩ : ∃ later, t.wire = s.link.wire ++ r :: later := by
    obtain ⟨later, wire⟩ := (onward_after (onward_next filed e).1 gs).2.wire
    have grown : (s.next e).link.traffic.wire = s.link.wire ++ [r] := sent
    rw [grown, List.append_assoc] at wire
    exact ⟨later, wire.symm⟩
  have behind (x : Nat) (sender : t.sender? x = some (.job n)) :
      x ∈ later ↔ x ∈ c.lines ∧ x ∈ t.wire := by
    -- the job has handed nothing over since it was stopped
    have known : x < s.link.traffic.posts.length := by
      refine Nat.lt_of_lt_of_le (retired.silent filed₁ (fs ++ e :: gs) ?_)
        (length_le_of_kept onward₁.origins)
      rw [after_append]
      exact sender
    have line : t.isLine x = true := by
      have all := line_of_job timeout (es ++ .act (.call i) :: (fs ++ e :: gs)) (n := n) (x := x)
      rw [after_append, after_cons, after_append] at all
      exact all sender
    have queue : s.link.traffic.queue true = c.lines := by
      rw [Traffic.queue, show s.link.traffic.connection = some c from here]
      rfl
    rw [← queue]
    exact onward.behind filed filed' unsent realtime wire known line
  refine ⟨later, wire, behind, fun none x queued sender onWire => ?_, fun none x hx sender => ?_⟩
  · exact none x ((behind x sender).mpr ⟨queued, onWire⟩) sender
  · obtain ⟨queued, onWire⟩ := (behind x sender).mp hx
    exact none x queued sender onWire

/-- The first line of a job is on the wire when the job is to be stopped. -/
def promptStop : List Event :=
  Event.swift 0 (.connect "/dev/mock0" none) ++
    Event.swift 1 (.control (.start "G1 X10\nG1 X20")) ++
    .act (.job 0) :: List.replicate 3 (.act .writer) ++ [.act (.job 0), .call 2 (.control .stop)]

/-- Nothing of the job follows its reset, whatever happens then. -/
theorem stop_boundary_promptStop :
    let s := (((initial none).after promptStop).next (.act (.call 2))).after [.act .writer]
    ((initial none).after promptStop).Stops 2 1 0 ∧
      (s.next (.act .writer)).link.wire = s.link.wire ++ [1] ∧
      ∀ gs, let t := ((s.next (.act .writer)).after gs).link.traffic
        ∃ later, t.wire = s.link.wire ++ 1 :: later ∧
          ∀ x ∈ later, t.sender? x ≠ some (.job 0) := by
  intro s
  have stops : ((initial none).after promptStop).Stops 2 1 0 :=
    { job := by decide +kernel
      new := by decide +kernel
      stage := by decide +kernel }
  have sent : (s.next (.act .writer)).link.wire = s.link.wire ++ [1] := by decide +kernel
  refine ⟨stops, sent, fun gs => ?_⟩
  obtain ⟨c, here, behind⟩ := stop_boundary none promptStop [.act .writer] stops sent
  obtain ⟨later, wire, -, final⟩ := behind gs
  have empty : s.link.connection.map (·.lines) = some [] := by decide +kernel
  have none : c.lines = [] := by
    rw [show s.link.connection = some c from here] at empty
    simpa using empty
  exact ⟨later, wire, final.mpr (by simp [none])⟩

/-- Another line is being written, and held, when the first line of a job is handed over and the job
is to be stopped. -/
def stalledStop : List Event :=
  Event.swift 0 (.connect "/dev/mock0" none) ++ .device 1 .stall ::
    Event.swift 2 (.write "M5") ++ List.replicate 2 (.act .writer) ++
    Event.swift 3 (.control (.start "G1 X10\nG1 X20")) ++ [.act (.job 0), .call 4 (.control .stop)]

/-- A line of a stopped job can go over the wire behind the reset. -/
theorem stop_boundary_stalledStop :
    ¬ ∀ (timeout : Option Nat) (es fs gs : List Event) (i r n : Nat) (e : Event),
      ((initial timeout).after es).Stops i r n →
      let s := (((initial timeout).after es).next (.act (.call i))).after fs
      (s.next e).link.wire = s.link.wire ++ [r] →
      ∀ x ∈ ((s.next e).after gs).link.wire.drop (s.link.wire.length + 1),
        ((s.next e).after gs).link.traffic.sender? x ≠ some (.job n) := by
  intro always
  have stops : ((initial none).after stalledStop).Stops 4 2 0 :=
    { job := by decide +kernel
      new := by decide +kernel
      stage := by decide +kernel }
  exact absurd (always none stalledStop (.device 5 .unstall :: List.replicate 2 (.act .writer))
    (List.replicate 3 (.act .writer)) 4 2 0 (.act .writer) stops (by decide +kernel) 1
    (by decide +kernel)) (by decide +kernel)

end Session

end Cnc
