import Cnc.Proofs.Prompt
import Cnc.Proofs.Settling
import Cnc.Proofs.Timers

/-!
# Sessions are prompt and patient runs

A step of a session begins something and lets everybody act until nobody has
anything to do. So something from outside happens only when everybody waits,
and the run is patient; and as an actor that goes on at once has the next
turn, it is prompt (`Session.played_prompt`). After every step nobody has
anything to do (`Session.played_quiescent`).

Whatever a step begins wakes whoever may have waited for it – the call
itself, the reader, the writer, or those whose time has come – so that from
there the session settles (`Session.Roused.settle`). While time passes, each
stop lies ahead of the one before, and there are no more stops than
milliseconds (`Session.Steady.advanceTo`).
-/

namespace Cnc

namespace EventBus

variable {E : Type} {b : EventBus E} {sub other : Nat}

/-- One that hears everything is at the end, and others hear what they heard. -/
theorem silent_drain (silent : (b.receive sub).1 = none) (other : Nat) :
    ((b.drain other).2.receive sub).1 = none := by
  rcases b.drain_cases other with same | moved
  · rwa [same]
  · rw [moved]
    refine silent_iff.mpr fun p there => ?_
    by_cases own : sub = other
    · subst own
      cases before : b.position? sub with
      | none =>
        have absent : (b.drain sub).2 = b := by simp [drain, before]
        rw [← moved, absent, before] at there
        exact absurd there (by simp)
      | some q =>
        rw [position?_seek_self before] at there
        exact Nat.le_of_eq (Option.some.inj there)
    · rw [position?_seek_ne own] at there
      exact silent_iff.mp silent p there

end EventBus

namespace Session

variable {s t u : Session} {a b : Actor} {e : Event} {es fs : List Event} {n time : Nat}

/-! ## Nobody is woken in vain, and nobody is left out -/

/-- Who is at ease as long as nothing happens that it waits for. -/
theorem Rested.roused (rested : s.Rested) (idle : t.acting = none) (queue : t.queue = [])
    (locks : t.locks = s.locks) {l : List Actor} (present : ∀ b ∈ l, t.Present b)
    (waits : ∀ b, t.Waits b ∨ b ∈ l) : (t.wakeAll l).Roused where
  idle := (acting_wakeAll t l).trans idle
  present b member := by
    refine (present_alike (alike_wakeAll t l)).mpr (present b ?_)
    exact (mem_queue_wakeAll member).resolve_left (by simp [queue])
  twice b := (count_queue_wakeAll t l b).trans (by simp [queue])
  minded b := by
    rcases waits b with waits | woken
    · exact .inl (AtEase.wakeAll ⟨waits, locks ▸ (rested.atEase b).2⟩ l)
    · exact .inr (attended_wakeAll woken)

/-- **Time passes**, and whoever it was waited for is woken. -/
theorem Rested.reach (rested : s.Rested) (now : Nat) :
    (({ s with now } : Session).wakeAll
      ((({ s with now } : Session).timers.filter (·.1 ≤ now)).map (·.2))).Roused := by
  refine rested.roused (t := { s with now }) rested.idle rested.queue rfl (fun b member => ?_)
    fun b => ?_
  · obtain ⟨⟨time, c⟩, among, rfl⟩ := List.mem_map.mp member
    exact (mem_timers.mp (List.mem_filter.mp among).1).present
  · refine ((rested.atEase b).1.elapse now).imp_right fun ⟨time, reached, timed⟩ => ?_
    have member : (time, b) ∈ ({ s with now } : Session).timers := mem_timers (s := s).mpr timed
    exact List.mem_map.mpr ⟨_, List.mem_filter.mpr ⟨member, by simpa using reached⟩, rfl⟩

/-- When it is nobody's time, everybody goes on waiting. -/
theorem Rested.elapse (rested : s.Rested) {now : Nat}
    (none : (s.timers.map (·.1)).filter (· ≤ now) = []) : ({ s with now } : Session).Rested := by
  refine ⟨rested.idle, rested.queue, fun b => ⟨?_, (rested.atEase b).2⟩⟩
  refine ((rested.atEase b).1.elapse now).resolve_right fun ⟨time, reached, timed⟩ => ?_
  have member : time ∈ (s.timers.map (·.1)).filter (· ≤ now) :=
    List.mem_filter.mpr ⟨List.mem_map_of_mem (mem_timers.mpr timed), by simpa using reached⟩
  rw [none] at member
  exact absurd member (by simp)

/-- What was settled is so already. -/
theorem Rested.still (rested : s.Rested) : s.Roused :=
  rested.roused (l := []) rested.idle rested.queue rfl (by simp) fun b => .inl (rested.atEase b).1

/-- **A call that begins** is woken. -/
theorem Rested.begin_call (rested : s.Rested) (new : s.stage? n = none) (c : Call) :
    (s.begin n (.call c)).Roused := by
  have stage := stage?_added new c
  refine rested.roused (l := [.call n])
    (t := { s with calls := s.calls ++ [(n, .begin c)] }) rested.idle rested.queue rfl
    (fun b member => ?_) fun b => ?_
  · obtain rfl := List.mem_singleton.mp member
    exact fun gone => absurd (gone.symm.trans ((stage n).trans (if_pos rfl))) (by simp)
  · by_cases own : b = .call n
    · exact .inr (List.mem_singleton.mpr own)
    · refine .inl ((rested.atEase b).1.of_calls rfl rfl rfl rfl fun j same => ?_)
      rw [stage j, if_neg fun here => own (by rw [same, here])]

/-- **What the device does** wakes whoever may have waited for it. -/
theorem Rested.begin_device (rested : s.Rested) (d : DeviceAction) :
    (s.begin n (.device d)).Roused := by
  show Roused (if _ then _ else _)
  split
  · exact rested.roused (t := s.give n .noDevice) (l := []) rested.idle rested.queue rfl (by simp)
      fun b => .inl (rested.atEase b).1
  · unfold deviceAct
    cases here : s.link.connection with
    | none => exact rested.still
    | some c =>
      dsimp only
      -- one that waits for something else than what the device did
      have drives {c' : Connection} {l : List Actor} (pollers : c'.pollers = c.pollers)
          (present : ∀ b ∈ l, (s.withConnection c').Present b)
          (writer : .writer ∈ l ∨ c'.writer = c.writer ∧ c'.realtime = c.realtime ∧
            c'.lines = c.lines ∧ (c.stalled = true → c'.stalled = true))
          (reader : .reader ∈ l ∨ c'.chores = c.chores ∧ c'.inbox = c.inbox) :
          ((s.withConnection c').wakeAll l).Roused := by
        refine rested.roused (t := s.withConnection c') rested.idle rested.queue rfl present
          fun b => ?_
        by_cases woken : b ∈ l
        · exact .inr woken
        · exact .inl ((rested.atEase b).1.withConnection here pollers
            (fun own => writer.resolve_left (own ▸ woken))
            fun own => reader.resolve_left (own ▸ woken))
      have wakes {c' : Connection} (b : Actor) (there : b ∈ [Actor.writer, .reader]) :
          ∀ d ∈ [b], (s.withConnection c').Present d := by
        rintro d member
        obtain rfl := List.mem_singleton.mp member
        simp only [List.mem_cons, List.not_mem_nil, or_false] at there
        rcases there with rfl | rfl <;> exact trivial
      cases d with
      | send | hangUp | failRead =>
        exact drives (l := [.reader]) rfl (wakes .reader (by simp)) (.inr ⟨rfl, rfl, rfl, id⟩)
          (.inl (by simp))
      | unstall =>
        exact drives (l := [.writer]) rfl (wakes .writer (by simp)) (.inl (by simp))
          (.inr ⟨rfl, rfl⟩)
      | stall =>
        exact drives (l := []) rfl (by simp) (.inr ⟨rfl, rfl, rfl, fun _ => rfl⟩) (.inr ⟨rfl, rfl⟩)
      | failWrites | failFlushes =>
        exact drives (l := []) rfl (by simp) (.inr ⟨rfl, rfl, rfl, id⟩) (.inr ⟨rfl, rfl⟩)

/-- The observer wakes nobody. -/
theorem Rested.observe (rested : s.Rested) : (s.next .observe).Rested := by
  refine ⟨rested.idle, rested.queue, fun b => ⟨?_, (rested.atEase b).2⟩⟩
  have waits := (rested.atEase b).1
  cases b with
  | call i =>
    cases stage : s.stage? i with
    | none => exact waits_of_gone (s := s.next .observe) stage
    | some st =>
      have own := (waits_call_iff stage).mp waits
      refine (waits_call_iff (s := s.next .observe) stage).mpr ?_
      cases st with
      | confirming key sub deadline => exact ⟨own.1, EventBus.silent_drain own.2 0⟩
      | _ => exact own
  | _ => exact waits

theorem rested_initial (timeout : Option Nat) : (initial timeout).Rested := by
  refine ⟨rfl, rfl, fun b => ⟨?_, fun g => ?_⟩⟩
  · cases b with
    | writer | reader => trivial
    | _ => exact waits_of_absent fun there => there rfl
  · cases g <;> simp [initial, Locks.free, Locks.get, Lock.free]

/-! ## Runs that are prompt and patient -/

theorem patient_nil (s : Session) : s.Patient [] := by
  rintro fs e gs split
  exact absurd split (by simp)

theorem patient_append (first : s.Patient es) (second : (s.after es).Patient fs) :
    s.Patient (es ++ fs) := by
  intro xs e ys split outside
  rcases List.append_eq_append_iff.mp split with ⟨mid, rfl, rest⟩ | ⟨mid, rfl, rest⟩
  · rw [after_append]
    exact second mid e ys rest outside
  · cases mid with
    | nil =>
      rw [List.append_nil] at *
      exact second [] e ys rest.symm outside
    | cons f mid =>
      obtain ⟨rfl, rfl⟩ := List.cons.inj rest
      exact first xs e mid rfl outside

/-- Turns are taken at any time. -/
theorem patient_of_turns (turns : ∀ f ∈ es, f.isTurn = true) : s.Patient es := by
  rintro fs e gs rfl outside
  exact absurd (turns e (by simp)) (by simp [outside])

/-- When everybody waits, something may come from outside. -/
theorem Quiescent.patient (quiescent : s.Quiescent) (e : Event) : s.Patient [e] := by
  rintro fs f gs split -
  obtain ⟨rfl, -⟩ : fs = [] ∧ _ := by
    cases fs with
    | nil => exact ⟨rfl, trivial⟩
    | cons g fs => exact absurd (congrArg List.length split) (by simp)
  exact quiescent

/-- Waking actors is up to the scheduler. -/
theorem wakeAll_eq_next (s : Session) (as : List Actor) :
    s.wakeAll as
      = s.next (.schedule (s.wakeAll as).ready s.acting s.credit s.yielded s.stretches) := by
  unfold wakeAll
  induction as generalizing s with
  | nil => rfl
  | cons a as ih =>
    rw [List.foldl_cons, ih]
    unfold wake
    split <;> rfl

/-- **Turns at the right time** lead from one session to another. -/
def Takes (s t : Session) : Prop :=
  ∃ es, (∀ e ∈ es, e.isTurn = true) ∧ t = s.after es ∧ s.Prompt es

/-- **A prompt and patient run** leads from one session to another. -/
def Plays (s t : Session) : Prop := ∃ es, t = s.after es ∧ s.Prompt es ∧ s.Patient es

namespace Takes

theorem refl (s : Session) : s.Takes s := ⟨[], by simp, rfl, prompt_nil s⟩

theorem trans (first : s.Takes t) (second : t.Takes u) : s.Takes u := by
  obtain ⟨es, turns, rfl, prompt⟩ := first
  obtain ⟨fs, turns', rfl, prompt'⟩ := second
  refine ⟨es ++ fs, fun e member => ?_, (after_append s es fs).symm,
    prompt_append.mpr ⟨prompt, prompt'⟩⟩
  exact (List.mem_append.mp member).elim (turns e) (turns' e)

theorem schedule (s : Session) (ready : List Actor) (acting : Option Actor) (credit : Nat)
    (yielded : List Actor) (stretches : Nat) :
    s.Takes { s with ready, acting, credit, yielded, stretches } :=
  ⟨[.schedule ready acting credit yielded stretches], by simp [Event.isTurn], rfl,
    prompt_of_aside rfl⟩

theorem wakeAll (s : Session) (as : List Actor) : s.Takes (s.wakeAll as) := by
  rw [wakeAll_eq_next]
  exact schedule ..

theorem reachable (takes : s.Takes t) (reachable : s.Reachable) : t.Reachable := by
  obtain ⟨es, -, rfl, -⟩ := takes
  exact reachable.after es

end Takes

namespace Plays

theorem refl (s : Session) : s.Plays s := ⟨[], rfl, prompt_nil s, patient_nil s⟩

theorem trans (first : s.Plays t) (second : t.Plays u) : s.Plays u := by
  obtain ⟨es, rfl, prompt, patient⟩ := first
  obtain ⟨fs, rfl, prompt', patient'⟩ := second
  exact ⟨es ++ fs, (after_append s es fs).symm, prompt_append.mpr ⟨prompt, prompt'⟩,
    patient_append patient patient'⟩

theorem of_takes (takes : s.Takes t) : s.Plays t := by
  obtain ⟨es, turns, rfl, prompt⟩ := takes
  exact ⟨es, rfl, prompt, patient_of_turns turns⟩

/-- Something from outside, when everybody waits. -/
theorem outside (quiescent : s.Quiescent) (aside : e.actor? = none) : s.Plays (s.next e) :=
  ⟨[e], rfl, prompt_of_aside aside, quiescent.patient e⟩

end Plays

/-! ## The order of a session -/

/-- **What holds of a session in its own order**, all of whose calls have lower numbers than `n`. -/
structure Steady (s : Session) (n : Nat) : Prop where
  reachable : s.Reachable
  urgent : s.Urgent
  new : ∀ i, n ≤ i → s.stage? i = none

/-- What the device does concerns neither the job streamer nor the calls, and is nobody's turn. -/
theorem begin_device_apart (s : Session) (n : Nat) (d : DeviceAction) :
    (s.begin n (.device d)).streamer.core = s.streamer.core ∧
      (s.begin n (.device d)).acting = s.acting ∧ (s.begin n (.device d)).calls = s.calls := by
  have put (c : Connection) (as : List Actor) :
      ((s.withConnection c).wakeAll as).streamer.core = s.streamer.core ∧
        ((s.withConnection c).wakeAll as).acting = s.acting ∧
        ((s.withConnection c).wakeAll as).calls = s.calls := by
    have alike := alike_wakeAll (s.withConnection c) as
    exact ⟨congrArg Streamer.core alike.2.2.1, acting_wakeAll _ as, alike.2.2.2.1⟩
  simp only [begin]
  split
  · exact ⟨rfl, rfl, rfl⟩
  · unfold deviceAct
    split
    · exact ⟨rfl, rfl, rfl⟩
    · cases d with
      | send | hangUp | failRead => exact put _ [.reader]
      | unstall => exact put _ [.writer]
      | _ => exact put _ []

namespace Steady

/-- What leaves the job streamer and the calls alone, and does not end a stretch. -/
theorem of_same (steady : s.Steady n) (reachable : t.Reachable)
    (core : t.streamer.core = s.streamer.core) (acting : t.acting = s.acting)
    (calls : t.calls = s.calls) : t.Steady n where
  reachable := reachable
  urgent := steady.urgent.of_same core acting
  new i later := (stage?_congr calls i).trans (steady.new i later)

/-- A turn at the right time. -/
theorem act (reachable : s.Reachable)
    (own : ∀ k ∈ s.streamer.core.concluding?, a = .job k.job.number)
    (new : ∀ i, n ≤ i → s.stage? i = none) : s.Takes (s.act a) ∧ (s.act a).Steady n := by
  refine ⟨⟨[.act a], by simp [Event.isTurn], rfl, prompt_of_own own⟩, reachable.next (.act a),
    act_urgent reachable.sized own, ?_⟩
  exact fun i later => (gone_after (new i later) [.act a] (by simp [Event.isTurn])).1

theorem turn (steady : s.Steady n) (h : s.turn = some t) : s.Takes t ∧ t.Steady n := by
  -- nobody is about to conclude while nobody goes on at once
  have calm (acting : s.acting = none) : s.streamer.core.concluding? = none := by
    by_contra some_
    obtain ⟨k, concluding⟩ := Option.ne_none_iff_exists'.mp some_
    exact absurd ((steady.urgent k concluding).symm.trans acting) (by simp)
  have begins {u : Session} (acting : s.acting = none) (takes : s.Takes u)
      (core : u.streamer.core = s.streamer.core) (calls : u.calls = s.calls) :
      s.Takes u ∧ u.Steady n := by
    refine ⟨takes, takes.reachable steady.reachable, fun k concluding => ?_, fun i later => ?_⟩
    · rw [core, calm acting] at concluding
      exact absurd concluding (by simp)
    · exact (stage?_congr calls i).trans (steady.new i later)
  cases leadsTo_of_turn h with
  | @act a acting =>
    have own (k : StreamTask) (concluding : k ∈ s.streamer.core.concluding?) :
        a = .job k.job.number :=
      Option.some.inj (acting.symm.trans (steady.urgent k concluding))
    have taken : s.Takes { s with acting := none } := .schedule ..
    obtain ⟨takes, steady'⟩ := act (s := { s with acting := none })
      (taken.reachable steady.reachable) own steady.new
    exact ⟨taken.trans takes, steady'⟩
  | stretch idle => exact begins idle (.schedule ..) rfl rfl
  | round idle => exact begins idle (.schedule ..) rfl rfl

theorem turns (steady : s.Steady n) (m : Nat) : s.Takes (s.turns m) ∧ (s.turns m).Steady n := by
  induction m generalizing s with
  | zero => exact ⟨.refl s, steady⟩
  | succ m ih =>
    cases h : s.turn with
    | none =>
      rw [Session.turns, h]
      exact ⟨.refl s, steady⟩
    | some t =>
      obtain ⟨takes, steady'⟩ := steady.turn h
      obtain ⟨takes', steady''⟩ := ih steady'
      rw [Session.turns, h]
      exact ⟨takes.trans takes', steady''⟩

/-- **Settling is a prompt run** without anything from outside. -/
theorem settle (steady : s.Steady n) : s.Takes s.settle ∧ s.settle.Steady n := by
  have begun : s.Takes { s with stretches := 0 } := .schedule ..
  have steady' : ({ s with stretches := 0 } : Session).Steady n :=
    steady.of_same (begun.reachable steady.reachable) rfl rfl rfl
  obtain ⟨takes, steady''⟩ := steady'.turns (8 * (s.work + 1) * (s.population + 2))
  exact ⟨begun.trans takes, steady''⟩

theorem wakeAll (steady : s.Steady n) (as : List Actor) :
    s.Takes (s.wakeAll as) ∧ (s.wakeAll as).Steady n := by
  have takes := Takes.wakeAll s as
  have alike := alike_wakeAll s as
  exact ⟨takes, steady.of_same (takes.reachable steady.reachable)
    (congrArg Streamer.core alike.2.2.1) (acting_wakeAll s as) alike.2.2.2.1⟩

/-- Time passes while everybody waits. -/
theorem elapse (steady : s.Steady n) (quiescent : s.Quiescent) {now : Nat} (later : s.now ≤ now) :
    s.Plays { s with now } ∧ ({ s with now } : Session).Steady n := by
  have passed : s.next (.elapse (now - s.now)) = { s with now } := by
    simp [next, Nat.add_sub_cancel' later]
  exact ⟨passed ▸ .outside quiescent rfl,
    steady.of_same (passed ▸ steady.reachable.next _) rfl rfl rfl⟩

/-- **Letting time pass** is a prompt and patient run up to where everybody waits. -/
theorem advanceTo (steady : s.Steady n) (rested : s.Rested) {target rounds : Nat}
    (ahead : s.now ≤ target) (enough : target - s.now < rounds) :
    s.Plays (s.advanceTo target rounds) ∧ (s.advanceTo target rounds).Steady n ∧
      (s.advanceTo target rounds).Rested := by
  have quiescent := rested.quiescent steady.reachable
  induction rounds generalizing s with
  | zero => exact absurd enough (Nat.not_lt_zero _)
  | succ rounds ih =>
    unfold Session.advanceTo
    dsimp only
    generalize stop : ((s.timers.map (·.1)).filter (· ≤ target)).min? = first
    cases first with
    | none =>
      obtain ⟨plays, steady'⟩ := steady.elapse quiescent ahead
      exact ⟨plays, steady', rested.elapse (List.min?_eq_none_iff.mp stop)⟩
    | some time =>
      obtain ⟨among, due⟩ := List.mem_filter.mp (List.min?_mem stop)
      obtain ⟨⟨time, b⟩, timer, rfl⟩ := List.mem_map.mp among
      have due : time ≤ target := by simpa using due
      -- everybody waited, so the stop lies ahead
      have early : s.now < time :=
        (mem_timers.mp timer).ahead steady.reachable (rested.atEase b).1
      have now : Nat.max s.now time = time := Nat.max_eq_right (Nat.le_of_lt early)
      dsimp only
      rw [now]
      obtain ⟨reach, steady₁⟩ := steady.elapse quiescent (Nat.le_of_lt early)
      have roused := rested.reach time
      obtain ⟨wakes, steady₂⟩ := steady₁.wakeAll
        ((({ s with now := time } : Session).timers.filter (·.1 ≤ time)).map (·.2))
      have woken := (alike_wakeAll ({ s with now := time } : Session)
        ((({ s with now := time } : Session).timers.filter (·.1 ≤ time)).map (·.2))).1
      generalize ({ s with now := time } : Session).wakeAll _ = t at *
      obtain ⟨takes, steady₃⟩ := steady₂.settle
      have rested' := roused.settle steady₂.reachable
      have there : t.settle.now = time := (settle_now t).trans woken
      obtain ⟨rest, steady₄, rested''⟩ := ih steady₃ rested' (there.trans_le due) (by omega)
        (rested'.quiescent steady₃.reachable)
      exact ⟨reach.trans ((Plays.of_takes (wakes.trans takes)).trans rest), steady₄, rested''⟩

/-- **A step of a session** is a prompt and patient run up to where everybody waits. -/
theorem perform (steady : s.Steady n) (rested : s.Rested) (st : SessionStep) :
    s.Plays (s.perform n st).2 ∧ (s.perform n st).2.Steady (n + 1) ∧ (s.perform n st).2.Rested := by
  have quiescent := rested.quiescent steady.reachable
  have new := steady.new n (Nat.le_refl n)
  have more {u : Session} (steady : u.Steady n) : u.Steady (n + 1) :=
    ⟨steady.reachable, steady.urgent, fun i later => steady.new i (Nat.le_of_succ_le later)⟩
  have begun : s.Plays (s.begin n st) ∧ (s.begin n st).Steady (n + 1) ∧ (s.begin n st).Roused := by
    cases st with
    | call c =>
      have call : s.next (.call n c) = s.begin n (.call c) := by simp [next, new]
      have alike : (s.begin n (.call c)).Alike { s with calls := s.calls ++ [(n, .begin c)] } :=
        alike_wake _ _
      refine ⟨call ▸ .outside quiescent rfl, ⟨call ▸ steady.reachable.next _, ?_, ?_⟩,
        rested.begin_call new c⟩
      · exact steady.urgent.of_same (congrArg Streamer.core alike.2.2.1)
          (acting_wakeAll { s with calls := s.calls ++ [(n, .begin c)] } [.call n])
      · intro i later
        rw [alike.stage?, stage?_added new, if_neg (Nat.ne_of_gt later)]
        exact steady.new i (Nat.le_of_succ_le later)
    | device d =>
      have acts : s.next (.device n d) = s.begin n (.device d) := rfl
      obtain ⟨core, acting, calls⟩ := begin_device_apart s n d
      exact ⟨acts ▸ .outside quiescent rfl,
        more (steady.of_same (acts ▸ steady.reachable.next _) core acting calls),
        rested.begin_device d⟩
    | advance time =>
      have enough : s.now + time - s.now < time + 1 := by omega
      obtain ⟨plays, steady', rested'⟩ :=
        steady.advanceTo rested (Nat.le_add_right s.now time) enough
      exact ⟨plays, more steady', rested'.still⟩
  obtain ⟨plays, steady', roused⟩ := begun
  obtain ⟨takes, steady''⟩ := steady'.settle
  have rested' := roused.settle steady'.reachable
  have heard : (s.begin n st).settle.Plays ((s.begin n st).settle.next .observe) :=
    .outside (rested'.quiescent steady''.reachable) rfl
  exact ⟨plays.trans ((Plays.of_takes takes).trans heard),
    steady''.of_same (steady''.reachable.next .observe) rfl rfl rfl, rested'.observe⟩

end Steady

/-- **The session after some steps**, the first of which has the given index. -/
def played (s : Session) (index : Nat) : List SessionStep → Session
  | [] => s
  | st :: rest => (s.perform index st).2.played (index + 1) rest

theorem Steady.played (steady : s.Steady n) (rested : s.Rested) (steps : List SessionStep) :
    s.Plays (s.played n steps) ∧ (s.played n steps).Quiescent := by
  induction steps generalizing s n with
  | nil => exact ⟨.refl s, rested.quiescent steady.reachable⟩
  | cons st rest ih =>
    obtain ⟨plays, steady', rested'⟩ := steady.perform rested st
    obtain ⟨plays', quiescent⟩ := ih steady' rested'
    exact ⟨plays.trans plays', quiescent⟩

theorem steady_initial (timeout : Option Nat) : (initial timeout).Steady 0 := by
  refine ⟨.of_run timeout [], fun k task => ?_, fun i _ => rfl⟩
  exact absurd task (by simp [initial, Streamer.initial, Streamer.core, StreamerCore.concluding?])

/-- **Every session is a prompt and patient run.** -/
theorem played_prompt (timeout : Option Nat) (steps : List SessionStep) :
    ∃ es, (initial timeout).played 0 steps = (initial timeout).after es ∧
      (initial timeout).Prompt es ∧ (initial timeout).Patient es :=
  ((steady_initial timeout).played (rested_initial timeout) steps).1

/-- **After every step of a session** nobody has anything to do. -/
theorem played_quiescent (timeout : Option Nat) (steps : List SessionStep) :
    ((initial timeout).played 0 steps).Quiescent :=
  ((steady_initial timeout).played (rested_initial timeout) steps).2

end Session

end Cnc
