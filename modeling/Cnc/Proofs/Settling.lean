import Mathlib.Tactic.Ring
import Cnc.Proofs.Gathering

/-!
# A session settles

A session settles by taking a number of turns that is counted beforehand from
its work and its population. That this number is enough, and that nobody has
anything to do then, is `Session.Roused.settle`.

Doing some of what is left may make everybody due for two turns, so it is
worth that many; a turn in which nothing is done takes a place off the queue
(`Session.pace`). How many actors there can be is known beforehand as well: a
call brings one along at most, and each counts for that until it has
(`Session.Fits`). So every turn brings the end closer (`Session.Fits.turn`).
At the end the queue is empty. One who waited in line for a lock then would
wait for one who neither has a turn to come nor waits for another lock, and
such a one has nothing to do with locks.
-/

namespace Cnc

/-- The members of a list that have a name are among those that it counts. -/
theorem sum_lookup_le_tally {α : Type} (count : α → Nat) (l : List (Nat × α)) :
    ∑ i ∈ (l.map Prod.fst).toFinset, ((l.lookup i).map count).getD 0 ≤ tally (count ·.2) l := by
  induction l with
  | nil => exact Nat.le_refl _
  | cons x rest ih =>
    obtain ⟨j, a⟩ := x
    let names := (rest.map Prod.fst).toFinset
    have others : ∑ i ∈ (insert j names).erase j, ((((j, a) :: rest).lookup i).map count).getD 0
        ≤ ∑ i ∈ names, ((rest.lookup i).map count).getD 0 := by
      rw [Finset.erase_insert_eq_erase]
      refine Nat.le_trans (Nat.le_of_eq (Finset.sum_congr rfl fun i apart => ?_))
        (Finset.sum_le_sum_of_subset (Finset.erase_subset j names))
      have other : (i == j) = false := by simpa using Finset.ne_of_mem_erase apart
      rw [List.lookup_cons, other]
    rw [List.map_cons, List.toFinset_cons,
      ← Finset.add_sum_erase (insert j names) _ (Finset.mem_insert_self j names)]
    simp only [List.lookup_cons_self, Option.map_some, Option.getD_some, tally]
    exact Nat.add_le_add_left (others.trans ih) _

/-- Whether a call may still bring somebody new along: a poller, a task or a refresher. -/
def CallStage.spare : CallStage → Nat
  | .begin _ | .turn _ | .sending .. | .counting .. => 1
  | .awaitingAnswer _ | .awaitingIdle | .confirming .. | .lookingUp _ => 0

theorem CallStage.Follows.spare_le {st st' : CallStage} (follows : st.Follows st') :
    st'.spare ≤ st.spare := by
  cases follows <;> simp [spare]

namespace Session

variable {s t : Session} {a b : Actor} {cast : Finset Actor} {calls : Finset Nat}
  {i n room : Nat} {st : CallStage}

/-! ## Newcomers -/

/-- Whether a call may still bring somebody new along. -/
def spare (s : Session) (i : Nat) : Nat := ((s.stage? i).map CallStage.spare).getD 0

theorem spare_act_le (s : Session) (a : Actor) (i : Nat) : (s.act a).spare i ≤ s.spare i := by
  unfold spare
  cases stage' : (s.act a).stage? i with
  | none => exact Nat.zero_le _
  | some st' =>
    rcases next_follows s (.act a) stage' with ⟨st, stage, follows⟩ | ⟨c, own, -⟩
    · rw [stage]
      exact follows.spare_le
    · exact absurd own (by simp)

theorem stage?_startJob (s : Session) (i : Nat) (program : String) :
    (s.startJob i program).stage? i = none := by
  unfold startJob
  dsimp only
  split
  · simp
  · split
    · simp
    · split <;> simp

/-- **A call brings one newcomer along at most.** -/
theorem spare_of_newcomer (stage : s.stage? i = some st) (new : s.newcomer? st = some b)
    (does : ¬ s.Lapses (.call i) (s.callTurn i)) : (s.callTurn i).spare i < s.spare i := by
  have before : s.spare i = st.spare := by rw [spare, stage]; rfl
  have returns {t : Session} (turn : s.callTurn i = t) (gone : t.stage? i = none) :
      (s.callTurn i).spare i = 0 := by rw [spare, turn, gone]; rfl
  have had : st.spare = 1 := by cases st <;> first | rfl | exact absurd new (by simp [newcomer?])
  suffices none : (s.callTurn i).spare i = 0 by omega
  cases st with
  | begin c =>
    have turn : s.callTurn i = s.beginCall i c := by simp only [callTurn, stage]
    cases c with
    | poll interval =>
      refine returns turn ?_
      dsimp only [beginCall, addPoller]
      split
      · simp
      · split <;> simp
    | control c =>
      cases c with
      | start program =>
        have first : s.streamer.turns = [] := by
          by_contra taken
          simp [newcomer?, taken] at new
        refine returns turn ?_
        dsimp only [beginCall, takeTurn]
        rw [if_pos first]
        exact stage?_startJob _ i program
      | _ => exact absurd new (by simp [newcomer?])
    | _ => exact absurd new (by simp [newcomer?])
  | turn c =>
    cases c with
    | start program =>
      by_cases first : s.streamer.turns.head? = some i
      · have turn : s.callTurn i = s.startJob i program := by
          simp only [callTurn, stage, if_pos first, control]
        exact returns turn (stage?_startJob s i program)
      · have same : s.callTurn i = s := by simp only [callTurn, stage, if_neg first]
        rw [same] at does
        exact absurd (.idle s _) does
    | _ => exact absurd new (by simp [newcomer?])
  | counting x errand =>
    cases errand with
    | setting delay confirmation =>
      have turn : s.callTurn i = s.use (.call i) .stats (·.countSent x)
          (·.doErrand i x (.setting delay confirmation)) := by simp only [callTurn, stage]
      rcases use_lapses s (.call i) .stats (·.countSent x)
        (·.doErrand i x (.setting delay confirmation)) with lapses | ⟨v, alike, same⟩
      · exact absurd (turn ▸ lapses) does
      · cases confirmation with
        | none => exact returns (turn.trans same) (by simp [doErrand])
        | some c =>
          rw [turn, same]
          simp only [spare, doErrand]
          rw [(alike_again _ _).stage?, stage?_setStage, if_pos rfl]
          cases (((v.countSent x).leave .stats).spawnRefresher delay).stage? i <;> rfl
    | _ => exact absurd new (by simp [newcomer?])
  | _ => exact absurd new (by simp [newcomer?])

/-- A turn in which nothing is done brings nobody. -/
theorem Gathered.lapses {cast' : Finset Actor} (gathered : t.Gathered cast')
    (lapses : s.Lapses a t) (idle : s.acting = none) (own : a ∈ cast)
    (present : ∀ b, s.Present b → b ∈ cast) (queue : ∀ b ∈ s.queue, b ∈ cast) :
    t.Gathered cast := by
  refine ⟨fun b there => present b ((present_alike lapses.alike).mp there), fun b member => ?_,
    gathered.twice, gathered.minded⟩
  cases lapses with
  | waits locks =>
    rw [due_of_idle (by exact idle)] at member
    exact queue b member
  | yields locks =>
    rw [due_of_idle (by exact idle)] at member
    have split : (({ s with locks } : Session).giveWay a).queue = s.queue ++ [a] :=
      (List.append_assoc _ _ _).symm
    rw [split] at member
    rcases List.mem_append.mp member with before | last
    · exact queue b before
    · exact List.mem_singleton.mp last ▸ own

theorem Tended.mono {cast' : Finset Actor} (tended : s.Tended cast a) (more : cast ⊆ cast') :
    s.Tended cast' a :=
  ⟨tended.acting, more tended.self, fun b there => more (tended.present b there),
    fun i member => more (tended.turns i member), fun g b member => more (tended.locks g b member),
    fun b member => more (tended.queue b member), tended.twice, tended.minded⟩

/-! ## Room for all -/

/-- **There is room for all who are there**, and for those who may still come. -/
def Fits (calls : Finset Nat) (room : Nat) (s : Session) : Prop :=
  ∃ cast : Finset Actor, s.Gathered cast ∧ cast.card + ∑ i ∈ calls, s.spare i ≤ room

theorem Fits.act (fits : s.Fits calls room) (reachable : s.Reachable)
    (all : ∀ i, i ∉ calls → s.stage? i = none) (acts : s.acting = some a) :
    (({ s with acting := none } : Session).act a).Fits calls room := by
  obtain ⟨cast, gathered, bound⟩ := fits
  let rested : Session := { s with acting := none }
  have reachable' : rested.Reachable :=
    reachable.next (.schedule s.ready none s.credit s.yielded s.stretches)
  have locked : (rested.act a).Locked := (reachable'.next (.act a)).locked
  have tended : rested.Tended cast a := gathered.tended reachable acts
  have spares (i : Nat) : (rested.act a).spare i ≤ s.spare i := spare_act_le rested a i
  have fewer : ∑ i ∈ calls, (rested.act a).spare i ≤ ∑ i ∈ calls, s.spare i :=
    Finset.sum_le_sum fun i _ => spares i
  by_cases newcomer : ∃ i st b, a = .call i ∧ s.stage? i = some st ∧ s.newcomer? st = some b
  · obtain ⟨i, st, b, rfl, stage, new⟩ := newcomer
    have more : cast ⊆ insert b cast := Finset.subset_insert b cast
    have ends : TurnEnd (insert b cast) (.call i) (rested.act (.call i)) := by
      refine act_ends (tended.mono more) rfl reachable' fun j st' b' same stage' new' => ?_
      obtain rfl := Actor.call.inj same
      obtain rfl := Option.some.inj (stage.symm.trans stage')
      obtain rfl := Option.some.inj (new.symm.trans new')
      exact Finset.mem_insert_self b cast
    by_cases lapses : rested.Lapses (.call i) (rested.act (.call i))
    · exact ⟨cast, (ends.gathered locked).lapses lapses rfl tended.self tended.present tended.queue,
        Nat.le_trans (Nat.add_le_add_left fewer _) bound⟩
    · refine ⟨insert b cast, ends.gathered locked, ?_⟩
      have less : (rested.act (.call i)).spare i < s.spare i :=
        spare_of_newcomer (s := rested) stage new lapses
      have member : i ∈ calls := by
        by_contra absent
        exact absurd (stage.symm.trans (all i absent)) (by simp)
      have fewer := Finset.sum_lt_sum (fun i _ => spares i) ⟨i, member, less⟩
      have card := Finset.card_insert_le b cast
      show (insert b cast).card + ∑ j ∈ calls, (rested.act (.call i)).spare j ≤ room
      omega
  · have ends : TurnEnd cast a (rested.act a) := act_ends tended rfl reachable'
      fun i st b same stage new => absurd ⟨i, st, b, same, stage, new⟩ newcomer
    exact ⟨cast, ends.gathered locked, Nat.le_trans (Nat.add_le_add_left fewer _) bound⟩

/-- Who is there, and who is due, is the same when the scheduler has moved the queue. -/
theorem Fits.reschedule (fits : s.Fits calls room) (alike : t.Alike s) (locks : t.locks = s.locks)
    (due : t.due = s.due) (idle : s.acting = none)
    (queue : ∀ b, t.acting ≠ some b → b ∈ s.queue → b ∈ t.queue) : t.Fits calls room := by
  obtain ⟨cast, gathered, bound⟩ := fits
  refine ⟨cast, ⟨fun b there => gathered.present b ((present_alike alike).mp there), ?_, ?_,
    fun b other => ?_⟩, ?_⟩
  · rw [due]
    exact gathered.due
  · rw [due]
    exact gathered.twice
  · rcases gathered.minded b (by simp [idle]) with ⟨waits, free⟩ | attended
    · exact .inl ⟨waits.of_alike alike, locks ▸ free⟩
    · refine .inr (attended_iff.mpr ((attended_iff.mp attended).imp (queue b other) ?_))
      rw [locks]
      exact id
  · simpa only [spare, alike.stage?] using bound

/-! ## How many turns are left -/

/-- **How many turns are left at most**, when no more than `room` actors take part. Doing something
may make everybody else due for two turns; a turn in which nothing is done costs a place in the
queue, and giving way comes after some work on the same stretch. -/
def pace (calls : Finset Nat) (room : Nat) (s : Session) : Nat :=
  (8 * room + 7) * s.labour calls + 3 * s.ready.length + 4 * s.yielded.length
    + (if s.acting = none then 0 else if s.credit < stretchCredit then 5 else 1)
    + if s.stretches = roundLength then 1 else 0

/-- No more are due than twice as many as there are. -/
theorem Gathered.length_due_le (gathered : s.Gathered cast) : s.due.length ≤ 2 * cast.card := by
  have inside : s.due.toFinset ⊆ cast := fun b member =>
    gathered.due b (List.mem_toFinset.mp member)
  calc s.due.length
      = ∑ b ∈ s.due.toFinset, s.due.count b := (List.sum_toFinset_count_eq_length s.due).symm
    _ ≤ ∑ b ∈ s.due.toFinset, 2 := Finset.sum_le_sum fun b _ => gathered.twice b
    _ = s.due.toFinset.card * 2 := Finset.sum_const_nat fun _ _ => rfl
    _ ≤ 2 * cast.card := by
      rw [Nat.mul_comm]
      exact Nat.mul_le_mul_left 2 (Finset.card_le_card inside)

/-- **Whoever does some of what is left** may make everybody due for two turns. -/
theorem Fits.pace_lt (fits : t.Fits calls room) (less : t.labour calls < s.labour calls) :
    t.pace calls room < s.pace calls room := by
  obtain ⟨cast, gathered, bound⟩ := fits
  have due := gathered.length_due_le
  have split : t.due.length
      = t.acting.toList.length + (t.ready.length + t.yielded.length) := by
    simp [Session.due, Session.queue]
  have labour := Nat.mul_le_mul_left (8 * room + 7) (Nat.succ_le_of_lt less)
  rw [Nat.mul_succ] at labour
  have acts : (if t.acting = none then 0 else if t.credit < stretchCredit then 5 else 1)
      ≤ 4 * t.acting.toList.length + 1 := by
    cases t.acting with
    | none => simp
    | some b =>
      rw [if_neg (Option.some_ne_none b), Option.toList_some, List.length_singleton]
      split <;> omega
  have alone : t.acting.toList.length ≤ 1 := Option.length_toList_le
  have flag : (if t.stretches = roundLength then 1 else 0) ≤ 1 := by split <;> omega
  simp only [pace]
  omega

/-- **A turn in which nothing is done** is one less. -/
theorem Lapses.pace_lt (acting : s.acting = some a)
    (lapses : ({ s with acting := none } : Session).Lapses a t) :
    t.pace calls room < s.pace calls room := by
  have alike : ({ s with acting := none } : Session).Alike s := ⟨rfl, rfl, rfl, rfl, rfl, rfl, rfl⟩
  have labour : t.labour calls = s.labour calls := (lapses.alike.trans alike).labour calls
  simp only [pace, labour, acting]
  cases lapses with
  | waits locks =>
    simp
    split <;> omega
  | yields locks credit =>
    have spent : s.credit = 0 := credit
    simp [giveWay, spent, stretchCredit]
    omega

/-- Where a stretch begins, there is one place less in the queue. -/
theorem pace_beginStretch_lt {rest : List Actor} (idle : s.acting = none)
    (ready : s.ready = a :: rest) :
    (s.beginStretch a rest).pace calls room < s.pace calls room := by
  have alike : (s.beginStretch a rest).Alike s := ⟨rfl, rfl, rfl, rfl, rfl, rfl, rfl⟩
  have flag : (if s.stretches + 1 = roundLength then 1 else 0) ≤ 1 := by split <;> omega
  have begun : (s.beginStretch a rest).pace calls room
      = (8 * room + 7) * s.labour calls + 3 * rest.length + 4 * s.yielded.length + 1
        + if s.stretches + 1 = roundLength then 1 else 0 := by
    rw [← alike.labour calls]
    rfl
  rw [begun]
  simp only [pace, idle, ready, List.length_cons, if_true]
  omega

/-- Where a round begins, those who gave way come closer. -/
theorem pace_beginRound_lt (idle : s.acting = none)
    (ends : s.stretches = roundLength ∨ s.yielded ≠ []) :
    s.beginRound.pace calls room < s.pace calls room := by
  have alike : s.beginRound.Alike s := ⟨rfl, rfl, rfl, rfl, rfl, rfl, rfl⟩
  simp only [pace, alike.labour calls]
  simp [beginRound, idle, roundLength] at ends ⊢
  rcases ends with full | gaveWay
  · simp [full]
    omega
  · have some_ : 0 < s.yielded.length := List.length_pos_iff.mpr gaveWay
    omega

/-- **Every turn brings the end closer.** -/
theorem Fits.turn (fits : s.Fits calls room) (reachable : s.Reachable)
    (all : ∀ i, i ∉ calls → s.stage? i = none) (h : s.turn = some t) :
    t.Fits calls room ∧ t.pace calls room < s.pace calls room := by
  cases leadsTo_of_turn h with
  | @act a acting =>
    have fits' := fits.act reachable all acting
    let rested : Session := { s with acting := none }
    have reachable' : rested.Reachable :=
      reachable.next (.schedule s.ready none s.credit s.yielded s.stretches)
    have alike : rested.Alike s := ⟨rfl, rfl, rfl, rfl, rfl, rfl, rfl⟩
    refine ⟨fits', ?_⟩
    rcases act_labours reachable'.sound reachable'.sized all a with lapses | less
    · exact lapses.pace_lt acting
    · exact fits'.pace_lt (alike.labour calls ▸ less)
  | @stretch a rest idle ready =>
    have alike : (s.beginStretch a rest).Alike s := ⟨rfl, rfl, rfl, rfl, rfl, rfl, rfl⟩
    have due : (s.beginStretch a rest).due = s.due := by
      rw [due_of_idle idle, Session.queue, ready]
      rfl
    refine ⟨fits.reschedule alike rfl due idle fun b other queued => ?_,
      pace_beginStretch_lt idle ready⟩
    rw [Session.queue, ready, List.cons_append] at queued
    refine (List.mem_cons.mp queued).resolve_left fun same => other ?_
    exact congrArg some same.symm
  | round idle ends =>
    have alike : s.beginRound.Alike s := ⟨rfl, rfl, rfl, rfl, rfl, rfl, rfl⟩
    have same : s.beginRound.queue = s.queue := List.append_nil _
    refine ⟨fits.reschedule alike rfl ?_ idle fun b _ queued => same.symm ▸ queued,
      pace_beginRound_lt idle ends⟩
    rw [due_of_idle (by exact idle), due_of_idle idle, same]

/-! ## As many turns as there are left -/

/-- **As many turns as are left** are enough. -/
theorem Fits.turns (fits : s.Fits calls room) (reachable : s.Reachable)
    (all : ∀ i, i ∉ calls → s.stage? i = none) (enough : s.pace calls room ≤ n) :
    (s.turns n).turn = none ∧ (s.turns n).Fits calls room := by
  induction n generalizing s with
  | zero =>
    refine ⟨?_, fits⟩
    cases turn : s.turn with
    | none => exact turn
    | some t => exact absurd (fits.turn reachable all turn).2 (by omega)
  | succ n ih =>
    cases turn : s.turn with
    | none =>
      rw [Session.turns, turn]
      exact ⟨turn, fits⟩
    | some t =>
      rw [Session.turns, turn]
      obtain ⟨fits', less⟩ := fits.turn reachable all turn
      obtain ⟨es, turns, rfl⟩ := turn_eq_after turn
      exact ih fits' (reachable.after es) (fun i absent => (gone_after (all i absent) es turns).1)
        (by omega)

/-! ## How much there is at the beginning -/

theorem card_callers_le (s : Session) : s.callers.card ≤ s.calls.length :=
  (List.toFinset_card_le _).trans (Nat.le_of_eq (List.length_map _))

/-- **The work that is counted is what is left to be done.** -/
theorem labour_le_work (s : Session) : s.labour s.callers ≤ s.work := by
  have some_ := card_callers_le s
  have calls : ∑ i ∈ s.callers, s.callWork i ≤ tally (·.2.work) s.calls :=
    sum_lookup_le_tally CallStage.work s.calls
  have burden : s.burden s.callers ≤ s.ownWork := by
    unfold Session.burden ownWork sideWork
    omega
  have ears : ∑ i ∈ s.callers, s.callEar i ≤ s.calls.length * (s.link.events.capacity + 1) := by
    refine (Finset.sum_le_card_nsmul _ _ (s.link.events.capacity + 1) fun i _ => ?_).trans
      (Nat.mul_le_mul_right _ some_)
    unfold callEar
    cases s.stage? i with
    | none => exact Nat.zero_le _
    | some st =>
      cases st with
      | confirming key sub deadline => exact EventBus.behind_le _ _
      | _ => simp [CallStage.ear]
  calc s.labour s.callers
      ≤ (s.calls.length + 1) * s.ownWork + s.calls.length * (s.link.events.capacity + 1) :=
        Nat.add_le_add (Nat.mul_le_mul (Nat.succ_le_succ some_) burden) ears
    _ = s.work := by
      rw [Session.work]
      ring

/-- All who are there. -/
def crowd (s : Session) : List Actor :=
  [.writer, .reader] ++ s.calls.map (.call ·.1)
    ++ s.streamer.task.toList.map (.job ·.job.number)
    ++ (s.link.connection.map (·.pollers)).toList.flatten.map (.poller ·.number)
    ++ s.refreshers.map (.refresher ·.number)

theorem mem_crowd (there : s.Present a) : a ∈ s.crowd := by
  simp only [crowd, List.mem_append, List.mem_map]
  cases a with
  | call i =>
    obtain ⟨st, stage⟩ := Option.ne_none_iff_exists'.mp there
    exact .inl (.inl (.inl (.inr ⟨(i, st), mem_calls stage, rfl⟩)))
  | job n =>
    obtain ⟨k, found⟩ := Option.ne_none_iff_exists'.mp there
    obtain ⟨task, number⟩ := Option.filter_eq_some_iff.mp found
    refine .inl (.inl (.inr ⟨k, Option.mem_toList.mpr task, ?_⟩))
    simpa using number
  | poller n =>
    obtain ⟨p, found⟩ := Option.ne_none_iff_exists'.mp there
    obtain ⟨c, here, among⟩ := Option.bind_eq_some_iff.mp found
    refine .inl (.inr ⟨p, ?_, ?_⟩)
    · simpa [here] using List.mem_of_find?_eq_some among
    · simpa using List.find?_some among
  | refresher n =>
    obtain ⟨r, found⟩ := Option.ne_none_iff_exists'.mp there
    refine .inr ⟨r, List.mem_of_find?_eq_some found, ?_⟩
    simpa using List.find?_some found
  | writer | reader => simp

theorem length_crowd_le (s : Session) : s.crowd.length + s.calls.length < s.population := by
  have task : s.streamer.task.toList.length ≤ 1 := by cases s.streamer.task <;> simp
  have pollers : (s.link.connection.map (·.pollers)).toList.flatten.length
      = (s.link.connection.map (·.pollers.length)).getD 0 := by
    cases s.link.connection <;> simp
  simp only [crowd, population, List.length_append, List.length_map, List.length_cons,
    List.length_nil, pollers]
  omega

/-! ## Rest -/

/-- **Somebody may have something to do**, but nobody is left out: only those who are there are due
for a turn, and all others are minded. -/
structure Roused (s : Session) : Prop where
  idle : s.acting = none
  present : ∀ b ∈ s.queue, s.Present b
  twice : ∀ b, s.queue.count b ≤ 2
  minded : ∀ b, s.Minded b

/-- **Nobody has anything to do, and nobody is due for a turn.** -/
structure Rested (s : Session) : Prop where
  idle : s.acting = none
  queue : s.queue = []
  atEase : ∀ b, s.AtEase b

theorem Rested.quiescent (rested : s.Rested) (reachable : s.Reachable) : s.Quiescent :=
  reachable.locked.quiescent_iff.mpr fun a => (rested.atEase a).1

theorem Roused.fits (roused : s.Roused) : s.Fits s.callers (s.population - 1) := by
  have due := due_of_idle roused.idle
  have present (b : Actor) (there : s.Present b) : b ∈ s.crowd.toFinset :=
    List.mem_toFinset.mpr (mem_crowd there)
  refine ⟨s.crowd.toFinset,
    ⟨present, fun b member => ?_, fun b => ?_, fun b _ => roused.minded b⟩, ?_⟩
  · exact present b (roused.present b (due ▸ member))
  · exact due ▸ roused.twice b
  · have crowd := List.toFinset_card_le s.crowd
    have few := length_crowd_le s
    have spares : ∑ i ∈ s.callers, s.spare i ≤ s.calls.length := by
      refine (Finset.sum_le_card_nsmul _ _ 1 fun i _ => ?_).trans
        ((Nat.mul_one _).le.trans (card_callers_le s))
      unfold spare
      cases s.stage? i with
      | none => exact Nat.zero_le _
      | some st => cases st <;> simp [CallStage.spare]
    omega

/-- When there is no turn left, nobody has anything to do. -/
theorem Gathered.rested (gathered : s.Gathered cast) (locked : s.Locked) (ended : s.turn = none) :
    s.Rested := by
  obtain ⟨idle, ready, yielded⟩ := idle_of_turn ended
  have queue : s.queue = [] := by rw [Session.queue, ready, yielded, List.append_nil]
  refine ⟨idle, queue, fun b =>
    (gathered.minded b (by simp [idle])).resolve_right fun attended => ?_⟩
  -- whoever waits in line for a lock waits for one that goes on
  rcases attended_iff.mp attended with queued | ⟨g, inLine⟩
  · simp [queue] at queued
  · obtain ⟨orderly, needed⟩ := locked g
    cases holder : (s.locks.get g).holder with
    | none => simp [orderly.free holder] at inLine
    | some a =>
      have member : a ∈ (s.locks.get g).actors := List.mem_append_left _ (by simp [holder])
      rcases gathered.minded a (by simp [idle]) with ⟨waits, -⟩ | attended
      · exact waits.not_needs (needed a member)
      · rcases attended_iff.mp attended with queued | ⟨h, inLine'⟩
        · simp [queue] at queued
        · have same : h = g := (needed a member).unique
            ((locked h).2 a (List.mem_append_right _ inLine'))
          subst same
          have nodup := orderly.nodup
          rw [Lock.actors, holder, Option.toList_some, List.cons_append, List.nil_append,
            List.nodup_cons] at nodup
          exact nodup.1 inLine'

/-- **The turns that a session is given are enough**: it settles where nobody has anything to do. -/
theorem Roused.settle (roused : s.Roused) (reachable : s.Reachable) : s.settle.Rested := by
  let begun : Session := { s with stretches := 0 }
  have reachable' : begun.Reachable :=
    reachable.next (.schedule s.ready s.acting s.credit s.yielded 0)
  have alike : begun.Alike s := ⟨rfl, rfl, rfl, rfl, rfl, rfl, rfl⟩
  have fits : begun.Fits s.callers (s.population - 1) :=
    roused.fits.reschedule alike rfl rfl roused.idle fun _ _ queued => queued
  have all (i : Nat) (absent : i ∉ s.callers) : begun.stage? i = none :=
    stage?_of_not_mem_callers absent
  have enough : begun.pace s.callers (s.population - 1)
      ≤ 8 * (s.work + 1) * (s.population + 2) := by
    obtain ⟨cast, gathered, bound⟩ := fits
    have queue := gathered.length_due_le
    have same : begun.due.length = s.ready.length + s.yielded.length := by
      rw [due_of_idle (by exact roused.idle)]
      exact List.length_append
    have labour : begun.labour s.callers ≤ s.work := alike.labour s.callers ▸ labour_le_work s
    have some_ : 0 < s.population := Nat.lt_of_le_of_lt (Nat.zero_le _) (length_crowd_le s)
    have room : 8 * (s.population - 1) + 7 ≤ 8 * (s.population + 2) := by omega
    have spent := Nat.mul_le_mul room labour
    have flags : begun.pace s.callers (s.population - 1)
        = (8 * (s.population - 1) + 7) * begun.labour s.callers + 3 * s.ready.length
          + 4 * s.yielded.length := by
      rw [pace, if_pos (by exact roused.idle), if_neg (by simp [begun, roundLength])]
      rfl
    calc begun.pace s.callers (s.population - 1)
        ≤ 8 * (s.population + 2) * s.work + 8 * (s.population + 2) := by omega
      _ = 8 * (s.work + 1) * (s.population + 2) := by ring
  obtain ⟨ended, cast, gathered, -⟩ := fits.turns reachable' all enough
  obtain ⟨es, -, turns⟩ := turns_eq_after begun (8 * (s.work + 1) * (s.population + 2))
  exact gathered.rested (turns ▸ reachable'.after es).locked ended

end Session

end Cnc
