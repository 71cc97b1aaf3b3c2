import Cnc.Proofs.CallEnds
import Cnc.Proofs.Rest

/-!
# Between turns

Between two turns, all who are there or due for a turn belong to a finite
cast, nobody is due for more than two turns, and nobody is left out
(`Session.Gathered`). Who has the next turn finds it so and, however the turn
ends, leaves it so (`Session.act_ends`, `Session.TurnEnd.gathered`).
-/

namespace Cnc.Session

open Traffic

variable {s t u : Session} {a b : Actor} {cast : Finset Actor} {i : Nat} {g : Guarded}

/-- Whoever waits needs no guarded part. -/
theorem Waits.not_needs (waits : s.Waits a) : ¬ s.Needs a g := by
  rintro ⟨post, need, sent⟩
  cases a with
  | call i =>
    cases stage : s.stage? i with
    | none => simp [need?, stage] at need
    | some st =>
      have own := (waits_call_iff stage).mp waits
      cases st with
      | sending x e =>
        simp only [need?, stage, Option.ite_none_right_eq_some, Option.some.injEq,
          Prod.mk.injEq] at need
        have told := sent x need.2.2.symm
        exact absurd (told.symm.trans own) (by simp)
      | counting | lookingUp => exact own
      | _ => simp [need?, stage] at need
  | job n =>
    obtain ⟨k, task, need⟩ := Option.bind_eq_some_iff.mp need
    have own := (waits_job_iff task).mp waits
    cases stage : k.stage with
    | sending x =>
      simp only [stage, Option.some.injEq, Prod.mk.injEq] at need
      simp only [TaskWaits, stage] at own
      exact absurd ((sent x need.2.symm).symm.trans own) (by simp)
    | _ => simp [stage] at need
  | poller n =>
    obtain ⟨p, found, need⟩ := Option.bind_eq_some_iff.mp need
    obtain ⟨x, sending, need⟩ := Option.map_eq_some_iff.mp need
    have own := (waits_poller_iff found).mp waits
    rw [sending] at own
    exact absurd ((sent x (Prod.mk.inj need).2.symm).symm.trans own) (by simp)
  | refresher n =>
    obtain ⟨r, found, need⟩ := Option.bind_eq_some_iff.mp need
    obtain ⟨x, sending, need⟩ := Option.map_eq_some_iff.mp need
    have own := (waits_refresher_iff found).mp waits
    rw [sending] at own
    exact absurd ((sent x (Prod.mk.inj need).2.symm).symm.trans own) (by simp)
  | writer =>
    obtain ⟨c, here, need⟩ := Option.bind_eq_some_iff.mp need
    simp only [Waits, here] at waits
    cases stage : c.writer <;> simp_all
  | reader =>
    obtain ⟨c, here, need⟩ := Option.bind_eq_some_iff.mp need
    simp only [Waits, here] at waits
    simp [waits.1] at need

/-- Whoever needs a guarded part is there. -/
theorem Needs.present (needs : s.Needs a g) : s.Present a := by
  obtain ⟨post, need, -⟩ := needs
  cases a with
  | call i | job n | poller n | refresher n =>
    intro gone
    simp [need?, gone] at need
  | writer | reader => trivial

/-- Whoever waits has nothing to do with the locks. -/
theorem Locked.atEase (locked : s.Locked) (waits : s.Waits a) : s.AtEase a :=
  ⟨waits, fun g has => waits.not_needs ((locked g).2 a (List.mem_append_left _ (by simp [has])))⟩

/-- **Those who are due for a turn**, the present actor first. -/
def due (s : Session) : List Actor := s.acting.toList ++ s.queue

theorem due_of_acting (acts : s.acting = some a) : s.due = a :: s.queue := by simp [due, acts]

theorem due_of_idle (idle : s.acting = none) : s.due = s.queue := by simp [due, idle]

/-- **Between turns** nobody is left out, and nobody is due for more than two turns; all who are
there, or due, belong to a `cast`. -/
structure Gathered (cast : Finset Actor) (s : Session) : Prop where
  present : ∀ b, s.Present b → b ∈ cast
  due : ∀ b ∈ s.due, b ∈ cast
  twice : ∀ b, s.due.count b ≤ 2
  minded : ∀ b, s.acting ≠ some b → s.Minded b

/-! ## Who has handed a post over -/

/-- **Whoever waits for an answer** has handed the line over. -/
theorem sender_of_awaitingAnswer {x : Nat} (timeout : Option Nat) (es : List Event)
    (stage : ((initial timeout).after es).stage? i = some (.awaitingAnswer x)) :
    ((initial timeout).after es).link.traffic.sender? x = some (.call i) := by
  induction es using List.reverseRecOn with
  | nil => exact absurd stage (by simp [initial, stage?])
  | append_singleton es e ih =>
    rw [after_append, after_cons, after_nil] at stage ⊢
    have onward := (onward_next (filed_after timeout es) e).2
    have kept (sender : ((initial timeout).after es).link.traffic.sender? x = some (.call i)) :
        (((initial timeout).after es).next e).link.traffic.sender? x = some (.call i) := by
      rw [sender?_of_kept onward.origins (known_of_sender? sender), sender]
    rcases next_follows _ e stage with ⟨st, before, follows⟩ | ⟨c, -, -, begins⟩
    · cases follows with
      | stay => exact kept (ih before)
      | answer =>
        obtain ⟨counted, booked⟩ := booked_after timeout es
        exact kept (booked.sender (.call i) x (by simp [inHand?, before, CallStage.inHand?]))
    · exact absurd begins (by simp)

theorem Reachable.owned (reachable : s.Reachable) : s.Owned := by
  have assigned := reachable.assigned
  obtain ⟨timeout, es, rfl⟩ := reachable
  obtain ⟨counted, booked⟩ := booked_after timeout es
  rintro b x (delivery | answer)
  · refine booked.sender b x ?_
    cases b with
    | call i =>
      simp only [awaitsDelivery] at delivery
      split at delivery
      · next y e stage =>
        have same : y = x := by simpa using delivery
        simp [inHand?, stage, CallStage.inHand?, same]
      · exact absurd delivery (by simp)
    | job n =>
      obtain ⟨k, task, stage⟩ := (Option.any_eq_true _ _).mp delivery
      have stage : k.stage = .sending x := by simpa using stage
      simp [inHand?, task, stage, StreamStage.inHand?]
    | poller n =>
      obtain ⟨p, found, sending⟩ := (Option.any_eq_true _ _).mp delivery
      have sending : p.sending = some x := by simpa using sending
      simp [inHand?, found, sending]
    | refresher n =>
      obtain ⟨r, found, sending⟩ := (Option.any_eq_true _ _).mp delivery
      have sending : r.sending = some x := by simpa using sending
      simp [inHand?, found, sending]
    | writer | reader => exact absurd delivery (by simp [awaitsDelivery])
  · cases b with
    | call i =>
      exact sender_of_awaitingAnswer timeout es (by simpa [awaitsAnswer] using answer)
    | job n =>
      obtain ⟨k, task, stage⟩ := (Option.any_eq_true _ _).mp answer
      obtain ⟨own, number⟩ := Option.filter_eq_some_iff.mp task
      obtain rfl : k.job.number = n := by simpa using number
      refine assigned.sender k x own ?_
      cases same : k.stage <;> simp_all [StreamStage.ticket?]
    | poller | refresher | writer | reader => exact absurd answer (by simp [awaitsAnswer])

/-! ## Every turn -/

/-- **Whoever has a turn** leaves nobody out. -/
theorem act_ends (tended : s.Tended cast a) (acting : s.acting = none) (reachable : s.Reachable)
    (new : ∀ i st b, a = .call i → s.stage? i = some st → s.newcomer? st = some b → b ∈ cast) :
    TurnEnd cast a (s.act a) := by
  have writer : .writer ∈ cast := tended.present _ trivial
  have owned := reachable.owned
  cases a with
  | call i =>
    exact callTurn_ends tended acting owned reachable.governed reachable.queued writer
      fun st stage b => new i st b rfl stage
  | job n =>
    show TurnEnd cast _ (s.jobTurn n)
    unfold jobTurn
    cases found : s.task? n with
    | none => exact .waits tended (waits_of_no_task? found)
    | some k =>
      obtain ⟨task, number⟩ := Option.filter_eq_some_iff.mp found
      obtain rfl : k.job.number = n := by simpa using number
      exact taskTurn_ends tended acting writer task
  | poller n => exact pollerTurn_ends tended acting writer
  | refresher n => exact refresherTurn_ends tended acting writer
  | writer => exact writerTurn_ends tended acting owned
  | reader => exact readerTurn_ends tended acting owned

theorem Reachable.locked (reachable : s.Reachable) : s.Locked := by
  obtain ⟨timeout, es, rfl⟩ := reachable
  exact locked_after timeout es

/-- What the present actor finds. -/
theorem Gathered.tended (gathered : s.Gathered cast) (reachable : s.Reachable)
    (acts : s.acting = some a) : Tended cast a { s with acting := none } where
  acting := .inl rfl
  self := gathered.due a (due_of_acting acts ▸ List.mem_cons_self)
  present := gathered.present
  turns i member := by
    obtain ⟨st, stage, -⟩ := (reachable.queued.mem i).mp member
    exact gathered.present (.call i) fun gone => absurd (gone.symm.trans stage) (by simp)
  locks g b member := gathered.present b ((reachable.locked g).2 b member).present
  queue b member := gathered.due b (List.mem_append_right _ member)
  twice b := by
    have few := gathered.twice b
    rwa [due_of_acting acts] at few
  minded b other := gathered.minded b fun same => other (Option.some.inj (same.symm.trans acts))

/-- What the present actor leaves behind. -/
theorem TurnEnd.gathered (ends : TurnEnd cast a s) (locked : s.Locked) : s.Gathered cast := by
  -- whoever acts goes on; everybody else is minded already
  have leaves (tended : s.Tended cast a) (own : s.acting = none → s.Minded a) :
      s.Gathered cast := by
    have few := tended.twice
    refine ⟨tended.present, fun b member => ?_, fun b => ?_, fun b other => ?_⟩
    · rcases List.mem_append.mp member with acts | queued
      · have acts := Option.mem_toList.mp acts
        rcases tended.acting with none | same
        · exact absurd (none.symm.trans acts) (by simp)
        · exact Option.some.inj (same.symm.trans acts) ▸ tended.self
      · exact tended.queue b queued
    · have few := few b
      rw [List.count_cons] at few
      rcases tended.acting with none | same
      · rw [due_of_idle none]
        omega
      · rwa [due_of_acting same, List.count_cons]
    · by_cases same : b = a
      · subst same
        exact own (tended.acting.resolve_right other)
      · exact tended.minded b same
  cases ends with
  | goesOn tended acting =>
    exact leaves tended fun none => absurd (none.symm.trans acting) (by simp)
  | waits tended waits => exact leaves tended fun _ => .inl (locked.atEase waits)
  | inLine tended attended => exact leaves tended fun _ => .inr attended
  | @yields u tended acting same =>
    subst same
    have queue : (u.giveWay a).queue = u.queue ++ [a] := (List.append_assoc _ _ _).symm
    have idle : (u.giveWay a).acting = none := acting
    have due : (u.giveWay a).due = u.queue ++ [a] := (due_of_idle idle).trans queue
    refine ⟨tended.present, fun b member => ?_, fun b => ?_, fun b _ => ?_⟩
    · rw [due] at member
      rcases List.mem_append.mp member with queued | own
      · exact tended.queue b queued
      · exact List.mem_singleton.mp own ▸ tended.self
    · have few := tended.twice b
      rw [due, List.count_append, List.count_singleton]
      rw [List.count_cons] at few
      exact few
    · by_cases same : b = a
      · subst same
        exact .inr (attended_iff.mpr (.inl (by simp [queue])))
      · refine (tended.minded b same).imp id fun attended => attended_iff.mpr ?_
        exact (attended_iff.mp attended).imp_left fun queued => by
          rw [queue]
          exact List.mem_append_left _ queued

end Cnc.Session
