import Mathlib.Data.List.Nodup
import Cnc.Proofs.Attendance
import Cnc.Proofs.Rest

/-!
# Timers lie ahead

The times that actors wait for are read off the task, the pollers, the
refreshers and the calls (`Session.timers`); whoever waits for a time is there
(`Session.SetFor.present`). No two calls have the same index, and no two
refreshers the same number (`Session.Reachable.distinct`), so each of these
times is that of the actor it is noted for, and if that one waits, its time
lies ahead (`Session.SetFor.ahead`). As time passes, whoever waits goes on
waiting unless its time has come (`Session.Waits.elapse`).
-/

namespace Cnc.Session

open Traffic

variable {s t u : Session} {a b : Actor} {e : Event} {i n time : Nat} {st : CallStage}

/-! ## No two of a kind -/

/-- **No call is new**: those that are not over are in the same order. -/
def Dwindles (s t : Session) : Prop := t.indexes.Sublist s.indexes

namespace Dwindles

theorem of_calls (calls : t.calls = s.calls) : s.Dwindles t := by
  rw [Dwindles, indexes, indexes, calls]

theorem congr (dwindles : s.Dwindles t) (calls : u.calls = t.calls) : s.Dwindles u := by
  rw [Dwindles, indexes, calls]
  exact dwindles

theorem finish (calls : t.calls = s.calls) (r : Result) : s.Dwindles (t.finish i r) := by
  have fewer : (t.finish i r).indexes.Sublist t.indexes := List.filter_sublist.map _
  rwa [show t.indexes = s.indexes from congrArg (List.map Prod.fst) calls] at fewer

theorem finished (calls : t.calls = s.calls) (r : Result) : s.Dwindles (t.finish i r).endTurn :=
  (finish calls r).congr (alike_endTurn _).2.2.2.1

theorem setStage (calls : t.calls = s.calls) (st : CallStage) : s.Dwindles (t.setStage i st) := by
  have same : (t.setStage i st).indexes = s.indexes := by
    rw [indexes, indexes, ← calls, Session.setStage, List.map_map]
    refine List.map_congr_left fun c _ => ?_
    by_cases own : c.1 = i
    · simp [own]
    · simp [own]
  rw [Dwindles, same]

theorem use {g : Guarded} {inside after : Session → Session}
    (through : ∀ u : Session, u.calls = s.calls → s.Dwindles (after ((inside u).leave g))) :
    s.Dwindles (s.use a g inside after) := by
  rcases use_cases s a g inside after with alike | ⟨u, alike, same⟩
  · exact .of_calls alike.2.2.2.1
  · exact same ▸ through u alike.2.2.2.1

end Dwindles

theorem sendControl_dwindles {command : Realtime} {errand : Errand} {closed : Session → Session}
    (calls : t.calls = s.calls) (closes : (closed t).calls = t.calls) :
    s.Dwindles (t.sendControl i command errand closed) := by
  unfold sendControl
  split
  · exact .finished (closes.trans calls) _
  · next posted => exact .setStage ((post?_streamer posted).2.1.trans calls) _

theorem control_dwindles (calls : t.calls = s.calls) (c : Control) :
    s.Dwindles (t.control i c) := by
  cases c with
  | start program =>
    show s.Dwindles (t.startJob i program)
    unfold startJob
    dsimp only
    split
    · exact .finished calls _
    · split
      · exact .finished calls _
      · split
        · exact .finished calls _
        · exact .finish (by simp [announce, withTask, calls]) _
  | pause =>
    simp only [control]
    split
    · exact sendControl_dwindles (by simp [calls]) rfl
    · exact .finished calls _
  | resume =>
    simp only [control]
    split
    · exact sendControl_dwindles calls (by simp)
    · exact .finished calls _
  | stop =>
    simp only [control]
    split
    · exact sendControl_dwindles (by simp [calls]) (by simp)
    · exact .finished calls _

theorem beginCall_dwindles (s : Session) (i : Nat) (c : Call) : s.Dwindles (s.beginCall i c) := by
  have send (p : Payload) (errand : Errand) : s.Dwindles (s.send i p errand) := by
    unfold Session.send
    split
    · exact .finish rfl _
    · next posted => exact .setStage (post?_streamer posted).2.1 _
  cases c with
  | connect port refusal =>
    show s.Dwindles (s.connect i port refusal)
    unfold connect
    split
    · exact .finish rfl _
    · split
      · exact .finish (by simp) _
      · exact .finish (by simp) _
  | disconnect =>
    refine .finish ?_ _
    cases here : s.link.connection with
    | none => simp [endConnection, here]
    | some c => exact (alike_endConnection here).2.2.2.1
  | write line => exact send _ _
  | writeAcked line => exact send _ _
  | realtime command => exact send _ _
  | writeSetting id value delay => exact send _ _
  | control c =>
    show s.Dwindles (s.takeTurn i c)
    unfold takeTurn
    dsimp only
    split
    · exact control_dwindles rfl c
    · exact .setStage rfl _
  | wait =>
    simp only [beginCall]
    split
    · exact .finish rfl _
    · exact .setStage rfl _
  | poll interval =>
    show s.Dwindles (s.addPoller i interval)
    unfold addPoller
    split
    · exact .finish rfl _
    · split
      · exact .finish rfl _
      · exact .finish (by simp [withConnection]) _
  | confirmSetting id value delay timeout =>
    show s.Dwindles (s.beginConfirmation i id value delay timeout)
    unfold beginConfirmation
    dsimp only
    split
    · exact .finish rfl _
    · next posted =>
      exact .setStage ((post?_streamer posted).2.1) _
  | settings | resetSettings | jobLines | ports => exact .finish rfl _

theorem failErrand_dwindles (s : Session) (i : Nat) (errand : Errand) (f : LinkError) :
    s.Dwindles (s.failErrand i errand f) := by
  cases errand with
  | report | reportAnswer | realtime => exact .finish rfl _
  | pause | resume => exact .finished rfl _
  | stop => exact .finished (by simp) _
  | setting delay confirmation => cases confirmation <;> exact .finish rfl _

theorem doErrand_dwindles {x : Nat} (calls : t.calls = s.calls) (errand : Errand) :
    s.Dwindles (t.doErrand i x errand) := by
  cases errand with
  | report | realtime => exact .finish calls _
  | reportAnswer => exact (Dwindles.setStage (t := t.give i .sent) calls _).congr rfl
  | pause => exact .finished calls _
  | resume => exact .finished (by simp [calls]) _
  | stop => exact .finished (by simp [calls]) _
  | setting delay confirmation =>
    have refreshing : (t.spawnRefresher delay).calls = s.calls := by simp [spawnRefresher, calls]
    cases confirmation with
    | none => exact .finish refreshing _
    | some c => exact (Dwindles.setStage refreshing _).congr rfl

theorem confirmTurn_dwindles (s : Session) (i : Nat) (key : String) (sub deadline : Nat) :
    s.Dwindles (s.confirmTurn i key sub deadline) := by
  unfold confirmTurn
  dsimp only
  split
  · split
    · exact .finish rfl _
    · exact .of_calls (by simp)
  · split
    · split
      · exact .finish rfl _
      · exact .of_calls rfl
    · split
      · exact .of_calls rfl
      · exact (Dwindles.setStage rfl _).congr rfl
      · exact .finish rfl _

theorem callTurn_dwindles (s : Session) (i : Nat) : s.Dwindles (s.callTurn i) := by
  unfold callTurn
  cases stage : s.stage? i with
  | none => exact .of_calls rfl
  | some st =>
    cases st with
    | begin c => exact beginCall_dwindles s i c
    | turn c =>
      dsimp only
      split
      · exact control_dwindles rfl c
      · exact .of_calls rfl
    | sending x errand =>
      dsimp only
      split
      · exact .of_calls rfl
      · split
        · exact failErrand_dwindles s i errand _
        · unfold countErrand
          dsimp only
          split
          · refine .use fun u calls => (Dwindles.setStage ?_ _).congr rfl
            cases here : u.link.connection with
            | none => simp [dropAnswers, here, calls]
            | some c => simp [(alike_dropAnswers here).2.2.2.1, calls]
          · exact (Dwindles.setStage rfl _).congr rfl
    | counting x errand =>
      refine .use fun u calls => doErrand_dwindles ?_ errand
      rw [(alike_leave _ _).2.2.2.1]
      unfold countSent
      split <;> exact calls
    | awaitingAnswer x =>
      dsimp only
      split
      · exact .of_calls rfl
      · exact .finish rfl _
      · exact .finish rfl _
    | awaitingIdle =>
      dsimp only
      split
      · exact .finish rfl _
      · exact .of_calls rfl
    | confirming key sub deadline => exact confirmTurn_dwindles s i key sub deadline
    | lookingUp key => exact .use fun u calls => .finish (by simp [calls]) _

/-- **No two calls have the same index**, and no two refreshers the same number. -/
structure Distinct (s : Session) : Prop where
  calls : s.indexes.Nodup
  refreshers : (s.refreshers.map (·.number)).Nodup

theorem Dwindles.next (e : Event) : s.Dwindles (s.next e) ∨
    ∃ i c, e = .call i c ∧ s.stage? i = none ∧ (s.next e).indexes = s.indexes ++ [i] := by
  cases e with
  | act a =>
    by_cases call : ∃ i, a = .call i
    · obtain ⟨i, rfl⟩ := call
      exact .inl (callTurn_dwindles s i)
    · have steps := next_steps s (.act a)
      generalize s.next (.act a) = t at steps
      cases steps with
      | call => exact absurd ⟨_, rfl⟩ call
      | stream _ _ calls | aside _ calls => exact .inl (.of_calls calls)
      | gone => exact .inl (.of_calls rfl)
  | call i c =>
    by_cases taken : (s.stage? i).isSome = true
    · exact .inl (.of_calls (by simp [Session.next, taken]))
    · refine .inr ⟨i, c, rfl, Option.not_isSome_iff_eq_none.mp taken, ?_⟩
      rw [show s.next (.call i c) = s.begin i (.call c) from if_neg taken]
      have begun := (alike_wake { s with calls := s.calls ++ [(i, .begin c)] } (.call i)).2.2.2.1
      show List.map Prod.fst (Session.wake _ _).calls = _
      rw [begun]
      simp [indexes]
  | device i d =>
    have steps := next_steps s (.device i d)
    generalize s.next (.device i d) = t at steps
    cases steps with
    | aside _ calls => exact .inl (.of_calls calls)
  | schedule | elapse | observe => exact .inl (.of_calls rfl)

theorem Distinct.next (distinct : s.Distinct) (numbered : s.Numbered) (e : Event) :
    (s.next e).Distinct := by
  refine ⟨?calls, ?refreshers⟩
  case calls =>
    rcases Dwindles.next (s := s) e with dwindles | ⟨i, c, -, new, added⟩
    · exact dwindles.nodup distinct.calls
    · rw [added]
      exact List.nodup_append.mpr ⟨distinct.calls, by simp, fun j before k now => by
        obtain rfl := List.mem_singleton.mp now
        rintro rfl
        exact stage?_eq_none_iff.mp new before⟩
  case refreshers =>
    by_cases own : ∃ n, e = .act (.refresher n)
    · obtain ⟨n, rfl⟩ := own
      exact (refresherTurn_numbers s n).1.nodup distinct.refreshers
    · rcases next_refreshers (s := s) (fun n same => own ⟨n, same⟩) with
        ⟨same, -⟩ | ⟨_, _, _, _, -, -, added, -⟩
      · rw [same]
        exact distinct.refreshers
      · rw [added, List.map_append]
        refine List.nodup_append.mpr ⟨distinct.refreshers, by simp, fun m before k now => ?_⟩
        obtain ⟨r, member, rfl⟩ := List.mem_map.mp before
        obtain rfl : k = s.spawned := by simpa using now
        exact Nat.ne_of_lt (numbered.timers r member)

theorem Reachable.distinct (reachable : s.Reachable) : s.Distinct := by
  obtain ⟨timeout, es, rfl⟩ := reachable
  induction es using List.reverseRecOn with
  | nil => constructor <;> simp [initial, indexes]
  | append_singleton es e ih =>
    rw [after_append, after_cons, after_nil]
    exact ih.next (Reachable.of_run timeout es).numbered e

/-! ## Timers -/

/-- **Who waits for a time.** -/
inductive SetFor (s : Session) (time : Nat) : Actor → Prop
  | job {k : StreamTask} {x : Nat} (task : s.streamer.task = some k)
      (stage : k.stage = .awaiting x (some time)) : SetFor s time (.job k.job.number)
  | poller {c : Connection} {p : Poller} (here : s.link.connection = some c)
      (member : p ∈ c.pollers) (sending : p.sending = none) (due : p.due = time) :
    SetFor s time (.poller p.number)
  | refresher {r : Refresher} (member : r ∈ s.refreshers) (sending : r.sending = none)
      (due : r.due = time) : SetFor s time (.refresher r.number)
  | call {i sub : Nat} {key : String} (member : (i, .confirming key sub time) ∈ s.calls) :
    SetFor s time (.call i)

theorem mem_timers : (time, a) ∈ s.timers ↔ s.SetFor time a := by
  constructor
  · intro member
    simp only [timers, List.mem_append] at member
    rcases member with ((job | poller) | refresher) | call
    · split at job
      · next k x deadline task =>
        obtain ⟨rfl, rfl⟩ := Prod.mk.inj (List.mem_singleton.mp job)
        exact .job task rfl
      · exact absurd job (by simp)
    · split at poller
      · next c here =>
        obtain ⟨p, among, same⟩ := List.mem_map.mp poller
        obtain ⟨rfl, rfl⟩ := Prod.mk.inj same
        obtain ⟨member, sending⟩ := List.mem_filter.mp among
        exact .poller here member (by simpa using sending) rfl
      · exact absurd poller (by simp)
    · obtain ⟨r, among, same⟩ := List.mem_map.mp refresher
      obtain ⟨rfl, rfl⟩ := Prod.mk.inj same
      obtain ⟨member, sending⟩ := List.mem_filter.mp among
      exact .refresher member (by simpa using sending) rfl
    · obtain ⟨⟨i, st⟩, among, same⟩ := List.mem_filterMap.mp call
      dsimp only at same
      split at same
      · obtain ⟨rfl, rfl⟩ := Prod.mk.inj (Option.some.inj same)
        exact .call among
      · exact absurd same (by simp)
  · intro timed
    simp only [timers, List.mem_append]
    cases timed with
    | @job k x task stage =>
      obtain ⟨job, cursor, stage'⟩ := k
      obtain rfl : stage' = .awaiting x (some time) := stage
      simp [task]
    | poller here member sending due =>
      refine .inl (.inl (.inr ?_))
      rw [here]
      exact List.mem_map.mpr ⟨_, List.mem_filter.mpr ⟨member, by simp [sending]⟩, by rw [due]⟩
    | refresher member sending due =>
      refine .inl (.inr ?_)
      exact List.mem_map.mpr ⟨_, List.mem_filter.mpr ⟨member, by simp [sending]⟩, by rw [due]⟩
    | call member => exact .inr (List.mem_filterMap.mpr ⟨_, member, rfl⟩)

/-- Who waits for a time is there. -/
theorem SetFor.present (timed : s.SetFor time a) : s.Present a := by
  have found {α : Type} {l : List α} {x : α} {p : α → Bool} (member : x ∈ l) (own : p x = true) :
      l.find? p ≠ none := fun gone =>
    absurd own (List.find?_eq_none.mp gone x member)
  cases timed with
  | job task =>
    show s.task? _ ≠ none
    simp [task?_number task]
  | @poller c p here member =>
    show s.poller? _ ≠ none
    simp only [poller?, here, Option.bind_some]
    exact found member (by simp)
  | refresher member => exact found member (by simp)
  | call member =>
    intro gone
    exact stage?_eq_none_iff.mp gone (List.mem_map_of_mem member)

theorem find?_of_nodup {α : Type} {l : List α} {x : α} {number : α → Nat}
    (once : (l.map number).Nodup) (member : x ∈ l) :
    l.find? (number · = number x) = some x := by
  cases found : l.find? (number · = number x) with
  | none =>
    have apart := List.find?_eq_none.mp found x member
    simp at apart
  | some y =>
    have same : number y = number x := by simpa using List.find?_some found
    rw [List.inj_on_of_nodup_map once (List.mem_of_find?_eq_some found) member same]

/-- **Whoever waits for a time** is not late. -/
theorem SetFor.ahead (reachable : s.Reachable) (timed : s.SetFor time a) (waits : s.Waits a) :
    s.now < time := by
  have distinct := reachable.distinct
  cases timed with
  | job task stage =>
    have own := (waits_job_iff (task?_number task)).mp waits
    simp only [TaskWaits, stage, Option.any_some, decide_eq_false_iff_not] at own
    exact Nat.lt_of_not_le own.2.2
  | @poller c p here member sending due =>
    have once : (c.pollers.map (·.number)).Nodup := (reachable.sound c here).numbers
    have found : s.poller? p.number = some p := by
      simp only [poller?, here, Option.bind_some]
      exact find?_of_nodup once member
    have own := (waits_poller_iff found).mp waits
    rw [sending] at own
    exact due ▸ own
  | @refresher r member sending due =>
    have own := (waits_refresher_iff (find?_of_nodup distinct.refreshers member)).mp waits
    rw [sending] at own
    exact due ▸ own
  | @call i sub key member =>
    have stage : s.stage? i = some (.confirming key sub time) := by
      cases found : s.stage? i with
      | none => exact absurd (List.mem_map_of_mem member) (stage?_eq_none_iff.mp found)
      | some st =>
        have same := List.inj_on_of_nodup_map distinct.calls (mem_calls found) member rfl
        rw [(Prod.mk.inj same).2]
    exact ((waits_call_iff stage).mp waits).1

/-- One that is not there waits. -/
theorem waits_of_absent (absent : ¬ s.Present a) : s.Waits a := by
  cases a with
  | writer | reader => exact absurd trivial absent
  | _ =>
    have gone := not_not.mp absent
    simp only [Waits, gone]

/-- **Whoever waits goes on waiting**, unless it is its time. -/
theorem Waits.elapse (waits : s.Waits a) (now : Nat) :
    ({ s with now } : Session).Waits a ∨ ∃ time ≤ now, s.SetFor time a := by
  let later : Session := { s with now }
  -- one that waits for a time, or has sent something
  have timer {due : Nat} {sending : Option Nat} (own : s.TimerWaits due sending)
      (timed : sending = none → s.SetFor due a) :
      later.TimerWaits due sending ∨ ∃ time ≤ now, s.SetFor time a := by
    cases sending with
    | some x => exact .inl own
    | none => exact (Nat.lt_or_ge now due).imp id fun reached => ⟨due, reached, timed rfl⟩
  by_cases present : s.Present a
  case neg =>
    refine .inl (waits_of_absent (s := later) fun there => present ?_)
    exact (present_congr rfl rfl rfl rfl).mp there
  cases a with
  | call i =>
    obtain ⟨st, stage⟩ := Option.ne_none_iff_exists'.mp present
    have own := (waits_call_iff stage).mp waits
    have goal := waits_call_iff (s := later) stage
    cases st with
    | confirming key sub deadline =>
      exact (Nat.lt_or_ge now deadline).imp (fun early => goal.mpr ⟨early, own.2⟩)
        fun reached => ⟨deadline, reached, .call (mem_calls stage)⟩
    | _ => exact .inl (goal.mpr own)
  | job n =>
    obtain ⟨k, found⟩ := Option.ne_none_iff_exists'.mp present
    obtain ⟨task, number⟩ := Option.filter_eq_some_iff.mp found
    obtain rfl : k.job.number = n := by simpa using number
    have own := (waits_job_iff found).mp waits
    have goal := waits_job_iff (s := later) found
    cases stage : k.stage with
    | awaiting x deadline =>
      simp only [TaskWaits, stage] at own goal
      cases deadline with
      | none => exact .inl (goal.mpr own)
      | some deadline =>
        exact (Nat.lt_or_ge now deadline).imp
          (fun early => goal.mpr ⟨own.1, own.2.1, by simpa [later] using early⟩)
          fun reached => ⟨deadline, reached, .job task stage⟩
    | _ =>
      simp only [TaskWaits, stage] at own goal
      exact .inl (goal.mpr own)
  | poller n =>
    obtain ⟨p, found⟩ := Option.ne_none_iff_exists'.mp present
    obtain ⟨c, here, among⟩ := Option.bind_eq_some_iff.mp found
    obtain rfl : p.number = n := by simpa using List.find?_some among
    refine (timer ((waits_poller_iff found).mp waits) fun sending => ?_).imp_left
      (waits_poller_iff (s := later) found).mpr
    exact .poller here (List.mem_of_find?_eq_some among) sending rfl
  | refresher n =>
    obtain ⟨r, found⟩ := Option.ne_none_iff_exists'.mp present
    obtain rfl : r.number = n := by simpa using List.find?_some found
    refine (timer ((waits_refresher_iff found).mp waits) fun sending => ?_).imp_left
      (waits_refresher_iff (s := later) found).mpr
    exact .refresher (List.mem_of_find?_eq_some found) sending rfl
  | writer | reader => exact .inl waits

end Cnc.Session
