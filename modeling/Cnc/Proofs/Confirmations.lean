import Mathlib.Data.List.Infix
import Cnc.Proofs.Release
import Cnc.Proofs.Reports

/-!
# What a confirmed setting was confirmed by

A call that confirms a setting listens to the link before it writes the
setting. Once the line is sent it lets a refresher ask for all settings some
time later, and waits for a report of the setting. It takes the first one that
it hears, from wherever that came, and gives the value that is then stored.

So the value was reported in a frame that was received since the call began,
or that the reader was still busy with then. That may be before the refresher
asked, and then the value may be the one that the device had before. If no
report of the setting is received until the request of the refresher went over
the wire, the value is one that the device reported after the request
(`Session.reported_since`).
-/

namespace Cnc

/-- **How far a call that confirms a setting has come**, and whether it has asked a refresher to
read the settings back. -/
inductive CallStage.Confirming (id : UInt16) (value : String) (delay timeout : Nat) :
    Bool → CallStage → Prop
  | begin : Confirming id value delay timeout false
      (.begin (.confirmSetting id value delay timeout))
  | sending (x sub : Nat) : Confirming id value delay timeout false
      (.sending x (.setting delay (some ⟨toString id, sub, timeout⟩)))
  | counting (x sub : Nat) : Confirming id value delay timeout false
      (.counting x (.setting delay (some ⟨toString id, sub, timeout⟩)))
  | confirming (sub deadline : Nat) :
    Confirming id value delay timeout true (.confirming (toString id) sub deadline)
  | lookingUp : Confirming id value delay timeout true (.lookingUp (toString id))

namespace Session

open CallStage (Confirming)

variable {s t s₀ : Session} {e : Event} {es : List Event} {i : Nat} {st : CallStage} {id : UInt16}
  {value : String} {delay timeout : Nat} {asked : Bool}

/-! ## The turns of the call -/

/-- **What the turn of a call that confirms a setting does**: it goes on, asks a refresher, or
returns. It returns a value only after a report of the setting, and then the one that is stored. -/
inductive ConfirmTurn (s : Session) (i : Nat) (id : UInt16) (value : String) (delay timeout : Nat)
    (asked : Bool) (st : CallStage) (t : Session) : Prop
  | goesOn {st' : CallStage} (stage : t.stage? i = some st')
    (confirming : Confirming id value delay timeout asked st') (spawned : t.spawned = s.spawned)
    (pending : t.resultsOf i = s.resultsOf i)
  | asks {st' : CallStage} (first : asked = false) (stage : t.stage? i = some st')
    (confirming : Confirming id value delay timeout true st')
    (spawned : t.spawned = s.spawned + 1) (pending : t.resultsOf i = s.resultsOf i)
  | returns {r : Result} (result : t.resultsOf i = s.resultsOf i ++ [r])
    (spawned : t.spawned = s.spawned) (reports : ∀ v, r = .reported (some v) →
      asked = true ∧ st = .lookingUp (toString id) ∧
        s.link.settings.get? (toString id) = some v)

namespace ConfirmTurn

/-- The call stays where it is. -/
theorem wait (stage : s.stage? i = some st)
    (confirming : Confirming id value delay timeout asked st) (alike : t.Alike s) :
    s.ConfirmTurn i id value delay timeout asked st t :=
  .goesOn ((alike.stage? i).trans stage) confirming alike.2.2.2.2.2.1
    (resultsOf_congr alike.2.2.2.2.2.2)

/-- Who goes on at once makes no difference. -/
theorem again {a : Actor} (confirms : s.ConfirmTurn i id value delay timeout asked st t) :
    s.ConfirmTurn i id value delay timeout asked st (t.again a) := by
  cases confirms with
  | goesOn stage confirming spawned pending => exact .goesOn stage confirming spawned pending
  | asks first stage confirming spawned pending =>
    exact .asks first stage confirming spawned pending
  | returns result spawned reports => exact .returns result spawned reports

/-- The call goes on to another stage. -/
theorem setStage {st' : CallStage} (stage : s.stage? i = some st) (calls : t.calls = s.calls)
    (spawned : t.spawned = s.spawned) (results : t.results = s.results)
    (confirming : Confirming id value delay timeout asked st') :
    s.ConfirmTurn i id value delay timeout asked st (t.setStage i st') := by
  refine .goesOn ?_ confirming spawned (resultsOf_congr results)
  rw [stage?_setStage, if_pos rfl, stage?_congr calls, stage]
  rfl

/-- The call returns no value. -/
theorem finish {r : Result} (spawned : t.spawned = s.spawned) (results : t.results = s.results)
    (real : r ≠ .noDevice) (other : ∀ v, r ≠ .reported (some v)) :
    s.ConfirmTurn i id value delay timeout asked st (t.finish i r) :=
  .returns ((resultsOf_finish t i real).trans (congrArg (· ++ [r]) (resultsOf_congr results)))
    spawned fun v own => absurd own (other v)

end ConfirmTurn

theorem post?_spawned {a : Actor} {p : Payload} {x : Nat} (posted : s.post? a p = some (x, t)) :
    t.spawned = s.spawned := by
  obtain ⟨c, -, made⟩ := Option.map_eq_some_iff.mp posted
  obtain ⟨-, rfl⟩ := Prod.mk.inj made
  exact (alike_wakeAll _ _).2.2.2.2.2.1

/-- **The turn of a call that confirms a setting.** -/
theorem callTurn_confirms (stage : s.stage? i = some st)
    (confirming : Confirming id value delay timeout asked st) :
    s.ConfirmTurn i id value delay timeout asked st (s.callTurn i) := by
  have stay : s.ConfirmTurn i id value delay timeout asked st s := .wait stage confirming (.refl s)
  unfold callTurn
  rw [stage]
  cases confirming with
  | begin =>
    show s.ConfirmTurn i _ _ _ _ _ _ (s.beginConfirmation i id value delay timeout)
    unfold beginConfirmation
    dsimp only
    split
    · exact .finish rfl rfl (by simp) (by simp)
    · next x t posted =>
      have controlled := post?_controlled posted
      exact .setStage stage (congrArg Controlled.calls controlled) (post?_spawned posted :)
        (congrArg Controlled.results controlled) (.sending x _)
  | sending x sub =>
    dsimp only
    split
    · exact stay
    · next d _ =>
      cases fails : d.error? with
      | some f => exact .finish rfl rfl (by simp) (by simp)
      | none =>
        exact (ConfirmTurn.setStage (t := s.spend) stage rfl rfl rfl (.counting x sub)).again
  | counting x sub =>
    dsimp only
    rcases use_cases s (.call i) .stats (·.countSent x)
      (·.doErrand i x (.setting delay (some ⟨toString id, sub, timeout⟩)))
      with alike | ⟨u, alike, same⟩
    · exact .wait stage (.counting x sub) alike
    · rw [same]
      have left := alike_leave (u.countSent x) .stats
      have controlled := (left.controlled.trans (countSent_controlled u x)).trans alike.controlled
      have calls : ((u.countSent x).leave .stats).calls = s.calls :=
        congrArg Controlled.calls controlled
      have results : ((u.countSent x).leave .stats).results = s.results :=
        congrArg Controlled.results controlled
      have spawned := left.2.2.2.2.2.1.trans
        ((countSent_spawned u x).trans alike.2.2.2.2.2.1)
      generalize (u.countSent x).leave .stats = v at calls results spawned
      have asked : ((v.spawnRefresher delay).setStage i
          (.confirming (toString id) sub (v.now + timeout))).stage? i
            = some (.confirming (toString id) sub (v.now + timeout)) := by
        have calls : (v.spawnRefresher delay).calls = s.calls := by
          simpa [spawnRefresher] using calls
        rw [stage?_setStage, if_pos rfl, stage?_congr calls, stage]
        rfl
      refine .asks rfl asked (.confirming sub _) ?_ (resultsOf_congr ?_)
      · show (v.spawnRefresher delay).spawned = _
        simp [spawnRefresher, spawned]
      · show (v.spawnRefresher delay).results = _
        simpa [spawnRefresher] using results
  | confirming sub deadline =>
    show s.ConfirmTurn i _ _ _ _ _ _ (s.confirmTurn i (toString id) sub deadline)
    unfold confirmTurn
    dsimp only
    split
    · split
      · exact .finish rfl rfl (by simp) (by simp)
      · exact .wait stage (.confirming sub deadline) ⟨rfl, rfl, rfl, rfl, rfl, rfl, rfl⟩
    · split
      · split
        · exact .finish rfl rfl (by simp) (by simp)
        · exact stay
      · next heard events _ =>
        split
        · exact .goesOn stage (.confirming sub deadline) rfl rfl
        · exact (ConfirmTurn.setStage (t := Session.unsubscribe (Session.spend
            { s with link.events := events }) sub) stage rfl rfl rfl .lookingUp).again
        · exact .finish rfl rfl (by simp) (by simp)
  | lookingUp =>
    dsimp only
    show s.ConfirmTurn i id value delay timeout true _ (s.use (.call i) .settings (fun u => u)
      fun u => u.finish i (.reported (u.link.settings.get? (toString id))))
    rcases use_cases s (.call i) .settings (fun u => u)
      (fun u => u.finish i (.reported (u.link.settings.get? (toString id))))
      with alike | ⟨u, alike, same⟩
    · exact .wait stage .lookingUp alike
    · have left := (alike_leave u .settings).trans alike
      rw [same]
      generalize u.leave .settings = v at left
      refine .returns (r := .reported (v.link.settings.get? (toString id)))
        ((resultsOf_finish v i (by simp)).trans ?_) left.2.2.2.2.2.1 fun w own => ⟨rfl, rfl, ?_⟩
      · rw [resultsOf_congr left.2.2.2.2.2.2]
      · rw [← left.2.1]
        exact Result.reported.inj own

/-! ## What the call hears -/

/-- **A call hears nothing from before it began.** -/
theorem late_of_listens (reachable : s₀.Reachable) (new : s₀.stage? i = none) (es : List Event) :
    ∀ sub, (s₀.after es).Listens i sub → ∀ p, (s₀.after es).link.events.position? sub = some p →
      s₀.link.events.log.length ≤ p := by
  induction es using List.reverseRecOn with
  | nil =>
    rintro sub ⟨st, stage, -⟩
    exact absurd (new.symm.trans stage) (by simp)
  | append_singleton es e ih =>
    intro sub listens p there
    rw [after_append, after_cons, after_nil] at listens there
    cases next_hears (reachable.after es).listening listens with
    | kept before position => exact ih sub before p (position.symm.trans there)
    | begun _ _ _ position =>
      obtain rfl := Option.some.inj (position.symm.trans there)
      exact (log_after s₀ es).length_le
    | heard _ stage heard _ events =>
      have before := ih sub ⟨_, stage, rfl⟩
      rw [events] at there
      have received := (s₀.after es).link.events.receives sub
      generalize (s₀.after es).link.events.receive sub = r at received heard there
      cases received with
      | silent => exact absurd heard (by simp)
      | lagged old behind =>
        rw [EventBus.position?_seek_self old] at there
        obtain rfl := Option.some.inj there
        exact Nat.le_trans (before _ old) (Nat.le_of_lt behind)
      | event old =>
        rw [EventBus.position?_seek_self old] at there
        obtain rfl := Option.some.inj there
        exact Nat.le_succ_of_le (before _ old)

/-- A call looks a setting up because it has heard a report of it. -/
theorem heard_of_confirmTurn {key : String} {sub deadline : Nat}
    (stage : s.stage? i = some (.confirming key sub deadline))
    (looks : (s.confirmTurn i key sub deadline).stage? i = some (.lookingUp key)) :
    ∃ p w, s.link.events.position? sub = some p ∧
      s.link.events.log[p]? = some (.setting key w) := by
  have stays {u : Session} (same : u.stage? i = s.stage? i)
      (looks : u.stage? i = some (.lookingUp key)) :
      False := absurd ((same.symm.trans looks).symm.trans stage) (by simp)
  have gone {u : Session} {r : Result} (looks : (u.finish i r).stage? i = some (.lookingUp key)) :
      False := absurd looks (by simp)
  unfold confirmTurn at looks
  dsimp only at looks
  split at looks
  · split at looks
    · exact (gone looks).elim
    · exact (stays rfl looks).elim
  · split at looks
    · split at looks
      · exact (gone looks).elim
      · exact (stays rfl looks).elim
    · next heard events received =>
      split at looks
      · exact (stays rfl looks).elim
      · next verdict =>
        obtain ⟨w, rfl⟩ := setting_of_verdict? verdict
        have receives := s.link.events.receives sub
        rw [received] at receives
        cases receives with
        | event there _ found => exact ⟨_, w, there, found⟩
      · exact (gone looks).elim

/-- **A call that looks a setting up** has heard a report of it that was published since the call
began. -/
theorem heard_of_lookingUp (reachable : s₀.Reachable) (new : s₀.stage? i = none) (es : List Event)
    {key : String} (looks : (s₀.after es).stage? i = some (.lookingUp key)) :
    ∃ w, .setting key w ∈ (s₀.after es).link.events.log.drop s₀.link.events.log.length := by
  induction es using List.reverseRecOn with
  | nil => exact absurd (new.symm.trans looks) (by simp)
  | append_singleton es e ih =>
    rw [after_append, after_cons, after_nil] at looks ⊢
    have grown := (next_log (s₀.after es) e).1
    have kept {w : String} (member : .setting key w ∈
        (s₀.after es).link.events.log.drop s₀.link.events.log.length) :
        .setting key w ∈ ((s₀.after es).next e).link.events.log.drop s₀.link.events.log.length :=
      (grown.drop _).subset member
    rcases next_follows (s₀.after es) e looks with ⟨st, stage, follows⟩ | ⟨c, -, -, begins⟩
    · cases follows with
      | stay =>
        obtain ⟨w, member⟩ := ih stage
        exact ⟨w, kept member⟩
      | lookUp _ sub deadline =>
        have own : e = .act (.call i) := by
          by_contra other
          exact absurd ((stage?_next _ other stage).symm.trans looks) (by simp)
        subst own
        have turn : (s₀.after es).next (.act (.call i))
            = (s₀.after es).confirmTurn i key sub deadline := by
          show (s₀.after es).callTurn i = _
          simp only [callTurn, stage]
        rw [turn] at looks
        obtain ⟨p, w, there, found⟩ := heard_of_confirmTurn stage looks
        have late := late_of_listens reachable new es sub ⟨_, stage, rfl⟩ p there
        refine ⟨w, kept (List.mem_of_getElem? (i := p - s₀.link.events.log.length) ?_)⟩
        rw [List.getElem?_drop, Nat.add_sub_cancel' late]
        exact found
    · exact absurd begins (by simp)

/-! ## The whole call -/

/-- **The refreshers that the call `i` asks** in a run, by number. -/
def refreshersOf (s : Session) (i : Nat) (es : List Event) : List Nat :=
  ((s.history es).filter fun h => h.2 = .act (.call i) ∧ h.1.spawned < (h.1.next h.2).spawned).map
    (·.1.spawned)

/-- **The request of the refresher `n`** for all settings went over the wire. -/
def Asked (s : Session) (n : Nat) : Prop :=
  ∃ x c, x ∈ s.link.wire ∧
    s.link.traffic.origin? x = some (c, .refresher n, .ofLine Command.dumpSettings.line)

theorem refreshersOf_other (other : e ≠ .act (.call i)) :
    s.refreshersOf i (es ++ [e]) = s.refreshersOf i es := by
  simp [refreshersOf, history_concat, other]

theorem refreshersOf_own (same : ((s.after es).next (.act (.call i))).spawned
    = (s.after es).spawned) :
    s.refreshersOf i (es ++ [.act (.call i)]) = s.refreshersOf i es := by
  simp [refreshersOf, history_concat, same]

theorem refreshersOf_asks (more : ((s.after es).next (.act (.call i))).spawned
    = (s.after es).spawned + 1) :
    s.refreshersOf i (es ++ [.act (.call i)]) = s.refreshersOf i es ++ [(s.after es).spawned] := by
  simp [refreshersOf, history_concat, more]

/-- **A call that confirms a setting**, until it returns, has asked one refresher if it waits for a
report. -/
theorem confirming_after (new : s₀.stage? i = none) (fs : List Event)
    (pending : (s₀.after (.call i (.confirmSetting id value delay timeout) :: fs)).resultsOf i
      = s₀.resultsOf i) :
    let es := .call i (.confirmSetting id value delay timeout) :: fs
    ∃ asked st, (s₀.after es).stage? i = some st ∧ Confirming id value delay timeout asked st ∧
      (s₀.refreshersOf i es).length = if asked then 1 else 0 := by
  dsimp only
  induction fs using List.reverseRecOn with
  | nil =>
    refine ⟨false, _, ?_, .begin, by simp [refreshersOf, history]⟩
    have opened : s₀.next (.call i (.confirmSetting id value delay timeout))
        = s₀.begin i (.call (.confirmSetting id value delay timeout)) := by
      simp [Session.next, new]
    rw [after_cons, after_nil, opened]
    exact ((alike_wake _ _).stage? i).trans ((stage?_added new _ i).trans (if_pos rfl))
  | append_singleton fs e ih =>
    rw [← List.cons_append] at pending ⊢
    generalize Event.call i (.confirmSetting id value delay timeout) :: fs = es at ih pending ⊢
    have last : s₀.after (es ++ [e]) = (s₀.after es).next e := after_append s₀ es [e]
    rw [last] at pending ⊢
    have same : (s₀.after es).resultsOf i = s₀.resultsOf i := by
      have later := resultsOf_kept (s₀.after es) e i
      rw [pending] at later
      exact later.eq_of_length_le (resultsOf_kept_after s₀ es i).length_le
    obtain ⟨asked, st, stage, confirming, refreshers⟩ := ih same
    by_cases own : e = .act (.call i)
    · subst own
      have confirms : (s₀.after es).ConfirmTurn i id value delay timeout asked st
          ((s₀.after es).next (.act (.call i))) := callTurn_confirms stage confirming
      cases confirms with
      | goesOn stage' confirming' spawned =>
        exact ⟨asked, _, stage', confirming', by rw [refreshersOf_own spawned]; exact refreshers⟩
      | asks first stage' confirming' spawned =>
        refine ⟨true, _, stage', confirming', ?_⟩
        rw [refreshersOf_asks spawned, List.length_append, refreshers, first]
        rfl
      | returns result =>
        rw [result, same] at pending
        exact absurd pending (by simp)
    · exact ⟨asked, st, stage?_next _ own stage, confirming,
        by rw [refreshersOf_other own]; exact refreshers⟩

/-- **What a call confirms a setting by**: a value that it returns was reported in a frame that was
received since the call began, or that the reader was still busy with then. It has asked one
refresher meanwhile. If what is reported of the setting is received only once the request of that
refresher went over the wire, so is the value that the call returns. -/
theorem reported_since (reachable : s₀.Reachable) (new : s₀.stage? i = none) (fs : List Event)
    (e : Event)
    (pending : (s₀.after (.call i (.confirmSetting id value delay timeout) :: fs)).resultsOf i
      = s₀.resultsOf i)
    {v : String}
    (returned :
      (s₀.after (.call i (.confirmSetting id value delay timeout) :: fs ++ [e])).resultsOf i
        = s₀.resultsOf i ++ [.reported (some v)]) :
    let es := .call i (.confirmSetting id value delay timeout) :: fs
    ∃ n, s₀.refreshersOf i (es ++ [e]) = [n] ∧ s₀.Reported es (toString id) v ∧
      ((∀ ch ∈ s₀.chores, ∀ w, ch.setting? ≠ some (toString id, w)) →
        (∀ h ∈ s₀.history es, ∀ w, .setting (toString id) w ∈ h.1.received h.2 → h.1.Asked n) →
        ∃ h ∈ s₀.history es, h.1.Asked n ∧ .setting (toString id) v ∈ h.1.received h.2) := by
  obtain ⟨asked, st, stage, confirming, refreshers⟩ := confirming_after new fs pending
  dsimp only
  generalize Event.call i (.confirmSetting id value delay timeout) :: fs = es at *
  have last : s₀.after (es ++ [e]) = (s₀.after es).next e := after_append s₀ es [e]
  rw [last, ← pending] at returned
  have own : e = .act (.call i) := by
    by_contra other
    rw [resultsOf_next _ other] at returned
    exact absurd returned (by simp)
  subst own
  have confirms : (s₀.after es).ConfirmTurn i id value delay timeout asked st
      ((s₀.after es).next (.act (.call i))) := callTurn_confirms stage confirming
  cases confirms with
  | goesOn _ _ _ still | asks _ _ _ _ still =>
    rw [still] at returned
    exact absurd returned (by simp)
  | returns result spawned reports =>
    have given := List.append_cancel_left (result.symm.trans returned)
    obtain ⟨rfl, rfl, stored⟩ := reports v (List.singleton_inj.mp given)
    obtain ⟨n, once⟩ := List.length_eq_one_iff.mp refreshers
    obtain ⟨w, heard⟩ := heard_of_lookingUp reachable new es stage
    have reported := reported_after reachable es heard stored
    refine ⟨n, by rw [refreshersOf_own spawned, once], reported, fun idle late => ?_⟩
    rcases reported with ⟨h, member, received⟩ | ⟨ch, busy, same⟩
    · exact ⟨h, member, late h member v received, received⟩
    · exact absurd same (idle ch busy v)

/-- A call that writes a setting to the device, and waits for a report. -/
def written : List Event :=
  .act (.call 1) :: List.replicate 3 (.act .writer) ++ List.replicate 2 (.act (.call 1))

/-- The refresher asks when it is due, and the device reports the new value. -/
def readBack : List Event :=
  written ++ .elapse 100 :: .act (.refresher 0) :: List.replicate 3 (.act .writer) ++
    .device 2 (.send "$110=5\nok\n".toUTF8.toList) :: List.replicate 8 (.act .reader) ++
    [.act (.call 1)]

/-- The device reports a setting of its own accord, before the refresher asks. -/
def unasked : List Event :=
  written ++ .device 2 (.send "$110=4\n".toUTF8.toList) :: List.replicate 5 (.act .reader) ++
    [.act (.call 1)]

/-- The value that is read back was reported since the call began. -/
theorem reported_since_readBack :
    let s := (initial none).after (Event.swift 0 (.connect "/dev/mock0" none))
    ∃ n, s.refreshersOf 1 (.call 1 (.confirmSetting 110 "5" 100 1000) :: readBack
        ++ [.act (.call 1)]) = [n] ∧
      s.Reported (.call 1 (.confirmSetting 110 "5" 100 1000) :: readBack) "110" "5" := by
  obtain ⟨n, once, reported, -⟩ := @reported_since
    ((initial none).after (Event.swift 0 (.connect "/dev/mock0" none))) 1 110 "5" 100 1000
    (.of_run none _) (by decide +kernel) readBack (.act (.call 1)) (by decide +kernel) "5"
    (by decide +kernel)
  exact ⟨n, once, reported⟩

/-- A value other than the one that was written is returned as confirmed, and no refresher has
asked. -/
theorem confirmed_unasked :
    let s := (initial none).after (Event.swift 0 (.connect "/dev/mock0" none))
    let es := .call 1 (.confirmSetting 110 "5" 100 1000) :: unasked
    (s.after (es ++ [.act (.call 1)])).resultsOf 1 = s.resultsOf 1 ++ [.reported (some "4")] ∧
      ∀ h ∈ s.history es, ∀ n, ¬ h.1.Asked n := by
  dsimp only
  refine ⟨by decide +kernel, ?_⟩
  have none : ∀ h ∈ ((initial none).after (Event.swift 0 (.connect "/dev/mock0" none))).history
      (.call 1 (.confirmSetting 110 "5" 100 1000) :: unasked), ∀ x ∈ h.1.link.wire,
      h.1.link.payload? x ≠ some (.ofLine Command.dumpSettings.line) := by
    decide +kernel
  rintro h member n ⟨x, c, sent, origin⟩
  refine none h member x sent ?_
  have payload := Traffic.payload?_eq h.1.link.traffic x
  rw [origin] at payload
  exact payload

end Session

end Cnc
