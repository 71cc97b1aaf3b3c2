import Cnc.Proofs.Attention

/-!
# No report is missed

A call that confirms a setting listens to the link from when it begins, and
its time starts when its line is written. What it answers is decided by the
first event since it began that is a report of the setting or the end of the
connection. If that is a report, the call gives the value that is then stored;
if the connection ends first, it fails; and if nothing of the kind comes in
time, it says so at the very end of its time. Whatever it answers, the settings
are asked for once, when the delay has passed since the line was written, if
the link is open then (`Session.heeds_after`).

There is one exception. A call that has no credit left looks at its time before
it listens on. One that has some time has heard by then what was published
before its time was over. But one that has no time at all may have to give up
while a report waits to be heard.
-/

namespace Cnc.Session

open Traffic

variable {s₀ : Session} {e : Event} {es fs : List Event} {i w p sub : Nat} {id : UInt16}
  {value : String} {delay timeout : Nat}

/-! ## The answers of the call -/

/-- **The call has set its refresher** by the end of the run `fs`: one, for when the delay has
passed since its line was written. In the run `es` it goes off at that time. -/
def RefreshesOnce (s₀ : Session) (i delay : Nat) (fs es : List Event) : Prop :=
  ∃ n w, s₀.refreshersOf i fs = [n] ∧ s₀.sentAt? fs s₀.link.posts.length = some w ∧
    s₀.Refreshes es n (w + delay)

/-- **What the call answers**, if its turn comes after the run `es`. Its line is the first one that
is handed over since it began. -/
inductive Replies (s₀ : Session) (id : UInt16) (timeout : Nat) (es : List Event) : Result → Prop
  /-- The link is closed when the call begins. -/
  | closed (closed : s₀.link.connection = none) :
    Replies s₀ id timeout es (.linkError .notConnected)
  /-- The line is not written. -/
  | unwritten {d : Delivery} {f : LinkError}
      (told : (s₀.after es).link.delivery? s₀.link.posts.length = some d)
      (failed : d.error? = some f) : Replies s₀ id timeout es (.linkError f)
  /-- The connection ends before the setting is reported. -/
  | lost (written : (s₀.after es).link.delivery? s₀.link.posts.length = some .sent)
      (first : s₀.verdictSince (s₀.after es) (toString id) = some false) :
    Replies s₀ id timeout es (.linkError .notConnected)
  /-- The setting is reported in time. -/
  | reported {w : Nat} {v : String}
      (written : (s₀.after es).link.delivery? s₀.link.posts.length = some .sent)
      (time : s₀.sentAt? es s₀.link.posts.length = some w)
      (early : (s₀.after es).now ≤ w + timeout)
      (first : s₀.verdictSince (s₀.after es) (toString id) = some true)
      (stored : (s₀.after es).link.settings.get? (toString id) = some v) :
    Replies s₀ id timeout es (.reported (some v))
  /-- The time is over. -/
  | late {w : Nat} (written : (s₀.after es).link.delivery? s₀.link.posts.length = some .sent)
      (time : s₀.sentAt? es s₀.link.posts.length = some w)
      (elapsed : (s₀.after es).now = w + timeout)
      (silent : s₀.verdictSince (s₀.after es) (toString id) = none ∨
        (s₀.after es).credit = 0 ∧ (timeout = 0 ∨
          ∀ fs, fs <+: es → (s₀.after fs).now < w + timeout →
            s₀.verdictSince (s₀.after fs) (toString id) = none)) :
    Replies s₀ id timeout es (.reported none)

/-- **What the call still waits for** when everybody waits. -/
inductive Awaits (s₀ : Session) (i : Nat) (id : UInt16) (delay timeout : Nat) (es : List Event) :
    Prop
  | unwritten (undelivered : (s₀.after es).link.traffic.Undelivered s₀.link.posts.length)
  | report {w : Nat} (written : (s₀.after es).link.delivery? s₀.link.posts.length = some .sent)
      (time : s₀.sentAt? es s₀.link.posts.length = some w)
      (early : (s₀.after es).now < w + timeout)
      (silent : s₀.verdictSince (s₀.after es) (toString id) = none)
      (refreshes : s₀.RefreshesOnce i delay es es)

/-- **The call misses nothing** that is reported in a run: it has not answered yet and has a reason
for that, or it has answered, and rightly. -/
inductive Heeds (s₀ : Session) (i : Nat) (id : UInt16) (delay timeout : Nat) (es : List Event) :
    Prop
  | pending (none : (s₀.after es).resultsOf i = s₀.resultsOf i)
      (awaits : (s₀.after es).Quiescent → s₀.Awaits i id delay timeout es)
  | answered {fs : List Event} {e : Event} {r : Result} (first : fs ++ [e] <+: es)
      (before : (s₀.after fs).resultsOf i = s₀.resultsOf i)
      (result : (s₀.after (fs ++ [e])).resultsOf i = s₀.resultsOf i ++ [r])
      (replies : s₀.Replies id timeout fs r)
      (refreshes : (s₀.after fs).link.delivery? s₀.link.posts.length = some .sent →
        (s₀.after es).Quiescent → s₀.RefreshesOnce i delay fs es)

/-! ## How far the call has come -/

/-- The refresher of the call has been set, and goes off on time. -/
def RefresherSet (s₀ : Session) (i delay : Nat) (fs es : List Event) : Prop :=
  ∃ n w, s₀.refreshersOf i fs = [n] ∧ s₀.sentAt? fs s₀.link.posts.length = some w ∧
    n < (s₀.after es).spawned ∧ s₀.Armed es n (w + delay)

/-- The line of the call was written at a time. -/
structure Written (s₀ : Session) (es : List Event) (w : Nat) : Prop where
  sent : (s₀.after es).link.delivery? s₀.link.posts.length = some .sent
  time : s₀.sentAt? es s₀.link.posts.length = some w

/-- **How far a call that confirms a setting has come** after its first turn, and what it has
heard. -/
inductive Stance (s₀ : Session) (i : Nat) (id : UInt16) (delay timeout : Nat) (es : List Event) :
    Prop
  | sends {sub : Nat}
      (stage : (s₀.after es).stage? i = some (.sending s₀.link.posts.length
        (.setting delay (some ⟨toString id, sub, timeout⟩))))
      (there : (s₀.after es).link.events.position? sub = some s₀.link.events.log.length)
      (known : s₀.link.posts.length < (s₀.after es).link.posts.length)
      (time : (s₀.after es).link.delivery? s₀.link.posts.length = some .sent →
        s₀.sentAt? es s₀.link.posts.length = some (s₀.after es).now)
      (unasked : s₀.refreshersOf i es = [])
  | counts {sub : Nat}
      (stage : (s₀.after es).stage? i = some (.counting s₀.link.posts.length
        (.setting delay (some ⟨toString id, sub, timeout⟩))))
      (there : (s₀.after es).link.events.position? sub = some s₀.link.events.log.length)
      (written : s₀.Written es (s₀.after es).now) (unasked : s₀.refreshersOf i es = [])
  /-- Nothing that it has heard has decided. If it has any time, it has heard all that was published
  before its time is over. -/
  | listens {sub p w : Nat}
      (stage : (s₀.after es).stage? i = some (.confirming (toString id) sub (w + timeout)))
      (there : (s₀.after es).link.events.position? sub = some p)
      (since : s₀.link.events.log.length ≤ p) (inside : p ≤ (s₀.after es).link.events.log.length)
      (undecided : s₀.Undecided (s₀.after es) (toString id) p)
      (written : s₀.Written es w) (early : (s₀.after es).now ≤ w + timeout)
      (elapsed : w + timeout ≤ (s₀.after es).now → timeout = 0 ∨ s₀.HeardBefore es (w + timeout) p)
      (set : s₀.RefresherSet i delay es es)
  /-- It has heard a report. -/
  | finds {w : Nat} (stage : (s₀.after es).stage? i = some (.lookingUp (toString id)))
      (written : s₀.Written es w) (early : (s₀.after es).now ≤ w + timeout)
      (found : s₀.verdictSince (s₀.after es) (toString id) = some true)
      (set : s₀.RefresherSet i delay es es)

/-- What was written was written then. -/
theorem Written.next (written : s₀.Written es w) (reachable : s₀.Reachable) (e : Event) :
    s₀.Written (es ++ [e]) w where
  sent := by
    rw [after_append, after_cons, after_nil]
    exact (onward_next (reachable.after es).filed e).2.told _ _ written.sent
  time := since?_of_initial (List.prefix_append _ _) written.time

/-- The refresher goes on. -/
theorem RefresherSet.next (set : s₀.RefresherSet i delay fs es) (reachable : s₀.Reachable)
    (punctual : s₀.Punctual (es ++ [e])) : s₀.RefresherSet i delay fs (es ++ [e]) := by
  obtain ⟨n, w, once, time, known, armed⟩ := set
  refine ⟨n, w, once, time, ?_, armed.next reachable known punctual⟩
  rw [after_append, after_cons, after_nil]
  exact Nat.lt_of_lt_of_le known (spawned_le_next _ e)

/-- While the call goes on, its refresher stays the only one. -/
theorem RefresherSet.along (set : s₀.RefresherSet i delay es es) (reachable : s₀.Reachable)
    (punctual : s₀.Punctual (es ++ [e]))
    (same : s₀.refreshersOf i (es ++ [e]) = s₀.refreshersOf i es) :
    s₀.RefresherSet i delay (es ++ [e]) (es ++ [e]) := by
  obtain ⟨n, w, once, time, rest⟩ := set.next (e := e) reachable punctual
  exact ⟨n, w, same.trans once, since?_of_initial (List.prefix_append _ _) time, rest⟩

/-- When everybody waits, the refresher has gone off if its time has come. -/
theorem RefresherSet.once (set : s₀.RefresherSet i delay fs es) (reachable : s₀.Reachable)
    (quiescent : (s₀.after es).Quiescent) : s₀.RefreshesOnce i delay fs es := by
  obtain ⟨n, w, once, time, -, armed⟩ := set
  exact ⟨n, w, once, time,
    armed.refreshes ((reachable.after es).quiescent_iff.mp quiescent (.refresher n))⟩

/-- **What others do while the call goes on** leaves it where it is. -/
theorem Stance.aside (stance : s₀.Stance i id delay timeout es) (reachable : s₀.Reachable)
    (attentive : s₀.Attentive i (es ++ [e])) (other : e ≠ .act (.call i)) :
    s₀.Stance i id delay timeout (es ++ [e]) := by
  have last : s₀.after (es ++ [e]) = (s₀.after es).next e := after_append s₀ es [e]
  have reached := reachable.after es
  have asked : s₀.refreshersOf i (es ++ [e]) = s₀.refreshersOf i es := refreshersOf_other other
  obtain ⟨more, grown⟩ : (s₀.after es).link.events.log
      <+: (s₀.after (es ++ [e])).link.events.log := last ▸ (next_log (s₀.after es) e).1
  -- time passes only if the call waits
  have waits (time : Nat) (own : e = .elapse time) : (s₀.after es).Waits (.call i) :=
    reached.quiescent_iff.mp (attentive.unhurried es time [] (by rw [own])) (.call i)
  have now (busy : ¬ (s₀.after es).Waits (.call i)) :
      (s₀.after (es ++ [e])).now = (s₀.after es).now := by
    rw [last]
    exact (next_time _ e).resolve_right fun ⟨time, own⟩ => busy (waits time own)
  have goes {st : CallStage} (stage : (s₀.after es).stage? i = some st) :
      (s₀.after (es ++ [e])).stage? i = some st := last ▸ stage?_next _ other stage
  have position {sub : Nat} {st : CallStage} (stage : (s₀.after es).stage? i = some st)
      (own : st.subscription? = some sub) : (s₀.after (es ++ [e])).link.events.position? sub
        = (s₀.after es).link.events.position? sub := by
    rw [last]
    have listens : ((s₀.after es).next e).Listens i sub := ⟨st, last ▸ goes stage, own⟩
    cases next_hears reached.listening listens with
    | kept _ same => exact same
    | begun own | heard own => exact absurd own other
  cases stance with
  | sends stage there known time unasked =>
    refine .sends (goes stage) ((position stage rfl).trans there) ?_ (fun sent => ?_)
      (asked.trans unasked)
    · rw [last]
      exact Nat.lt_of_lt_of_le known
        (length_le_of_kept (onward_next reached.filed e).2.origins)
    · cases told : (s₀.after es).link.delivery? s₀.link.posts.length with
      | none =>
        obtain ⟨rfl, time⟩ := reachable.sentAt?_of_delivered told sent
        rw [time, last]
        exact congrArg some (act_now _ .writer).symm
      | some d =>
        have kept := (onward_next reached.filed e).2.told _ _ told
        obtain rfl : d = .sent := Option.some.inj (kept.symm.trans (last ▸ sent))
        rw [now (by simp [Waits, stage, told])]
        exact since?_of_initial (List.prefix_append _ _) (time told)
  | counts stage there written unasked =>
    have now := now (by simp [Waits, stage])
    exact .counts (goes stage) ((position stage rfl).trans there)
      (now ▸ written.next reachable e) (asked.trans unasked)
  | @listens sub p w stage there since inside undecided written early elapsed set =>
    have longer : p ≤ (s₀.after (es ++ [e])).link.events.log.length := by
      rw [← grown, List.length_append]
      exact Nat.le_add_right_of_le inside
    refine .listens (goes stage) ((position stage rfl).trans there) since longer
      (undecided.of_grown ⟨more, grown⟩ inside) (written.next reachable e) ?_ (fun late => ?_)
      (set.along reachable attentive.punctual asked)
    · rcases next_time (s₀.after es) e with same | ⟨time, rfl⟩
      · rw [last, same]
        exact early
      · rw [last]
        exact attentive.punctual es time [] rfl _ (mem_timers_of_confirming stage)
    · rcases next_time (s₀.after es) e with same | ⟨time, own⟩
      · rw [last, same] at late
        exact (elapsed late).imp_right (·.next (Nat.le_refl _) (by rwa [last, same]))
      · have silent := waits time own
        simp only [Waits, stage] at silent
        have all := EventBus.length_le_of_silent silent.2 there
        exact .inr (HeardBefore.next (.of_all all) (Nat.le_refl _) late)
  | finds stage written early found set =>
    have now := now (by simp [Waits, stage])
    exact .finds (goes stage) (written.next reachable e) (now ▸ early)
      (verdictSince_mono ⟨more, grown⟩ found) (set.along reachable attentive.punctual asked)

/-! ## The turns of the call -/

/-- **What a turn of the call comes to**: it goes on, or answers rightly, and then its refresher
goes off on time if its line was written. -/
inductive Furthers (s₀ : Session) (i : Nat) (id : UInt16) (delay timeout : Nat) (es : List Event) :
    Prop
  | goesOn (stance : s₀.Stance i id delay timeout (es ++ [.act (.call i)]))
      (pending : (s₀.after (es ++ [.act (.call i)])).resultsOf i = (s₀.after es).resultsOf i)
  | answers {r : Result}
      (result : (s₀.after (es ++ [.act (.call i)])).resultsOf i
        = (s₀.after es).resultsOf i ++ [r])
      (replies : s₀.Replies id timeout es r)
      (set : (s₀.after es).link.delivery? s₀.link.posts.length = some .sent →
        s₀.RefresherSet i delay es (es ++ [.act (.call i)]))

theorem after_own (s₀ : Session) (es : List Event) (i : Nat) :
    s₀.after (es ++ [.act (.call i)]) = (s₀.after es).next (.act (.call i)) :=
  after_append s₀ es [_]

theorem now_own (s₀ : Session) (es : List Event) (i : Nat) :
    (s₀.after (es ++ [.act (.call i)])).now = (s₀.after es).now := by
  rw [after_own]
  exact act_now _ (.call i)

/-- A call that begins on an open link hands its line over, and listens. -/
theorem next_of_begins
    (begins : s₀.stage? i = some (.begin (.confirmSetting id value delay timeout)))
    {c : Connection} (here : s₀.link.connection = some c) :
    ∃ u : Session, s₀.next (.act (.call i)) = u.setStage i (.sending s₀.link.posts.length
        (.setting delay (some ⟨toString id, s₀.link.events.nextSubscription, timeout⟩))) ∧
      u.Alike { s₀ with
        link.events := s₀.link.events.subscribe
        link.posts :=
          s₀.link.posts ++ [⟨c.number, .call i, .ofLine s!"${id}={value}", none, none⟩]
        link.connection :=
          some (c.enqueue (.ofLine s!"${id}={value}") s₀.link.posts.length) } := by
  obtain ⟨u, posted, same⟩ := post?_of_open
    (s := { s₀ with link.events := s₀.link.events.subscribe }) here (.call i)
    (.ofLine s!"${id}={value}")
  refine ⟨u, ?_, same⟩
  show s₀.callTurn i = _
  simp only [callTurn, begins, beginCall, beginConfirmation]
  rw [posted]

/-- The turn in which the call begins. -/
theorem furthers_of_begins
    (begins : s₀.stage? i = some (.begin (.confirmSetting id value delay timeout))) :
    s₀.Furthers i id delay timeout [] := by
  cases here : s₀.link.connection with
  | none =>
    have unsent : s₀.link.delivery? s₀.link.posts.length = none := by simp [Link.delivery?]
    refine .answers (r := .linkError .notConnected) ?_ (.closed here)
      fun sent => absurd (unsent.symm.trans sent) (by simp)
    show (s₀.callTurn i).resultsOf i = _
    simp only [callTurn, begins, beginCall, beginConfirmation]
    rw [post?_of_closed (s := { s₀ with link.events := s₀.link.events.subscribe }) here]
    exact resultsOf_finish _ i (by simp)
  | some c =>
    obtain ⟨u, turn, same⟩ := next_of_begins begins here
    have last : s₀.after ([] ++ [.act (.call i)]) = _ := turn
    have stage : (s₀.after ([] ++ [.act (.call i)])).stage? i = some (.sending s₀.link.posts.length
        (.setting delay (some ⟨toString id, s₀.link.events.nextSubscription, timeout⟩))) := by
      rw [last, stage?_setStage, if_pos rfl, same.stage?]
      exact congrArg (Option.map _) begins
    have events : (s₀.after ([] ++ [.act (.call i)])).link.events = s₀.link.events.subscribe :=
      (congrArg (·.link.events) last).trans (congrArg Link.events same.2.1)
    have posts : (s₀.after ([] ++ [.act (.call i)])).link.posts
        = s₀.link.posts ++ [⟨c.number, .call i, .ofLine s!"${id}={value}", none, none⟩] :=
      (congrArg (·.link.posts) last).trans (congrArg Link.posts same.2.1)
    refine .goesOn (.sends stage ?_ ?_ (fun sent => ?_) (refreshersOf_own ?_)) ?_
    · rw [events]
      exact EventBus.position?_subscribe_self _
    · rw [posts]
      simp
    · rw [Link.delivery?, posts] at sent
      simp at sent
    · exact (congrArg Session.spawned turn).trans same.2.2.2.2.2.1
    · rw [last]
      exact resultsOf_congr same.2.2.2.2.2.2

/-- The turn in which the call learns what became of its line. -/
theorem furthers_of_sends
    (stage : (s₀.after es).stage? i = some (.sending s₀.link.posts.length
      (.setting delay (some ⟨toString id, sub, timeout⟩))))
    (there : (s₀.after es).link.events.position? sub = some s₀.link.events.log.length)
    (known : s₀.link.posts.length < (s₀.after es).link.posts.length)
    (time : (s₀.after es).link.delivery? s₀.link.posts.length = some .sent →
      s₀.sentAt? es s₀.link.posts.length = some (s₀.after es).now)
    (unasked : s₀.refreshersOf i es = []) : s₀.Furthers i id delay timeout es := by
  have last := after_own s₀ es i
  have alone (spawned : ((s₀.after es).callTurn i).spawned = (s₀.after es).spawned) :
      s₀.refreshersOf i (es ++ [.act (.call i)]) = [] := (refreshersOf_own spawned).trans unasked
  cases told : (s₀.after es).link.delivery? s₀.link.posts.length with
  | none =>
    have turn : (s₀.after es).callTurn i = s₀.after es := by simp [callTurn, stage, told]
    have same : s₀.after (es ++ [.act (.call i)]) = s₀.after es := last.trans turn
    have stage' : (s₀.after (es ++ [.act (.call i)])).stage? i = _ := same ▸ stage
    refine .goesOn (.sends stage' ?_ ?_ ?_ (alone (by rw [turn]))) ?_ <;> rw [same]
    · exact there
    · exact known
    · exact fun sent => absurd (told.symm.trans sent) (by simp)
  | some d =>
    cases failed : d.error? with
    | some f =>
      refine .answers (r := .linkError f) ?_ (.unwritten told failed) fun sent => ?_
      · have turn : (s₀.after es).callTurn i = (s₀.after es).failErrand i
            (.setting delay (some ⟨toString id, sub, timeout⟩)) f := by
          simp [callTurn, stage, told, failed]
        rw [last.trans turn]
        exact resultsOf_finish _ i (by simp)
      · obtain rfl := Option.some.inj (told.symm.trans sent)
        exact absurd failed (by simp [Delivery.error?])
    | none =>
      have turn : (s₀.after es).callTurn i = ((s₀.after es).spend.setStage i
          (.counting s₀.link.posts.length
            (.setting delay (some ⟨toString id, sub, timeout⟩)))).again (.call i) := by
        simp [callTurn, stage, told, failed, countErrand, Errand.isReset]
      obtain rfl : d = .sent := by
        cases d <;> simp_all [Delivery.error?]
      have same : s₀.after (es ++ [.act (.call i)]) = _ := last.trans turn
      have stage' : (s₀.after (es ++ [.act (.call i)])).stage? i
          = some (.counting s₀.link.posts.length
            (.setting delay (some ⟨toString id, sub, timeout⟩))) := by
        rw [same, (alike_again _ _).stage?, stage?_setStage, if_pos rfl]
        exact congrArg (Option.map _) stage
      have link : (s₀.after (es ++ [.act (.call i)])).link = (s₀.after es).link := by
        rw [same]
        rfl
      refine .goesOn (.counts stage' (link ▸ there) ⟨link ▸ told, ?_⟩ (alone ?_)) ?_
      · rw [now_own]
        exact since?_of_initial (List.prefix_append _ _) (time told)
      · rw [turn]
        rfl
      · rw [same]
        rfl

/-- The turn in which the call counts its line, and begins to wait for a report. -/
theorem furthers_of_counts (reachable : s₀.Reachable)
    (stage : (s₀.after es).stage? i = some (.counting s₀.link.posts.length
      (.setting delay (some ⟨toString id, sub, timeout⟩))))
    (there : (s₀.after es).link.events.position? sub = some s₀.link.events.log.length)
    (written : s₀.Written es (s₀.after es).now) (unasked : s₀.refreshersOf i es = []) :
    s₀.Furthers i id delay timeout es := by
  have last := after_own s₀ es i
  have now := now_own s₀ es i
  have reached := reachable.after es
  have written' := written.next reachable (.act (.call i))
  rcases callTurn_counting stage with alike | ⟨v, time, spawned, refreshers, controlled, turn⟩
  · have alike : (s₀.after (es ++ [.act (.call i)])).Alike (s₀.after es) := last ▸ alike
    refine .goesOn (.counts ((alike.stage? i).trans stage) ?_ (now ▸ written') ?_)
      (resultsOf_congr alike.2.2.2.2.2.2)
    · rw [alike.2.1]
      exact there
    · rw [refreshersOf_own (last ▸ alike).2.2.2.2.2.1, unasked]
  · have turn : s₀.after (es ++ [.act (.call i)]) = ((v.spawnRefresher delay).setStage i
        (.confirming (toString id) sub (v.now + timeout))).again (.call i) := last.trans turn
    have calls : (v.spawnRefresher delay).calls = (s₀.after es).calls := by
      have calls : v.calls = (s₀.after es).calls := congrArg Controlled.calls controlled
      simpa [spawnRefresher] using calls
    have stage' : (s₀.after (es ++ [.act (.call i)])).stage? i
        = some (.confirming (toString id) sub ((s₀.after es).now + timeout)) := by
      rw [turn, (alike_again _ _).stage?, stage?_setStage, if_pos rfl, stage?_congr calls, stage,
        time]
      rfl
    have more : (s₀.after (es ++ [.act (.call i)])).spawned = (s₀.after es).spawned + 1 := by
      rw [turn]
      show (v.spawnRefresher delay).spawned = _
      simp [spawnRefresher, spawned]
    have added : (s₀.after (es ++ [.act (.call i)])).refreshers = (s₀.after es).refreshers
        ++ [⟨(s₀.after es).spawned, (s₀.after es).now + delay, none⟩] := by
      rw [turn]
      show (v.spawnRefresher delay).refreshers = _
      simp [spawnRefresher, spawned, refreshers, time]
    have position : (s₀.after (es ++ [.act (.call i)])).link.events.position? sub
        = some s₀.link.events.log.length := by
      have listens : ((s₀.after es).next (.act (.call i))).Listens i sub :=
        ⟨_, last ▸ stage', rfl⟩
      cases next_hears reached.listening listens with
      | kept _ same => rw [last]; exact same.trans there
      | begun _ _ fresh => exact absurd fresh (EventBus.ne_nextSubscription there)
      | heard _ other => exact absurd (stage.symm.trans other) (by simp)
    have grown : s₀.link.events.log.length
        ≤ (s₀.after (es ++ [.act (.call i)])).link.events.log.length := (log_after s₀ _).length_le
    have armed : s₀.Armed (es ++ [.act (.call i)]) (s₀.after es).spawned
        ((s₀.after es).now + delay) :=
      .of_set reachable added now fun n x sender =>
        sender?_next (e := .act (.call i)) _ reached.filed (by simp) (last ▸ sender)
    refine .goesOn (.listens stage' position (Nat.le_refl _) grown ?_ written'
      (now ▸ Nat.le_add_right _ _) (fun late => .inl (by omega))
      ⟨_, _, ?_, written'.time, ?_, armed⟩) ?_
    · exact undecided_start _ _ _
    · rw [refreshersOf_asks (last ▸ more), unasked]
      rfl
    · rw [more]
      exact Nat.lt_succ_self _
    · refine resultsOf_congr ?_
      have results : v.results = (s₀.after es).results := congrArg Controlled.results controlled
      rw [turn]
      show (v.spawnRefresher delay).results = _
      simpa [spawnRefresher] using results

/-- A turn in which the call waits for a report. -/
theorem furthers_of_listens (reachable : s₀.Reachable)
    (stage : (s₀.after es).stage? i = some (.confirming (toString id) sub (w + timeout)))
    (there : (s₀.after es).link.events.position? sub = some p)
    (kept : (s₀.after es).link.events.oldest ≤ p)
    (since : s₀.link.events.log.length ≤ p) (inside : p ≤ (s₀.after es).link.events.log.length)
    (undecided : s₀.Undecided (s₀.after es) (toString id) p)
    (written : s₀.Written es w) (early : (s₀.after es).now ≤ w + timeout)
    (elapsed : w + timeout ≤ (s₀.after es).now → timeout = 0 ∨ s₀.HeardBefore es (w + timeout) p)
    (set : s₀.RefresherSet i delay es es) (punctual : s₀.Punctual (es ++ [.act (.call i)])) :
    s₀.Furthers i id delay timeout es := by
  have last := after_own s₀ es i
  have turn : s₀.after (es ++ [.act (.call i)])
      = (s₀.after es).confirmTurn i (toString id) sub (w + timeout) := by
    rw [last]
    show (s₀.after es).callTurn i = _
    simp only [callTurn, stage]
  have now := now_own s₀ es i
  have grown : (s₀.after es).link.events.log
      <+: (s₀.after (es ++ [.act (.call i)])).link.events.log := last ▸ (next_log (s₀.after es) _).1
  have written' := written.next reachable (.act (.call i))
  have undecided' := undecided.of_grown grown inside
  have goes (spawned : (s₀.after (es ++ [.act (.call i)])).spawned = (s₀.after es).spawned) :
      s₀.RefresherSet i delay (es ++ [.act (.call i)]) (es ++ [.act (.call i)]) :=
    set.along reachable punctual (refreshersOf_own (last ▸ spawned))
  have elapsed' {q : Nat} (forward : p ≤ q)
      (late : w + timeout ≤ (s₀.after (es ++ [.act (.call i)])).now) :
      timeout = 0 ∨ s₀.HeardBefore (es ++ [.act (.call i)]) (w + timeout) q :=
    (elapsed (now ▸ late)).imp_right (·.next forward late)
  have hears := confirmTurn_hearsNext stage there kept
  rw [← turn] at hears
  cases hears with
  | waits alike =>
    refine .goesOn (.listens ((alike.stage? i).trans stage) ?_ since
      (Nat.le_trans inside grown.length_le) undecided' written' (now ▸ early)
      (elapsed' (Nat.le_refl p)) (goes alike.2.2.2.2.2.1)) (resultsOf_congr alike.2.2.2.2.2.2)
    rw [alike.2.1]
    exact there
  | passes found other moved =>
    have bound := (List.getElem?_eq_some_iff.mp found).1
    refine .goesOn (.listens ((moved.stage? i).trans stage) ?_ (Nat.le_succ_of_le since)
      (Nat.le_trans bound grown.length_le) ((undecided.succ since found other).of_grown grown bound)
      written' (now ▸ early) (elapsed' (Nat.le_succ p)) (goes moved.2.2.2.2.2.1))
      (resultsOf_congr moved.2.2.2.2.2.2)
    rw [moved.2.1]
    exact EventBus.position?_seek_self there
  | finds found decides stage' pending spawned =>
    exact .goesOn (.finds stage' written' (now ▸ early)
      (verdictSince_mono grown (undecided.decided since found decides)) (goes spawned)) pending
  | loses found decides result =>
    exact .answers result (.lost written.sent (undecided.decided since found decides))
      fun _ => set.next reachable punctual
  | gives expired silent result =>
    refine .answers result (.late written.sent written.time (Nat.le_antisymm early expired) ?_)
      fun _ => set.next reachable punctual
    rcases silent with spent | all
    · refine .inr ⟨spent, (elapsed expired).imp_right fun heard fs first before => ?_⟩
      obtain ⟨gs, rfl⟩ := first
      refine undecided.verdictSince ?_ (heard fs (List.prefix_append _ _) before)
      rw [after_append]
      exact log_after _ gs
    · exact .inl (undecided.verdictSince (List.prefix_refl _) all)

/-- A turn in which the call looks up what is stored of the setting. -/
theorem furthers_of_finds (reachable : s₀.Reachable) (entered : s₀.Entered (s₀.after es))
    (stage : (s₀.after es).stage? i = some (.lookingUp (toString id)))
    (written : s₀.Written es w) (early : (s₀.after es).now ≤ w + timeout)
    (found : s₀.verdictSince (s₀.after es) (toString id) = some true)
    (set : s₀.RefresherSet i delay es es) (punctual : s₀.Punctual (es ++ [.act (.call i)])) :
    s₀.Furthers i id delay timeout es := by
  have last := after_own s₀ es i
  have turn : s₀.after (es ++ [.act (.call i)]) = (s₀.after es).use (.call i) .settings (fun u => u)
      fun u => u.finish i (.reported (u.link.settings.get? (toString id))) := by
    rw [last]
    show (s₀.after es).callTurn i = _
    simp only [callTurn, stage]
    rfl
  have now := now_own s₀ es i
  rcases use_cases (s₀.after es) (.call i) .settings (fun u => u)
    (fun u => u.finish i (.reported (u.link.settings.get? (toString id))))
    with alike | ⟨u, alike, same⟩
  · rw [← turn] at alike
    refine .goesOn (.finds ((alike.stage? i).trans stage) (written.next reachable _) (now ▸ early)
      ?_ (set.along reachable punctual (refreshersOf_own (last ▸ alike).2.2.2.2.2.1)))
      (resultsOf_congr alike.2.2.2.2.2.2)
    exact verdictSince_mono (last ▸ (next_log (s₀.after es) (.act (.call i))).1) found
  · have left := (alike_leave u .settings).trans alike
    obtain ⟨ev, member, decides⟩ := List.exists_of_findSome?_eq_some found
    obtain ⟨v, reported⟩ := setting_of_verdict? decides
    obtain rfl := Heard.event.inj reported
    obtain ⟨v', stored⟩ := Option.ne_none_iff_exists'.mp (entered.known _ _ member)
    refine .answers (r := .reported (some v')) ?_ (.reported written.sent written.time early found
      stored) fun _ => set.next reachable punctual
    rw [turn, same, resultsOf_finish _ i (by simp), left.2.1, stored,
      resultsOf_congr left.2.2.2.2.2.2]

/-- **The turns of the call.** -/
theorem Stance.furthers (stance : s₀.Stance i id delay timeout es) (reachable : s₀.Reachable)
    (attentive : s₀.Attentive i (es ++ [.act (.call i)])) :
    s₀.Furthers i id delay timeout es := by
  have punctual := attentive.punctual
  cases stance with
  | sends stage there known time unasked => exact furthers_of_sends stage there known time unasked
  | counts stage there written unasked =>
    exact furthers_of_counts reachable stage there written unasked
  | listens stage there since inside undecided written early elapsed set =>
    exact furthers_of_listens reachable stage there
      (attentive.kept es _ [] rfl _ _ ⟨_, stage, rfl⟩ there) since inside undecided written early
      elapsed set punctual
  | finds stage written early found set =>
    exact furthers_of_finds reachable (attentive.init.remembers.entered reachable) stage written
      early found set punctual

/-! ## The whole call -/

/-- **How a call that confirms a setting goes**: it goes on, or has answered. -/
inductive Hearkens (s₀ : Session) (i : Nat) (id : UInt16) (delay timeout : Nat) (es : List Event) :
    Prop
  | pending (none : (s₀.after es).resultsOf i = s₀.resultsOf i)
      (stance : s₀.Stance i id delay timeout es)
  | answered {fs : List Event} {e : Event} {r : Result} (first : fs ++ [e] <+: es)
      (before : (s₀.after fs).resultsOf i = s₀.resultsOf i)
      (result : (s₀.after (fs ++ [e])).resultsOf i = s₀.resultsOf i ++ [r])
      (replies : s₀.Replies id timeout fs r)
      (set : (s₀.after fs).link.delivery? s₀.link.posts.length = some .sent →
        s₀.RefresherSet i delay fs es)

/-- A turn of a call that has not answered yet. -/
theorem Furthers.hearkens (furthers : s₀.Furthers i id delay timeout es)
    (none : (s₀.after es).resultsOf i = s₀.resultsOf i) :
    s₀.Hearkens i id delay timeout (es ++ [.act (.call i)]) := by
  cases furthers with
  | goesOn stance pending => exact .pending (pending.trans none) stance
  | answers result replies set =>
    exact .answered (List.prefix_refl _) none (none ▸ result) replies set

/-- What one event does to the call. -/
theorem Hearkens.next (hearkens : s₀.Hearkens i id delay timeout es) (reachable : s₀.Reachable)
    (attentive : s₀.Attentive i (es ++ [e])) : s₀.Hearkens i id delay timeout (es ++ [e]) := by
  cases hearkens with
  | pending none stance =>
    by_cases own : e = .act (.call i)
    · subst own
      exact (stance.furthers reachable attentive).hearkens none
    · refine .pending ?_ (stance.aside reachable attentive own)
      rw [after_append, after_cons, after_nil, resultsOf_next _ own]
      exact none
  | answered first before result replies set =>
    exact .answered (first.trans (List.prefix_append _ _)) before result replies
      fun sent => (set sent).next reachable attentive.punctual

theorem hearkens_after (reachable : s₀.Reachable)
    (begins : s₀.stage? i = some (.begin (.confirmSetting id value delay timeout)))
    (fs : List Event) (attentive : s₀.Attentive i (.act (.call i) :: fs)) :
    s₀.Hearkens i id delay timeout (.act (.call i) :: fs) := by
  induction fs using List.reverseRecOn with
  | nil => exact (furthers_of_begins begins).hearkens rfl
  | append_singleton fs e ih =>
    rw [← List.cons_append] at attentive ⊢
    exact (ih attentive.init).next reachable attentive

/-- **What the call still waits for** when everybody waits. -/
theorem Stance.awaits (stance : s₀.Stance i id delay timeout es) (reachable : s₀.Reachable)
    (quiescent : (s₀.after es).Quiescent) : s₀.Awaits i id delay timeout es := by
  have waits := (reachable.after es).quiescent_iff.mp quiescent (.call i)
  cases stance with
  | sends stage _ known =>
    simp only [Waits, stage] at waits
    have there : (s₀.after es).link.posts[s₀.link.posts.length]? = some _ :=
      List.getElem?_eq_getElem known
    refine .unwritten ⟨_, there, ?_⟩
    simpa [Link.delivery?, there] using waits
  | counts stage | finds stage => simp [Waits, stage] at waits
  | @listens sub p w stage there _ _ undecided written _ _ set =>
    simp only [Waits, stage] at waits
    obtain ⟨early, none⟩ := waits
    exact .report written.sent written.time early
      (undecided.verdictSince (List.prefix_refl _) (EventBus.length_le_of_silent none there))
      (set.once reachable quiescent)

/-- **The line of the call** is the first one that is handed over since it began. -/
theorem origin?_of_begins (reachable : s₀.Reachable)
    (begins : s₀.stage? i = some (.begin (.confirmSetting id value delay timeout)))
    {c : Connection} (here : s₀.link.connection = some c) (fs : List Event) :
    (s₀.after (.act (.call i) :: fs)).link.traffic.origin? s₀.link.posts.length
      = some (c.number, .call i, .ofLine s!"${id}={value}") := by
  obtain ⟨u, turn, same⟩ := next_of_begins begins here
  have posts : (s₀.next (.act (.call i))).link.traffic.posts
      = s₀.link.posts ++ [⟨c.number, .call i, .ofLine s!"${id}={value}", none, none⟩] := by
    rw [turn]
    exact congrArg Link.posts same.2.1
  have kept := (onward_after (reachable.next (.act (.call i))).filed fs).2.origins
  rw [after_cons, origin?_of_kept kept (by simp [posts]), origin?, posts]
  simp [Post.origin]

/-- **The call misses nothing** that is reported, in every run in which it is attentive, whatever
others do. -/
theorem heeds_after (reachable : s₀.Reachable)
    (begins : s₀.stage? i = some (.begin (.confirmSetting id value delay timeout)))
    (fs : List Event) (attentive : s₀.Attentive i (.act (.call i) :: fs)) :
    (∀ c, s₀.link.connection = some c →
      (s₀.after (.act (.call i) :: fs)).link.traffic.origin? s₀.link.posts.length
        = some (c.number, .call i, .ofLine s!"${id}={value}")) ∧
      s₀.Heeds i id delay timeout (.act (.call i) :: fs) := by
  refine ⟨fun c here => origin?_of_begins reachable begins here fs, ?_⟩
  cases hearkens_after reachable begins fs attentive with
  | pending none stance => exact .pending none (stance.awaits reachable)
  | answered first before result replies set =>
    exact .answered first before result replies fun sent quiescent =>
      (set sent).once reachable quiescent

/-- The refresher asks for the settings, and the device reports the new value. -/
def reportedBack : List Event :=
  .act (.refresher 0) :: List.replicate 3 (.act .writer) ++
    .device 2 (.send "$110=5\nok\n".toUTF8.toList) :: List.replicate 8 (.act .reader) ++
    List.replicate 2 (.act (.call 1))

/-- A setting is written, and read back in time. -/
def askedFor : List Event := written ++ .elapse 100 :: reportedBack

/-- A link is open, and a call begins that waits for a report. -/
def expectant : Session :=
  (initial none).after (Event.swift 0 (.connect "/dev/mock0" none) ++
    [.call 1 (.confirmSetting 110 "5" 100 1000)])

/-- When the line is written, everybody waits for the refresher. -/
theorem quiescent_written : (expectant.after written).Quiescent := by
  have reachable : (expectant.after written).Reachable := (Reachable.of_run none _).after written
  have calls : (expectant.after written).calls = [(1, .confirming "110" 1 1000)] := by
    decide +kernel
  have heard : (expectant.after written).now = 0 ∧
      ((expectant.after written).link.events.receive 1).1 = none := by decide +kernel
  have timers : (expectant.after written).refreshers = [⟨0, 100, none⟩] := by decide +kernel
  have task : (expectant.after written).streamer.task = none := by decide +kernel
  have connection : (expectant.after written).link.connection.map (fun c => (c.writer,
      c.realtime.isEmpty, c.lines.isEmpty, c.chores.isEmpty, c.inbox.isEmpty, c.pollers.isEmpty))
        = some (.idle, true, true, true, true, true) := by decide +kernel
  generalize expectant.after written = s at *
  obtain ⟨c, here, parts⟩ := Option.map_eq_some_iff.mp connection
  simp only [Prod.mk.injEq, List.isEmpty_iff] at parts
  obtain ⟨writer, realtime, lines, chores, inbox, pollers⟩ := parts
  refine reachable.quiescent_iff.mpr fun a => ?_
  cases a with
  | call i =>
    by_cases own : i = 1
    · simpa [Waits, stage?, calls, own, heard.1] using heard.2
    · have absent : (i == 1) = false := by simpa using own
      simp [Waits, stage?, calls, List.lookup_cons, absent]
  | job n => exact waits_of_no_task task n
  | poller n => simp [Waits, poller?, here, pollers]
  | refresher n =>
    by_cases own : n = 0
    · simp [Waits, refresher?, timers, own, heard.1]
    · simp [Waits, refresher?, timers, Ne.symm own]
  | writer => simp [Waits, here, writer, realtime, lines]
  | reader => simp [Waits, here, chores, inbox]

/-- Time passes once while the setting is read back. -/
theorem split_askedFor {fs gs : List Event} {time : Nat}
    (split : askedFor = fs ++ .elapse time :: gs) : fs = written ∧ time = 100 := by
  obtain ⟨before, now, -⟩ := (List.append_cons_inj_of_notMem (by simp [written])
    (by simp [reportedBack])).mp split
  exact ⟨before.symm, (Event.elapse.inj now).symm⟩

/-- The call misses nothing while the setting is read back. -/
theorem heeds_after_readBack :
    expectant.Heeds 1 110 100 1000 askedFor ∧
      (expectant.after askedFor).resultsOf 1 = [.reported (some "5")] := by
  have reachable : expectant.Reachable := .of_run none _
  have remembers : expectant.Remembers askedFor :=
    .of_alone (i := 1) (c := .confirmSetting 110 "5" 100 1000) (by decide +kernel) (by simp)
      (by decide +kernel) (by simp [askedFor, reportedBack, written])
  have punctual : expectant.Punctual askedFor := by
    intro fs time gs split
    obtain ⟨rfl, rfl⟩ := split_askedFor split
    decide +kernel
  have attentive : expectant.Attentive 1 askedFor :=
    .of_short reachable remembers (by decide +kernel) punctual
      fun fs time gs split => (split_askedFor split).1 ▸ quiescent_written
  have begins : expectant.stage? 1 = some (.begin (.confirmSetting 110 "5" 100 1000)) := by
    decide +kernel
  exact ⟨(heeds_after reachable begins askedFor.tail attentive).2, by decide +kernel⟩

/-- A call begins that has no time to wait, while the device takes no bytes. -/
def hasty : Session :=
  (initial none).after (Event.swift 0 (.connect "/dev/mock0" none) ++
    [.device 1 .stall, .call 2 (.confirmSetting 3 "1" 100 0)])

/-- A stretch of an actor, in which it has some turns. -/
def stretchOf (a : Actor) (turns : Nat) : List Event :=
  .schedule [] none stretchCredit [] 0 :: List.replicate turns (.act a)

/-- Many lines, and then the setting. -/
def chatter : List UInt8 :=
  (List.replicate 126 "x\n".toUTF8.toList).flatten ++ "$3=5\n".toUTF8.toList

/-- The device sends many lines and then the setting before it takes bytes again. The call hears all
those lines in its stretch, and has no credit left then. -/
def crowded : List Event :=
  .act (.call 2) :: stretchOf .writer 2 ++ .device 3 (.send chatter) ::
    stretchOf .reader 130 ++ stretchOf .reader 130 ++ .device 4 .unstall ::
    stretchOf .writer 1 ++ stretchOf (.call 2) 128

/-- **A report is missed** by a call that has no time to wait: the line is written, the setting is
reported and stored before, and nevertheless the call says that it was not reported. -/
theorem missed_crowded :
    hasty.Attentive 2 crowded ∧ (hasty.after crowded).link.delivery? 0 = some .sent ∧
      (hasty.sentAt? crowded 0, (hasty.after crowded).now) = (some 0, 0) ∧
      (hasty.verdictSince (hasty.after crowded) "3",
        (hasty.after crowded).link.settings.get? "3") = (some true, some "5") ∧
      (hasty.after (crowded ++ [.act (.call 2)])).resultsOf 2 = [.reported none] := by
  have reachable : hasty.Reachable := .of_run none _
  have turns : ∀ f ∈ crowded, f.isTurn = true ∨ f = .device 3 (.send chatter) ∨
      f = .device 4 .unstall := by
    simp only [crowded, stretchOf]
    decide +kernel
  have remembers : hasty.Remembers crowded :=
    .of_alone (i := 2) (c := .confirmSetting 3 "1" 100 0) (by decide +kernel) (by simp)
      (by decide +kernel) fun j member => absurd (turns _ member) (by simp [Event.isTurn])
  have still (fs : List Event) (time : Nat) (gs : List Event) :
      crowded ≠ fs ++ .elapse time :: gs := by
    intro split
    have member : .elapse time ∈ crowded := by simp [split]
    exact absurd (turns _ member) (by simp [Event.isTurn])
  exact ⟨.of_short reachable remembers (by decide +kernel)
    (fun fs time gs split => absurd split (still fs time gs))
    (fun fs time gs split => absurd split (still fs time gs)), by decide +kernel, by decide +kernel,
    by decide +kernel, by decide +kernel⟩

end Cnc.Session
