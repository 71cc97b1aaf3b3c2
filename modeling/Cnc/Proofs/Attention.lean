import Cnc.Proofs.Confirmations
import Cnc.Proofs.Refreshing

/-!
# A call that waits for a report

A call that waits for a setting to be reported hears what is published on the
link, one event after the other. The first event that is a report of the
setting or the end of the connection decides (`Session.verdictSince`). In its
turn such a call hears the next event, unless there is none or it has no credit
left; then it looks at its time (`Session.confirmTurn_hearsNext`).

In runs in which the call is attentive (`Session.Attentive`) nothing escapes
it, and what was reported is stored (`Session.Remembers.entered`).
-/

namespace Cnc.Session

open Traffic

variable {s t s₀ : Session} {e : Event} {es : List Event} {i p q due : Nat} {key : String}

/-! ## What decides -/

/-- **What the events of the link since `s₀` mean** to a call that waits for a setting: whether a
report of it came first, or the end of the connection. -/
def verdictSince (s₀ s : Session) (key : String) : Option Bool :=
  (s.link.events.log.drop s₀.link.events.log.length).findSome? fun ev => verdict? key (.event ev)

/-- What has decided stays decisive. -/
theorem verdictSince_mono {b : Bool} (grown : s.link.events.log <+: t.link.events.log)
    (decided : s₀.verdictSince s key = some b) : s₀.verdictSince t key = some b := by
  obtain ⟨new, log⟩ := grown.drop s₀.link.events.log.length
  rw [verdictSince, ← log, List.findSome?_append]
  exact congrArg (Option.or · _) decided

/-- **None of the events since `s₀` up to the place `p` has decided.** -/
def Undecided (s₀ s : Session) (key : String) (p : Nat) : Prop :=
  ((s.link.events.log.take p).drop s₀.link.events.log.length).findSome?
    (fun ev => verdict? key (.event ev)) = none

theorem undecided_start (s₀ s : Session) (key : String) :
    s₀.Undecided s key s₀.link.events.log.length := by
  have nothing : (s.link.events.log.take s₀.link.events.log.length).drop
      s₀.link.events.log.length = [] := by simp
  rw [Undecided, nothing, List.findSome?_nil]

theorem Undecided.of_grown (undecided : s₀.Undecided s key p)
    (grown : s.link.events.log <+: t.link.events.log) (inside : p ≤ s.link.events.log.length) :
    s₀.Undecided t key p := by
  obtain ⟨new, log⟩ := grown
  rwa [Undecided, ← log, List.take_append_of_le_length inside]

/-- One more event that does not decide. -/
theorem Undecided.succ {ev : LinkEvent} (undecided : s₀.Undecided s key p)
    (since : s₀.link.events.log.length ≤ p) (found : s.link.events.log[p]? = some ev)
    (other : verdict? key (.event ev) = none) : s₀.Undecided s key (p + 1) := by
  obtain ⟨inside, rfl⟩ := List.getElem?_eq_some_iff.mp found
  rw [Undecided, List.take_succ_eq_append_getElem inside, List.drop_append_of_le_length
    (by simp; omega), List.findSome?_append, undecided]
  simp [other]

/-- The next event decides, if those before did not. -/
theorem Undecided.decided {ev : LinkEvent} {b : Bool} (undecided : s₀.Undecided s key p)
    (since : s₀.link.events.log.length ≤ p) (found : s.link.events.log[p]? = some ev)
    (decides : verdict? key (.event ev) = some b) : s₀.verdictSince s key = some b := by
  obtain ⟨inside, rfl⟩ := List.getElem?_eq_some_iff.mp found
  have parts : s.link.events.log.drop s₀.link.events.log.length
      = (s.link.events.log.take p).drop s₀.link.events.log.length ++ s.link.events.log.drop p := by
    rw [← List.drop_append_of_le_length (by simp; omega), List.take_append_drop]
  rw [verdictSince, parts, List.findSome?_append, undecided, List.drop_eq_getElem_cons inside,
    List.findSome?_cons, decides]
  rfl

/-- Where all was heard, nothing has decided. -/
theorem Undecided.verdictSince (undecided : s₀.Undecided t key p)
    (grown : s.link.events.log <+: t.link.events.log) (all : s.link.events.log.length ≤ p) :
    s₀.verdictSince s key = none := by
  have heard : s.link.events.log <+: t.link.events.log.take p :=
    List.prefix_take_iff.mpr ⟨grown, all⟩
  refine List.findSome?_eq_none_iff.mpr fun ev member => ?_
  exact List.findSome?_eq_none_iff.mp undecided ev ((heard.drop _).subset member)

/-! ## What is heard in time -/

/-- **All that was published before the time `due`** in a run is heard by one that has come to the
place `p`. -/
def HeardBefore (s₀ : Session) (es : List Event) (due p : Nat) : Prop :=
  ∀ fs, fs <+: es → (s₀.after fs).now < due → (s₀.after fs).link.events.log.length ≤ p

theorem HeardBefore.of_all (all : (s₀.after es).link.events.log.length ≤ p) :
    s₀.HeardBefore es due p := by
  rintro fs ⟨gs, rfl⟩ -
  rw [after_append] at all
  exact Nat.le_trans (log_after (s₀.after fs) gs).length_le all

/-- What is published from then on does not matter. -/
theorem HeardBefore.next (heard : s₀.HeardBefore es due p) (forward : p ≤ q)
    (late : due ≤ (s₀.after (es ++ [e])).now) : s₀.HeardBefore (es ++ [e]) due q := by
  intro fs first early
  rcases List.prefix_concat_iff.mp first with rfl | first
  · exact absurd early (Nat.not_lt.mpr late)
  · exact Nat.le_trans (heard fs first early) forward

/-! ## Attentive runs -/

/-- **No settings are forgotten** in a run: no call begins that forgets them, and the reader is not
about to tell of one that is forgotten already. -/
structure Remembers (s₀ : Session) (es : List Event) : Prop where
  calls : ∀ j, .call j .resetSettings ∉ es
  begun : ∀ j, s₀.stage? j ≠ some (.begin .resetSettings)
  told : ∀ id value rest, s₀.chores = .publish (.setting id value) :: rest →
    s₀.link.settings.get? id ≠ none

/-- **Runs in which nothing escapes the call `i`**: time passes only when nobody has anything to do,
and only up to the next moment that somebody waits for; the call does not fall so far behind that
events are dropped before it has heard them; and no settings are forgotten. -/
structure Attentive (s₀ : Session) (i : Nat) (es : List Event) : Prop where
  unhurried : ∀ fs time gs, es = fs ++ .elapse time :: gs → (s₀.after fs).Quiescent
  punctual : s₀.Punctual es
  kept : ∀ fs e gs, es = fs ++ e :: gs → ∀ sub p, (s₀.after fs).Listens i sub →
    (s₀.after fs).link.events.position? sub = some p → (s₀.after fs).link.events.oldest ≤ p
  remembers : s₀.Remembers es

theorem Remembers.init (remembers : s₀.Remembers (es ++ [e])) : s₀.Remembers es where
  calls j member := remembers.calls j (List.mem_append_left _ member)
  begun := remembers.begun
  told := remembers.told

theorem Attentive.init (attentive : s₀.Attentive i (es ++ [e])) : s₀.Attentive i es where
  unhurried := by
    rintro fs time gs rfl
    exact attentive.unhurried fs time (gs ++ [e]) (by simp)
  punctual := attentive.punctual.init
  kept := by
    rintro fs f gs rfl
    exact attentive.kept fs f (gs ++ [e]) (by simp)
  remembers := attentive.remembers.init

/-- No call is about to forget the settings. -/
theorem Remembers.unforgotten (remembers : s₀.Remembers es) (j : Nat) :
    (s₀.after es).stage? j ≠ some (.begin .resetSettings) := by
  induction es using List.reverseRecOn with
  | nil => exact remembers.begun j
  | append_singleton es e ih =>
    intro stage
    rw [after_append, after_cons, after_nil] at stage
    rcases next_follows _ e stage with ⟨st, before, follows⟩ | ⟨c, rfl, -, begins⟩
    · exact ih remembers.init (by rw [before, follows.begin_iff rfl])
    · obtain rfl := CallStage.begin.inj begins
      exact remembers.calls j (by simp)

/-- **What was reported is stored**, when no settings are forgotten. -/
theorem Remembers.entered (remembers : s₀.Remembers es) (reachable : s₀.Reachable) :
    s₀.Entered (s₀.after es) := by
  induction es using List.reverseRecOn with
  | nil =>
    refine ⟨by simp, ?_⟩
    rcases reachable.filing with sound | ⟨first, sound, -⟩
    · exact .inl sound
    · exact .inr ⟨_, _, _, first, sound, remembers.told _ _ _ first⟩
  | append_singleton es e ih =>
    rw [after_append, after_cons, after_nil]
    exact (ih remembers.init).next (log_after s₀ es).length_le remembers.init.unforgotten e

/-- Where one call begins and the reader has nothing to do, no settings are about to be
forgotten. -/
theorem Remembers.of_alone {c : Call} (calls : s₀.calls = [(i, .begin c)])
    (other : c ≠ .resetSettings) (idle : s₀.chores = []) (kept : ∀ j, .call j .resetSettings ∉ es) :
    s₀.Remembers es where
  calls := kept
  begun j := by
    rw [stage?, calls, List.lookup_cons]
    split <;> simp [other]
  told := by simp [idle]

/-- A call never falls behind where no more events are published than are kept. -/
theorem Attentive.of_short (reachable : s₀.Reachable) (remembers : s₀.Remembers es)
    (short : (s₀.after es).link.events.log.length ≤ 256) (punctual : s₀.Punctual es)
    (unhurried : ∀ fs time gs, es = fs ++ .elapse time :: gs → (s₀.after fs).Quiescent) :
    s₀.Attentive i es where
  unhurried := unhurried
  punctual := punctual
  kept := by
    rintro fs e gs rfl sub p - -
    obtain ⟨T, before, rfl⟩ := reachable
    have grown := (log_after (((initial T).after before).after fs) (e :: gs)).length_le
    rw [after_append] at short
    have capacity := capacity_after T (before ++ fs)
    rw [after_append] at capacity
    rw [EventBus.oldest, capacity, Nat.sub_eq_zero_of_le (Nat.le_trans grown short)]
    exact Nat.zero_le p
  remembers := remembers

/-! ## The turn of the call -/

variable {sub deadline : Nat}

/-- Time stops for a call that waits for a report. -/
theorem mem_timers_of_confirming (stage : s.stage? i = some (.confirming key sub deadline)) :
    (deadline, .call i) ∈ s.timers := by
  obtain ⟨before, after, calls, -⟩ := List.lookup_eq_some_iff.mp stage
  have member : (i, .confirming key sub deadline) ∈ s.calls := by simp [calls]
  exact List.mem_append_right _ (List.mem_filterMap.mpr ⟨_, member, rfl⟩)

/-- **What a call does in its turn that waits for a report** and has not fallen behind. -/
inductive HearsNext (s : Session) (i : Nat) (key : String) (sub deadline p : Nat) (t : Session) :
    Prop
  | waits (alike : t.Alike s) (early : s.now < deadline)
  | passes {ev : LinkEvent} (found : s.link.events.log[p]? = some ev)
      (other : verdict? key (.event ev) = none)
      (moved : t.Alike { s with link.events := s.link.events.seek sub (some (p + 1)) })
  | finds {ev : LinkEvent} (found : s.link.events.log[p]? = some ev)
      (decides : verdict? key (.event ev) = some true)
      (stage : t.stage? i = some (.lookingUp key)) (pending : t.resultsOf i = s.resultsOf i)
      (spawned : t.spawned = s.spawned)
  | loses {ev : LinkEvent} (found : s.link.events.log[p]? = some ev)
      (decides : verdict? key (.event ev) = some false)
      (result : t.resultsOf i = s.resultsOf i ++ [.linkError .notConnected])
  | gives (elapsed : deadline ≤ s.now) (silent : s.credit = 0 ∨ s.link.events.log.length ≤ p)
      (result : t.resultsOf i = s.resultsOf i ++ [.reported none])

theorem confirmTurn_hearsNext (stage : s.stage? i = some (.confirming key sub deadline))
    (there : s.link.events.position? sub = some p) (kept : s.link.events.oldest ≤ p) :
    s.HearsNext i key sub deadline p (s.confirmTurn i key sub deadline) := by
  have gives (elapsed : deadline ≤ s.now) (silent : s.credit = 0 ∨ s.link.events.log.length ≤ p) :
      s.HearsNext i key sub deadline p ((s.unsubscribe sub).finish i (.reported none)) :=
    .gives elapsed silent (resultsOf_finish _ i (by simp))
  unfold confirmTurn
  dsimp only
  by_cases credit : s.credit = 0
  · rw [if_pos credit]
    by_cases elapsed : deadline ≤ s.now
    · rw [if_pos elapsed]
      exact gives elapsed (.inl credit)
    · rw [if_neg elapsed]
      exact .waits (alike_giveWay s _) (Nat.not_le.mp elapsed)
  · rw [if_neg credit]
    have received := s.link.events.receives sub
    generalize s.link.events.receive sub = r at received
    cases received with
    | silent all =>
      dsimp only
      by_cases elapsed : deadline ≤ s.now
      · rw [if_pos elapsed]
        exact gives elapsed (.inr (all p there))
      · rw [if_neg elapsed]
        exact .waits (.refl s) (Nat.not_le.mp elapsed)
    | lagged own behind =>
      obtain rfl := Option.some.inj (there.symm.trans own)
      exact absurd behind (Nat.not_lt.mpr kept)
    | event own _ found =>
      obtain rfl := Option.some.inj (there.symm.trans own)
      dsimp only
      split
      · next other => exact .passes found other ⟨rfl, rfl, rfl, rfl, rfl, rfl, rfl⟩
      · next decides =>
        refine .finds found decides ?_ rfl rfl
        rw [(alike_again _ _).stage?, stage?_setStage, if_pos rfl]
        show (s.stage? i).map _ = _
        rw [stage]
        rfl
      · next decides => exact .loses found decides (resultsOf_finish _ i (by simp))

end Cnc.Session
