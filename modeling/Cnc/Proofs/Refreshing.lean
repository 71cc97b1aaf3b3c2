import Cnc.Proofs.Custody
import Cnc.Proofs.Moments
import Cnc.Proofs.Texts

/-!
# Timers that go off on time

A refresher is a timer that asks for all settings once. When time passes only up
to the next moment that somebody waits for, it goes off at the very time that it
was set for. If the link is open then, it hands its request over, and it does so
only once; if the link is closed, it hands over nothing
(`Session.Armed.refreshes`).

Refreshers are told apart by their numbers, which are never given twice
(`Session.Numbered`).
-/

namespace Cnc.Session

open Traffic

variable {s t u s₀ : Session} {e : Event} {es fs : List Event} {n due x : Nat}

/-- **Time passes only up to the next moment that somebody waits for.** -/
def Punctual (s : Session) (es : List Event) : Prop :=
  ∀ fs time gs, es = fs ++ .elapse time :: gs →
    ∀ d ∈ (s.after fs).timers, (s.after fs).now + time ≤ d.1

theorem Punctual.init (punctual : s.Punctual (es ++ [e])) : s.Punctual es := by
  rintro fs time gs rfl
  exact punctual fs time (gs ++ [e]) (by simp)

/-- Time stops for a refresher that has not asked yet. -/
theorem mem_timers_of_refresher? {r : Refresher} (timer : s.refresher? n = some r)
    (free : r.sending = none) : (r.due, .refresher n) ∈ s.timers := by
  obtain rfl : r.number = n := by simpa using List.find?_some timer
  refine List.mem_append_left _ (List.mem_append_right _ (List.mem_map.mpr ⟨r, ?_, rfl⟩))
  exact List.mem_filter.mpr ⟨List.mem_of_find?_eq_some timer, by simp [free]⟩

/-! ## The turn of a refresher -/

/-- **What a refresher does in its turn.** -/
inductive Rings (s : Session) (n : Nat) (t : Session) : Prop
  /-- It is gone, waits for its time, or has asked already. -/
  | stays (origins : t.link.traffic.origins = s.link.traffic.origins)
      (early : ∀ r, s.refresher? n = some r → r.sending = none → s.now < r.due)
      (left : ∀ r, t.refresher? n = some r → s.refresher? n = some r)
      (timer : ∀ r, s.refresher? n = some r → r.sending = none → t.refresher? n = some r)
  /-- It asks for the settings. -/
  | asks {r : Refresher} (timer : s.refresher? n = some r) (free : r.sending = none)
      (late : r.due ≤ s.now) (isOpen : s.link.connection.isSome = true)
      (sender : t.link.traffic.sender? s.link.posts.length = some (.refresher n))
      (payload : t.link.payload? s.link.posts.length = some (.ofLine Command.dumpSettings.line))
      (length : t.link.posts.length = s.link.posts.length + 1)
      (noted : t.refresher? n = some { r with sending := some s.link.posts.length })
  /-- The link is closed. -/
  | vanishes {r : Refresher} (timer : s.refresher? n = some r) (free : r.sending = none)
      (late : r.due ≤ s.now) (closed : s.link.connection = none)
      (origins : t.link.traffic.origins = s.link.traffic.origins) (gone : t.refresher? n = none)

theorem refresher?_dropRefresher_self (s : Session) (n : Nat) :
    (s.dropRefresher n).refresher? n = none := by
  simp [refresher?, dropRefresher, List.find?_eq_none]

/-- **The turn of a refresher.** -/
theorem refresherTurn_rings (s : Session) (n : Nat) : s.Rings n (s.refresherTurn n) := by
  unfold refresherTurn
  cases timer : s.refresher? n with
  | none => exact .stays rfl (by simp [timer]) (fun _ => id) (by simp [timer])
  | some r =>
    cases sending : r.sending with
    | none =>
      simp only [sending]
      by_cases late : r.due ≤ s.now
      · rw [if_pos late]
        cases here : s.link.connection with
        | none =>
          rw [post?_of_closed here]
          exact .vanishes timer sending late here rfl (refresher?_dropRefresher_self s n)
        | some c =>
          cases posted : s.post? (.refresher n) (.ofLine Command.dumpSettings.line) with
          | none =>
            obtain ⟨t, same, -⟩ := post?_of_open here (.refresher n)
              (.ofLine Command.dumpSettings.line)
            exact absurd (posted.symm.trans same) (by simp)
          | some made =>
            obtain ⟨y, u⟩ := made
            obtain ⟨rfl, length⟩ := post?_length posted
            have move := (post?_move posted).2
            have noted := refresher?_noted (some s.link.posts.length)
              (congrArg Ledger.refreshers (post?_ledger posted)) timer
            refine .asks timer sending late (by simp [here]) move.sender?_post ?_ length noted
            show u.link.traffic.payload? _ = _
            generalize u.link.traffic = v at move
            cases move
            simp [Traffic.payload?, Link.traffic]
      · rw [if_neg late]
        refine .stays rfl (fun r' same _ => ?_) (fun _ => id) fun r' same _ => same
        obtain rfl := Option.some.inj (timer.symm.trans same)
        exact Nat.not_le.mp late
    | some y =>
      have busy (r' : Refresher) (same : s.refresher? n = some r') : r'.sending ≠ none := by
        obtain rfl := Option.some.inj (timer.symm.trans same)
        simp [sending]
      -- whatever it does now, it has asked before
      have spent {t : Session} (origins : t.link.traffic.origins = s.link.traffic.origins)
          (left : ∀ r, t.refresher? n = some r → s.refresher? n = some r) : s.Rings n t :=
        .stays origins (fun r' same free => absurd free (busy r' same)) left
          fun r' same free => absurd free (busy r' same)
      have dropped (u : Session) (r' : Refresher)
          (same : (u.dropRefresher n).refresher? n = some r') : s.refresher? n = some r' :=
        absurd ((refresher?_dropRefresher_self u n).symm.trans same) (by simp)
      simp only [sending]
      split
      · exact spent rfl fun _ => id
      · split
        · refine spent ?_ ?_
          · exact use_keeps (·.link.traffic.origins)
              (fun alike => congrArg (·.traffic.origins) alike.2.1)
              (fun u => congrArg Traffic.origins (countSent_traffic u y)) fun u => rfl
          · rcases use_cases s (.refresher n) .stats (·.countSent y) (·.dropRefresher n) with
              alike | ⟨u, -, same⟩
            · simp only [refresher?, alike.2.2.2.2.1]
              exact fun _ => id
            · rw [same]
              exact dropped _
        · exact spent rfl (dropped s)

/-- A refresher gives no number away, and its turn leaves no more refreshers than there were. -/
theorem refresherTurn_numbers (s : Session) (n : Nat) :
    ((s.refresherTurn n).refreshers.map (·.number)).Sublist (s.refreshers.map (·.number)) ∧
      (s.refresherTurn n).spawned = s.spawned := by
  have still {t : Session} (refreshers : t.refreshers = s.refreshers)
      (spawned : t.spawned = s.spawned) :
      (t.refreshers.map (·.number)).Sublist (s.refreshers.map (·.number)) ∧
        t.spawned = s.spawned := ⟨by rw [refreshers], spawned⟩
  have dropped (u : Session) (refreshers : u.refreshers = s.refreshers)
      (spawned : u.spawned = s.spawned) :
      ((u.dropRefresher n).refreshers.map (·.number)).Sublist (s.refreshers.map (·.number)) ∧
        (u.dropRefresher n).spawned = s.spawned :=
    ⟨refreshers ▸ List.filter_sublist.map _, spawned⟩
  unfold refresherTurn
  split
  · exact still rfl rfl
  · split
    · split
      · split
        · exact dropped s rfl rfl
        · next y u posted =>
          have kept := post?_ledger posted
          have same : u.refreshers = s.refreshers := congrArg Ledger.refreshers kept
          have numbers : (u.refreshers.map fun q =>
              if q.number = n then { q with sending := some y } else q).map (·.number)
                = s.refreshers.map (·.number) := by
            rw [same, List.map_map]
            refine List.map_congr_left fun q _ => ?_
            dsimp only [Function.comp]
            split <;> rfl
          refine ⟨?_, congrArg Ledger.spawned kept⟩
          show List.Sublist (List.map _ (List.map _ u.refreshers)) _
          rw [numbers]
      · exact still rfl rfl
    · next y _ =>
      split
      · exact still rfl rfl
      · split
        · rcases use_cases s (.refresher n) .stats (·.countSent y) (·.dropRefresher n) with
            alike | ⟨u, alike, same⟩
          · exact still alike.2.2.2.2.1 alike.2.2.2.2.2.1
          · rw [same]
            have left := alike_leave (u.countSent y) .stats
            refine dropped _ ?_ ?_
            · exact left.2.2.2.2.1.trans ((countSent_refreshers u y).trans alike.2.2.2.2.1)
            · exact left.2.2.2.2.2.1.trans ((countSent_spawned u y).trans alike.2.2.2.2.2.1)
        · exact dropped s rfl rfl

/-! ## Numbers -/

/-- **No number is given twice**: every refresher that there is, or that has handed anything over,
has one that was given before. -/
structure Numbered (s : Session) : Prop where
  timers : ∀ r ∈ s.refreshers, r.number < s.spawned
  senders : ∀ x n, s.link.traffic.sender? x = some (.refresher n) → n < s.spawned

theorem spawned_le_next (s : Session) (e : Event) : s.spawned ≤ (s.next e).spawned := by
  by_cases own : ∃ n, e = .act (.refresher n)
  · obtain ⟨n, rfl⟩ := own
    exact Nat.le_of_eq (refresherTurn_numbers s n).2.symm
  · rcases next_refreshers (s := s) (fun n same => own ⟨n, same⟩) with
      ⟨-, later⟩ | ⟨_, _, _, _, -, -, -, next⟩
    · exact later
    · exact next ▸ Nat.le_succ _

theorem Numbered.next (numbered : s.Numbered) (filed : s.link.traffic.Filed) (e : Event) :
    (s.next e).Numbered := by
  have later := spawned_le_next s e
  constructor
  case timers =>
    by_cases own : ∃ n, e = .act (.refresher n)
    · obtain ⟨n, rfl⟩ := own
      intro r member
      obtain ⟨q, before, same⟩ := List.mem_map.mp
        ((refresherTurn_numbers s n).1.subset (List.mem_map_of_mem member))
      exact same ▸ Nat.lt_of_lt_of_le (numbered.timers q before) later
    · rcases next_refreshers (s := s) (fun n same => own ⟨n, same⟩) with
        ⟨same, -⟩ | ⟨_, _, _, _, -, -, added, next⟩
      · intro r member
        exact Nat.lt_of_lt_of_le (numbered.timers r (same ▸ member)) later
      · intro r member
        rw [added] at member
        rcases List.mem_append.mp member with before | new
        · exact Nat.lt_of_lt_of_le (numbered.timers r before) later
        · rw [List.mem_singleton.mp new, next]
          exact Nat.lt_succ_self _
  case senders =>
    intro x n sender
    by_cases own : e = .act (.refresher n)
    · subst own
      have rings : s.Rings n (s.next (.act (.refresher n))) := refresherTurn_rings s n
      cases rings with
      | stays origins | vanishes _ _ _ _ origins =>
        rw [sender?_eq, ← getElem?_origins, origins, getElem?_origins, ← sender?_eq] at sender
        exact Nat.lt_of_lt_of_le (numbered.senders x n sender) later
      | asks timer =>
        obtain rfl : _ = n := by simpa using List.find?_some timer
        exact Nat.lt_of_lt_of_le (numbered.timers _ (List.mem_of_find?_eq_some timer)) later
    · exact Nat.lt_of_lt_of_le (numbered.senders x n (sender?_next s filed own sender)) later

theorem Reachable.numbered (reachable : s.Reachable) : s.Numbered := by
  obtain ⟨timeout, es, rfl⟩ := reachable
  induction es using List.reverseRecOn with
  | nil =>
    constructor
    · simp [initial]
    · simp [initial, Link.initial, Link.traffic, Traffic.sender?]
  | append_singleton es e ih =>
    rw [after_append, after_cons, after_nil]
    exact ih.next (filed_after timeout es) e

/-- **A refresher goes on in its own turns only**, and no other one gets its number. -/
theorem refresher?_next (known : n < s.spawned) (other : e ≠ .act (.refresher n)) :
    (s.next e).refresher? n = s.refresher? n := by
  by_cases refresher : ∃ m, e = .act (.refresher m)
  · obtain ⟨m, rfl⟩ := refresher
    exact refresher?_refresherTurn fun same => other (by rw [same])
  · rcases next_refreshers (s := s) (fun m own => refresher ⟨m, own⟩) with
      ⟨same, -⟩ | ⟨_, _, _, _, -, -, added, -⟩
    · simp only [refresher?, same]
    · have apart : s.spawned ≠ n := Nat.ne_of_gt known
      simp [refresher?, added, List.find?_append, apart]

/-! ## Going off -/

/-- **What the refresher `n` has handed over** by the time of `s`, if it went off in the session
`u`: its request, once, if the link was open then, and nothing otherwise. -/
inductive Requests (u : Session) (n : Nat) (s : Session) : Prop
  | once (isOpen : u.link.connection.isSome = true)
      (sender : ∀ x, s.link.traffic.sender? x = some (.refresher n) ↔ x = u.link.posts.length)
      (payload : s.link.payload? u.link.posts.length = some (.ofLine Command.dumpSettings.line))
  | never (closed : u.link.connection = none)
      (silent : ∀ x, s.link.traffic.sender? x ≠ some (.refresher n))

/-- **A refresher that is set for a time**, and whether it went off in a run. -/
inductive Armed (s₀ : Session) (es : List Event) (n due : Nat) : Prop
  | waits (timer : (s₀.after es).refresher? n = some ⟨n, due, none⟩)
      (early : (s₀.after es).now ≤ due)
      (silent : ∀ x, (s₀.after es).link.traffic.sender? x ≠ some (.refresher n))
  | rang {fs : List Event} (turn : fs ++ [.act (.refresher n)] <+: es)
      (time : (s₀.after fs).now = due)
      (spent : ∀ r, (s₀.after es).refresher? n = some r → r.sending ≠ none)
      (requests : (s₀.after fs).Requests n (s₀.after es))

/-- **What a refresher does that is set for a time**: it hands over nothing before that time, and
goes off then. -/
inductive Refreshes (s₀ : Session) (es : List Event) (n due : Nat) : Prop
  | waits (early : (s₀.after es).now < due)
      (silent : ∀ x, (s₀.after es).link.traffic.sender? x ≠ some (.refresher n))
  | rang {fs : List Event} (turn : fs ++ [.act (.refresher n)] <+: es)
      (time : (s₀.after fs).now = due) (requests : (s₀.after fs).Requests n (s₀.after es))

/-- What was handed over stays so, and nothing is added by others. -/
theorem Requests.next (requests : u.Requests n s) (filed : s.link.traffic.Filed)
    (silent : ∀ x, (s.next e).link.traffic.sender? x = some (.refresher n) →
      s.link.traffic.sender? x = some (.refresher n)) : u.Requests n (s.next e) := by
  have kept := (onward_next filed e).2.origins
  cases requests with
  | once isOpen sender payload =>
    have known := known_of_sender? ((sender _).mpr rfl)
    refine .once isOpen (fun x => ⟨fun own => (sender x).mp (silent x own), ?_⟩) ?_
    · rintro rfl
      rw [sender?_of_kept kept known]
      exact (sender _).mpr rfl
    · exact (payload?_of_kept kept known).trans payload
  | never closed none => exact .never closed fun x own => none x (silent x own)

/-- **A refresher goes off when it is due**: what one event does to it. -/
theorem Armed.next (armed : s₀.Armed es n due) (reachable : s₀.Reachable)
    (known : n < (s₀.after es).spawned) (punctual : s₀.Punctual (es ++ [e])) :
    s₀.Armed (es ++ [e]) n due := by
  have last : s₀.after (es ++ [e]) = (s₀.after es).next e := after_append s₀ es [e]
  have reached := reachable.after es
  have filed := reached.filed
  have longer {gs : List Event} (first : gs <+: es) : gs <+: es ++ [e] :=
    first.trans (List.prefix_append _ _)
  by_cases own : e = .act (.refresher n)
  · subst own
    have rings : (s₀.after es).Rings n (s₀.after (es ++ [.act (.refresher n)])) :=
      last ▸ refresherTurn_rings (s₀.after es) n
    have now : (s₀.after (es ++ [.act (.refresher n)])).now = (s₀.after es).now :=
      last ▸ act_now _ _
    have silent (same : (s₀.after (es ++ [.act (.refresher n)])).link.traffic.origins
        = (s₀.after es).link.traffic.origins) (x : Nat) :
        (s₀.after (es ++ [.act (.refresher n)])).link.traffic.sender? x
          = (s₀.after es).link.traffic.sender? x := by
      rw [sender?_eq, ← getElem?_origins, same, getElem?_origins, ← sender?_eq]
    cases armed with
    | waits timer early none =>
      cases rings with
      | stays origins _ _ stays =>
        exact .waits (stays _ timer rfl) (now ▸ early) fun x => silent origins x ▸ none x
      | asks timer' _ late isOpen sender payload length noted =>
        obtain rfl := Option.some.inj (timer.symm.trans timer')
        refine .rang (List.prefix_refl _) (Nat.le_antisymm early late) ?_
          (.once isOpen (fun x => ⟨fun own => ?_, ?_⟩) payload)
        · intro r same
          obtain rfl := Option.some.inj (noted.symm.trans same)
          simp
        · by_contra other
          have bound := known_of_sender? own
          have old : x < (s₀.after es).link.posts.length := by
            have : x < (s₀.after (es ++ [.act (.refresher n)])).link.posts.length := bound
            omega
          rw [last, sender?_of_kept (onward_next filed _).2.origins old] at own
          exact none x own
        · rintro rfl
          exact sender
      | vanishes timer' _ late closed origins gone =>
        obtain rfl := Option.some.inj (timer.symm.trans timer')
        refine .rang (List.prefix_refl _) (Nat.le_antisymm early late) ?_
          (.never closed fun x => silent origins x ▸ none x)
        exact fun r same => absurd (gone.symm.trans same) (by simp)
    | rang turn time spent requests =>
      cases rings with
      | stays origins _ left =>
        refine .rang (longer turn) time (fun r same => spent r (left r same)) ?_
        rw [last]
        exact requests.next filed fun x own => silent origins x ▸ last ▸ own
      | asks timer free | vanishes timer free => exact absurd free (spent _ timer)
  · have timer : (s₀.after (es ++ [e])).refresher? n = (s₀.after es).refresher? n :=
      last ▸ refresher?_next known own
    have silent (x : Nat) (sender : (s₀.after (es ++ [e])).link.traffic.sender? x
        = some (.refresher n)) : (s₀.after es).link.traffic.sender? x = some (.refresher n) :=
      sender?_next _ filed own (last ▸ sender)
    cases armed with
    | waits there early none =>
      refine .waits (timer.trans there) ?_ fun x sender => none x (silent x sender)
      rcases next_time (s₀.after es) e with same | ⟨time, rfl⟩
      · rw [last, same]
        exact early
      · rw [last]
        exact punctual es time [] rfl (due, .refresher n) (mem_timers_of_refresher? there rfl)
    | rang turn time spent requests =>
      refine .rang (longer turn) time (fun r same => spent r (timer.symm.trans same)) ?_
      rw [last]
      exact requests.next filed fun x sender => silent x (last ▸ sender)

/-- **A refresher that has just been set** waits for its time. -/
theorem Armed.of_set {delay : Nat} (reachable : s₀.Reachable)
    (added : (s₀.after (es ++ [e])).refreshers
      = (s₀.after es).refreshers ++ [⟨(s₀.after es).spawned, (s₀.after es).now + delay, none⟩])
    (now : (s₀.after (es ++ [e])).now = (s₀.after es).now)
    (silent : ∀ n x, (s₀.after (es ++ [e])).link.traffic.sender? x = some (.refresher n) →
      (s₀.after es).link.traffic.sender? x = some (.refresher n)) :
    s₀.Armed (es ++ [e]) (s₀.after es).spawned ((s₀.after es).now + delay) := by
  have numbered := (reachable.after es).numbered
  refine .waits ?_ (now ▸ Nat.le_add_right _ _) fun x sender => ?_
  · have new : (s₀.after es).refreshers.find? (·.number = (s₀.after es).spawned) = none := by
      rw [List.find?_eq_none]
      exact fun r member => by simpa using Nat.ne_of_lt (numbered.timers r member)
    rw [refresher?, added, List.find?_append, new]
    simp
  · exact absurd (numbered.senders x _ (silent _ x sender)) (Nat.lt_irrefl _)

/-- **A refresher that is set for a time goes off at that time.** -/
theorem Armed.refreshes (armed : s₀.Armed es n due) (waits : (s₀.after es).Waits (.refresher n)) :
    s₀.Refreshes es n due := by
  cases armed with
  | waits timer _ silent => exact .waits (by simpa [Waits, timer] using waits) silent
  | rang turn time _ requests => exact .rang turn time requests

end Cnc.Session
