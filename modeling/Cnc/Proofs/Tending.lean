import Cnc.Proofs.Attendance

/-!
# Posts, connections and locks

Here are the other operations of a turn (`Session.Tended`). Whoever has handed
a post over is told what became of it, and nobody else waits to hear of it
(`Session.Owned`); the writer is woken when something is handed over that it
can take; a lock that is free again goes to the next in line; and when the
connection ends, all who waited for it are told, and the pollers are gone.
-/

namespace Cnc

namespace Session

open Traffic

variable {s t u : Session} {a b : Actor} {cast : Finset Actor}

/-! ## Posts -/

/-- **Whoever waits to hear of a post** has handed it over. -/
def Owned (s : Session) : Prop :=
  ∀ b x, s.awaitsDelivery b x = true ∨ s.awaitsAnswer b x = true →
    s.link.traffic.sender? x = some b

theorem present_of_awaitsDelivery {x : Nat} (awaits : s.awaitsDelivery b x = true) :
    s.Present b := by
  cases b with
  | call i =>
    intro gone
    simp [awaitsDelivery, gone] at awaits
  | job n | poller n | refresher n =>
    intro gone
    simp [awaitsDelivery, gone] at awaits
  | writer | reader => trivial

theorem present_of_awaitsAnswer {x : Nat} (awaits : s.awaitsAnswer b x = true) : s.Present b := by
  cases b with
  | call i | job n =>
    intro gone
    simp [awaitsAnswer, gone] at awaits
  | poller n | refresher n => simp [awaitsAnswer] at awaits
  | writer | reader => trivial

/-- One that waits goes on waiting if what it waits for is not told. -/
theorem Waits.of_posts (waits : s.Waits b) (posts : List Post)
    (told : ∀ x, s.awaitsDelivery b x = true → s.link.delivery? x = none →
      ({ s.link with posts } : Link).delivery? x = none)
    (answered : ∀ x, s.awaitsAnswer b x = true → s.link.answer? x = none →
      ({ s.link with posts } : Link).answer? x = none) :
    ({ s with link.posts := posts } : Session).Waits b := by
  cases b with
  | call i =>
    refine waits.call_stays rfl fun st stage own => ?_
    cases st with
    | sending x e => exact told x (by simp [awaitsDelivery, stage]) own
    | awaitingAnswer x => exact answered x (by simp [awaitsAnswer, stage]) own
    | _ => exact own
  | job n =>
    refine waits.job_stays rfl fun k task own => ?_
    unfold TaskWaits at own ⊢
    cases stage : k.stage with
    | ready =>
      simp only [stage] at own
      exact own
    | sending x =>
      simp only [stage] at own
      exact told x (by simp [awaitsDelivery, task, stage]) own
    | awaiting x deadline =>
      simp only [stage] at own
      exact ⟨answered x (by simp [awaitsAnswer, task, stage]) own.1, own.2⟩
  | poller n =>
    refine waits.poller_stays rfl fun p found own => ?_
    cases sending : p.sending with
    | none =>
      rw [sending] at own
      exact own
    | some x =>
      rw [sending] at own
      exact told x (by simp [awaitsDelivery, found, sending]) own
  | refresher n =>
    refine waits.refresher_stays rfl fun r found own => ?_
    cases sending : r.sending with
    | none =>
      rw [sending] at own
      exact own
    | some x =>
      rw [sending] at own
      exact told x (by simp [awaitsDelivery, found, sending]) own
  | writer | reader => exact waits

namespace Tended

/-- **A change to what is known of the posts**, if whoever waits for what is told is woken. -/
theorem tell (tended : s.Tended cast a) {posts : List Post} {l : List Actor}
    (known : ∀ b ∈ l, s.Present b)
    (told : ∀ b x, s.awaitsDelivery b x = true → b ∈ l ∨ ({ s.link with posts } : Link).delivery? x
      = s.link.delivery? x)
    (answered : ∀ b x, s.awaitsAnswer b x = true → b ∈ l ∨ ({ s.link with posts } : Link).answer? x
      = s.link.answer? x) :
    (({ s with link.posts := posts } : Session).wakeAll l).Tended cast a := by
  refine tended.change (t := { s with link.posts := posts }) rfl (fun b there => .inl there)
    (fun i member => .inl member) (fun b member => tended.present b (known b member))
    fun b _ waits => ?_
  by_cases woken : b ∈ l
  · exact .inr woken
  · exact .inl (waits.of_posts posts
      (fun x awaits unknown => ((told b x awaits).resolve_left woken).trans unknown)
      fun x awaits unknown => ((answered b x awaits).resolve_left woken).trans unknown)

/-- **Whoever waits to know what became of a payload** is woken when it is told. -/
theorem deliver (tended : s.Tended cast a) (owned : s.Owned) (x : Nat) (d : Delivery) :
    (s.deliver x d).Tended cast a := by
  unfold Session.deliver
  cases found : s.link.posts[x]? with
  | none => exact tended
  | some p =>
    have inside := (List.getElem?_eq_some_iff.mp found).1
    have change {l : List Actor} (known : ∀ b ∈ l, s.Present b)
        (woken : s.awaitsDelivery p.sender x = true → p.sender ∈ l) :
        (({ s with link.posts := s.link.posts.set x { p with delivery := some d } } :
          Session).wakeAll l).Tended cast a := by
      refine tended.tell known (fun b y awaits => ?_) fun b y _ => .inr ?_
      · by_cases same : x = y
        · subst same
          have sender : p.sender = b := by
            simpa [Traffic.sender?, Link.traffic, found] using owned b x (.inl awaits)
          exact .inl (sender ▸ woken (sender.symm ▸ awaits))
        · exact .inr (by simp [Link.delivery?, List.getElem?_set_ne same])
      · by_cases same : x = y
        · simp [Link.answer?, ← same, List.getElem?_set_self inside, found]
        · simp [Link.answer?, List.getElem?_set_ne same]
    dsimp only
    split
    · next awaits =>
      refine change (l := [p.sender]) (fun b member => ?_) fun _ => List.mem_singleton.mpr rfl
      exact List.mem_singleton.mp member ▸ present_of_awaitsDelivery awaits
    · next awaits => exact change (l := []) (by simp) fun own => absurd own awaits

/-- **Whoever waits for the answer to a line** is woken when it is given. -/
theorem answer (tended : s.Tended cast a) (owned : s.Owned) (x : Nat) (r : Answer) :
    (s.answer x r).Tended cast a := by
  unfold Session.answer
  cases found : s.link.posts[x]? with
  | none => exact tended
  | some p =>
    have inside := (List.getElem?_eq_some_iff.mp found).1
    have change {l : List Actor} (known : ∀ b ∈ l, s.Present b)
        (woken : s.awaitsAnswer p.sender x = true → p.sender ∈ l) :
        (({ s with link.posts := s.link.posts.set x { p with answer := some r } } :
          Session).wakeAll l).Tended cast a := by
      refine tended.tell known (fun b y _ => .inr ?_) fun b y awaits => ?_
      · by_cases same : x = y
        · simp [Link.delivery?, ← same, List.getElem?_set_self inside, found]
        · simp [Link.delivery?, List.getElem?_set_ne same]
      · by_cases same : x = y
        · subst same
          have sender : p.sender = b := by
            simpa [Traffic.sender?, Link.traffic, found] using owned b x (.inr awaits)
          exact .inl (sender ▸ woken (sender.symm ▸ awaits))
        · exact .inr (by simp [Link.answer?, List.getElem?_set_ne same])
    dsimp only
    split
    · next awaits =>
      refine change (l := [p.sender]) (fun b member => ?_) fun _ => List.mem_singleton.mpr rfl
      exact List.mem_singleton.mp member ▸ present_of_awaitsAnswer awaits
    · next awaits => exact change (l := []) (by simp) fun own => absurd own awaits

end Tended

/-- Nobody waits for a post that does not come from him, where the calls, the task and the timers
are as before. -/
theorem Owned.of_same (owned : s.Owned) (calls : t.calls = s.calls)
    (task : t.streamer.task = s.streamer.task) (refreshers : t.refreshers = s.refreshers)
    (pollers : ∀ n p, t.poller? n = some p → s.poller? n = some p)
    (origins : t.link.traffic.origins = s.link.traffic.origins) : t.Owned := by
  intro b x awaits
  have sender : t.link.traffic.sender? x = s.link.traffic.sender? x := by
    rw [sender?_eq, sender?_eq, ← getElem?_origins, ← getElem?_origins, origins]
  rw [sender]
  refine owned b x ?_
  cases b with
  | poller n =>
    refine awaits.imp_left fun delivery => ?_
    obtain ⟨p, found, sending⟩ := (Option.any_eq_true _ _).mp delivery
    simpa [awaitsDelivery, pollers n p found] using sending
  | call i => simpa only [awaitsDelivery, awaitsAnswer, stage?_congr calls i] using awaits
  | job n => simpa only [awaitsDelivery, awaitsAnswer, task?, task] using awaits
  | refresher n => simpa only [awaitsDelivery, awaitsAnswer, refresher?, refreshers] using awaits
  | writer | reader => exact awaits

theorem Owned.deliver (owned : s.Owned) (x : Nat) (d : Delivery) : (s.deliver x d).Owned := by
  have alike := alike_deliver s x d
  refine owned.of_same alike.2.2.2.1 (congrArg _ alike.2.2.1) alike.2.2.2.2.1 ?_ ?_
  · intro n p found
    simpa [poller?, alike.2.1] using found
  · rw [Traffic.origins, Link.traffic, alike.2.1]
    exact map_origin_mark (f := fun p => { p with delivery := some d }) (fun _ => rfl) _ _

theorem Owned.answer (owned : s.Owned) (x : Nat) (r : Answer) : (s.answer x r).Owned := by
  have alike := alike_answer s x r
  refine owned.of_same alike.2.2.2.1 (congrArg _ alike.2.2.1) alike.2.2.2.2.1 ?_ ?_
  · intro n p found
    simpa [poller?, alike.2.1] using found
  · rw [Traffic.origins, Link.traffic, alike.2.1]
    exact map_origin_mark (f := fun p => { p with answer := some r }) (fun _ => rfl) _ _

namespace Tended

theorem answerAll (tended : s.Tended cast a) (owned : s.Owned) (xs : List Nat) (r : Answer) :
    (xs.foldl (fun s x => s.answer x r) s).Tended cast a := by
  induction xs generalizing s with
  | nil => exact tended
  | cons x xs ih => exact ih (tended.answer owned x r) (owned.answer x r)

theorem deliverAll (tended : s.Tended cast a) (owned : s.Owned) (xs : List Nat) (d : Delivery) :
    (xs.foldl (fun s x => s.deliver x d) s).Tended cast a := by
  induction xs generalizing s with
  | nil => exact tended
  | cons x xs ih => exact ih (tended.deliver owned x d) (owned.deliver x d)

/-- **A change to the open connection** that does not concern the pollers. -/
theorem withConnection {c c' : Connection} (tended : s.Tended cast a)
    (here : s.link.connection = some c) (pollers : c'.pollers = c.pollers)
    (writer : a ≠ .writer → c'.writer = c.writer ∧ c'.realtime = c.realtime ∧ c'.lines = c.lines ∧
      c'.stalled = c.stalled)
    (reader : a ≠ .reader → c'.chores = c.chores ∧ c'.inbox = c.inbox) :
    (s.withConnection c').Tended cast a := by
  refine tended.quiet (by rfl) (fun b there => ?_) rfl fun b other waits => ?_
  · refine (present_congr (by rfl) (by rfl) (by rfl) ?_).mp there
    simp [Session.withConnection, here, pollers]
  · refine waits.withConnection here pollers (fun own => ?_) fun own => reader (own ▸ other.symm)
    obtain ⟨stage, realtime, lines, stalled⟩ := writer (own ▸ other.symm)
    exact ⟨stage, realtime, lines, fun still => stalled.trans still⟩

/-- **The writer** is woken when something is handed over that it can take. -/
theorem post? (tended : s.Tended cast a) (writer : .writer ∈ cast) {p : Payload} {x : Nat}
    (posted : s.post? b p = some (x, t)) : t.Tended cast a := by
  cases here : s.link.connection with
  | none =>
    rw [post?_of_closed here] at posted
    exact absurd posted (by simp)
  | some c =>
    simp only [Session.post?, here, Option.map_some, Option.some.injEq, Prod.mk.injEq] at posted
    obtain ⟨-, rfl⟩ := posted
    have pollers : (if p.isLine then { c with lines := c.lines ++ [s.link.posts.length] }
        else { c with realtime := c.realtime ++ [s.link.posts.length] }).pollers = c.pollers := by
      split <;> rfl
    refine tended.change (by rfl) (fun d there => .inl ?_) (fun i member => .inl member)
      (fun d member => ?_) fun d other waits => ?_
    · refine (present_congr (by rfl) (by rfl) (by rfl) ?_).mp there
      simp [here, pollers]
    · split at member
      · exact List.mem_singleton.mp member ▸ writer
      · exact absurd member (by simp)
    · have posts := waits.of_posts (s.link.posts ++ [⟨c.number, b, p, none, none⟩])
        (fun y _ unknown => ?_) fun y _ unknown => ?_
      · cases d with
        | poller n =>
          refine .inl (posts.poller_stays ?_ fun p _ own => own)
          simp [poller?, here, pollers]
        | writer =>
          by_cases idle : c.writer = .idle
          · exact .inr (by simp [idle])
          · refine .inl ?_
            simp only [Waits, here] at waits ⊢
            cases p <;> cases stage : c.writer <;> simp_all [Payload.isLine]
        | reader =>
          refine .inl ?_
          simp only [Waits, here] at waits ⊢
          cases p <;> simpa [Payload.isLine] using waits
        | _ => exact .inl posts
      · rw [Link.delivery?, List.getElem?_append]
        split
        · exact unknown
        · rcases y - s.link.posts.length with _ | _ <;> simp
      · rw [Link.answer?, List.getElem?_append]
        split
        · exact unknown
        · rcases y - s.link.posts.length with _ | _ <;> simp

end Tended

/-! ## Locks -/

/-- Who waits for a lock is in the line of one. -/
theorem inLine_iff (l : Locks) (b : Actor) : l.inLine b = true ↔ ∃ g, b ∈ (l.get g).line := by
  simp only [Locks.inLine, Bool.or_eq_true, decide_eq_true_eq]
  constructor
  · rintro ((stats | slots) | settings)
    · exact ⟨.stats, stats⟩
    · exact ⟨.slots, slots⟩
    · exact ⟨.settings, settings⟩
  · rintro ⟨g, member⟩
    cases g with
    | stats => exact .inl (.inl member)
    | slots => exact .inl (.inr member)
    | settings => exact .inr member

theorem attended_iff : s.Attended b ↔ b ∈ s.queue ∨ ∃ g, b ∈ (s.locks.get g).line := by
  simp only [Attended, isHeldUp, Bool.or_eq_true, decide_eq_true_eq, inLine_iff, Session.queue,
    List.mem_append, or_assoc]

namespace Tended

/-- **A change of the locks** after which those who had to wait still do or are woken, and whoever
has a lock had it before or is woken. One that does not wait any more has nothing to do. -/
theorem relock (tended : s.Tended cast a) (locks : Locks) {l : List Actor}
    (actors : ∀ g, ∀ b ∈ (locks.get g).actors, b = a ∨ ∃ h, b ∈ (s.locks.get h).actors)
    (woken : ∀ b ∈ l, ∃ g, b ∈ (locks.get g).actors)
    (holder : ∀ g b, b ≠ a → (locks.get g).holder = some b →
      (s.locks.get g).holder = some b ∨ b ∈ l)
    (line : ∀ g b, b ≠ a → b ∈ (s.locks.get g).line →
      (∃ h, b ∈ (locks.get h).line) ∨ b ∈ l ∨
        s.Waits b ∧ ∀ h, (locks.get h).holder = some b → b ∈ l) :
    (({ s with locks } : Session).wakeAll l).Tended cast a := by
  have known (g : Guarded) (b : Actor) (member : b ∈ (locks.get g).actors) : b ∈ cast := by
    rcases actors g b member with rfl | ⟨h, before⟩
    · exact tended.self
    · exact tended.locks h b before
  have alike : Alike (({ s with locks } : Session).wakeAll l) s :=
    (alike_wakeAll _ l).trans ⟨rfl, rfl, rfl, rfl, rfl, rfl, rfl⟩
  refine ⟨?_, tended.self, fun b there => ?_, fun i member => ?_, fun g b member => ?_,
    fun b member => ?_, fun b => ?_, fun b other => ?_⟩
  · rw [acting_wakeAll]
    exact tended.acting
  · exact tended.present b ((present_alike alike).mp there)
  · rw [alike.2.2.1] at member
    exact tended.turns i member
  · rw [locks_wakeAll] at member
    exact known g b member
  · rcases mem_queue_wakeAll member with before | now
    · exact tended.queue b before
    · obtain ⟨g, member⟩ := woken b now
      exact known g b member
  · have before := tended.twice b
    have after := count_queue_wakeAll { s with locks } l b
    have same : ({ s with locks } : Session).queue = s.queue := rfl
    have once : (if (a == b) = true then 1 else 0) ≤ 1 := by split <;> omega
    rw [same] at after
    rw [List.count_cons] at before ⊢
    omega
  · -- one that has nothing to do and no lock, or has just got one
    have atEase (waits : s.Waits b) (fresh : ∀ g, (locks.get g).holder = some b → b ∈ l) :
        (({ s with locks } : Session).wakeAll l).Minded b := by
      by_cases has : ∃ g, (locks.get g).holder = some b
      · obtain ⟨g, has⟩ := has
        exact .inr (attended_wakeAll (fresh g has))
      · exact .inl ⟨waits.of_alike alike, fun g => by
          rw [locks_wakeAll]
          exact fun own => has ⟨g, own⟩⟩
    rcases tended.minded b other with ⟨waits, free⟩ | attended
    · exact atEase waits fun g has => (holder g b other has).resolve_left (free g)
    · rcases attended_iff.mp attended with queued | ⟨g, there⟩
      · have here : ({ s with locks } : Session).Attended b := attended_iff.mpr (.inl queued)
        exact .inr (here.wakeAll l)
      · rcases line g b other there with still | woken | ⟨waits, fresh⟩
        · have here : ({ s with locks } : Session).Attended b := attended_iff.mpr (.inr still)
          exact .inr (here.wakeAll l)
        · exact .inr (attended_wakeAll woken)
        · exact atEase waits fresh

/-- **The first in line** is woken when a lock is left. -/
theorem leave (tended : s.Tended cast a) (g : Guarded) : (s.leave g).Tended cast a := by
  have other {h : Guarded} (apart : h ≠ g) :
      (s.locks.set g (s.locks.get g).leave).get h = s.locks.get h := by simp [apart]
  refine tended.relock _ (fun h b member => .inr ?_) (fun b member => ?_) (fun h b _ has => ?_)
    fun h b _ there => ?_
  · by_cases same : h = g
    · subst same
      rw [Locks.get_set_self, Lock.actors_leave] at member
      exact ⟨h, List.mem_append_right _ member⟩
    · exact ⟨h, other same ▸ member⟩
  · refine ⟨g, ?_⟩
    rw [Locks.get_set_self]
    exact List.mem_append_left _ member
  · by_cases same : h = g
    · subst same
      rw [Locks.get_set_self] at has
      exact .inr (Option.mem_toList.mpr has)
    · exact .inl (other same ▸ has)
  · by_cases same : h = g
    · subst same
      have first : b ∈ (s.locks.get h).leave.holder.toList ++ (s.locks.get h).leave.line := by
        rw [← Lock.actors, Lock.actors_leave]
        exact there
      rcases List.mem_append.mp first with now | later
      · exact .inr (.inl now)
      · exact .inl ⟨h, by rwa [Locks.get_set_self]⟩
    · exact .inl ⟨h, by rwa [other same]⟩

/-- **Whoever has a lock** is woken when another is gone, and one that is gone waits for nothing. -/
theorem forget (tended : s.Tended cast a) {d : Actor} (gone : d ≠ a → s.Waits d) :
    (s.forget d).Tended cast a := by
  let locks : Locks :=
    ⟨s.locks.stats.forget d, s.locks.slots.forget d, s.locks.settings.forget d⟩
  have get (g : Guarded) : locks.get g = (s.locks.get g).forget d := by cases g <;> rfl
  have woken (g : Guarded) (b : Actor) (has : (locks.get g).holder = some b) :
      b ∈ locks.stats.holder.toList ++ locks.slots.holder.toList
        ++ locks.settings.holder.toList := by
    cases g with
    | stats => exact List.mem_append_left _ (List.mem_append_left _ (Option.mem_toList.mpr has))
    | slots => exact List.mem_append_left _ (List.mem_append_right _ (Option.mem_toList.mpr has))
    | settings => exact List.mem_append_right _ (Option.mem_toList.mpr has)
  refine tended.relock locks (fun g b member => .inr ⟨g, ?_⟩) (fun b member => ?_)
    (fun g b _ has => .inr (woken g b has)) fun g b other there => ?_
  · rw [get] at member
    exact Lock.mem_of_mem_forget member
  · rcases List.mem_append.mp member with member | settings
    · rcases List.mem_append.mp member with stats | slots
      · exact ⟨.stats, List.mem_append_left _ stats⟩
      · exact ⟨.slots, List.mem_append_left _ slots⟩
    · exact ⟨.settings, List.mem_append_left _ settings⟩
  · by_cases own : b = d
    · subst own
      exact .inr (.inr ⟨gone other, fun h has => woken h b has⟩)
    · rcases Lock.holder_or_mem_forget there own with has | later
      · exact .inr (.inl (woken g b ((get g).symm ▸ has)))
      · exact .inl ⟨g, (get g).symm ▸ later⟩

/-- Asking for a lock gives it to the one who asks, or puts him in line. -/
theorem request (tended : s.Tended cast a) (g : Guarded) :
    ({ s with locks := s.locks.set g ((s.locks.get g).request a) } : Session).Tended cast a := by
  have other {h : Guarded} (apart : h ≠ g) :
      (s.locks.set g ((s.locks.get g).request a)).get h = s.locks.get h := by simp [apart]
  refine tended.relock _ (l := []) (fun h b member => ?_) (by simp) (fun h b notOwn has => .inl ?_)
    fun h b _ there => .inl ⟨h, ?_⟩
  · by_cases same : h = g
    · subst same
      rw [Locks.get_set_self] at member
      exact (Lock.mem_of_mem_request member).imp_right fun before => ⟨h, before⟩
    · exact .inr ⟨h, other same ▸ member⟩
  · by_cases same : h = g
    · subst same
      rw [Locks.get_set_self] at has
      exact Lock.holder_of_request has notOwn
    · exact other same ▸ has
  · by_cases same : h = g
    · subst same
      rw [Locks.get_set_self]
      exact Lock.mem_line_request there a
    · rwa [other same]

end Tended

/-! ## Operations made of others -/

theorem Owned.of_alike (owned : s.Owned) (alike : t.Alike s) : t.Owned :=
  owned.of_same alike.2.2.2.1 (congrArg _ alike.2.2.1) alike.2.2.2.2.1
    (fun n p found => by simpa only [poller?, alike.2.1] using found)
    (by rw [Link.traffic, Link.traffic, alike.2.1])

namespace Tended

/-- **A change of the events of the link** by which nobody comes to hear something. -/
theorem listen (tended : s.Tended cast a) {events : EventBus LinkEvent}
    (silent : ∀ sub, (s.link.events.receive sub).1 = none → (events.receive sub).1 = none) :
    ({ s with link.events := events } : Session).Tended cast a := by
  refine tended.quiet (by rfl) (fun b there => there) rfl fun b _ waits => ?_
  cases b with
  | call i =>
    refine waits.call_stays rfl fun st _ own => ?_
    cases st with
    | confirming key sub deadline => exact ⟨own.1, silent sub own.2⟩
    | _ => exact own
  | _ => exact waits

theorem unsubscribe (tended : s.Tended cast a) (sub : Nat) : (s.unsubscribe sub).Tended cast a :=
  tended.listen fun _ => EventBus.silent_unsubscribe

/-- A task that is dropped is gone. -/
theorem dropTask (tended : s.Tended cast a) : s.dropTask.Tended cast a := by
  unfold Session.dropTask
  cases task : s.streamer.task with
  | none => exact tended
  | some k =>
    have gone : ({ s with streamer.task := none } : Session).Tended cast a := by
      refine tended.quiet (by rfl) (fun b there => ?_) rfl fun b _ waits => ?_
      · cases b with
        | job n => exact absurd rfl there
        | _ => exact there
      · cases b with
        | job n => exact waits_of_no_task rfl n
        | _ => exact waits
    exact gone.forget fun _ => waits_of_no_task rfl _

theorem forgetAll (tended : s.Tended cast a) (l : List Actor) (gone : ∀ d ∈ l, s.Waits d) :
    (l.foldl Session.forget s).Tended cast a := by
  induction l generalizing s with
  | nil => exact tended
  | cons d l ih =>
    refine ih (tended.forget fun _ => gone d List.mem_cons_self) fun d' member => ?_
    exact (gone d' (List.mem_cons_of_mem _ member)).of_alike (alike_forget s d)

/-- **Ending the connection** leaves nobody waiting for something that does not come any more. -/
theorem endConnection (tended : s.Tended cast a) (owned : s.Owned) :
    s.endConnection.Tended cast a := by
  unfold Session.endConnection
  cases here : s.link.connection with
  | none => exact tended
  | some c =>
    let closed : Session := { s with link.connection := none }
    have tended₁ : closed.Tended cast a := by
      refine tended.quiet (by rfl) (fun b there => ?_) rfl fun b _ waits => ?_
      · cases b with
        | poller n => exact absurd rfl there
        | _ => exact there
      · cases b with
        | poller | writer | reader => trivial
        | _ => exact waits
    have owned₁ : closed.Owned :=
      owned.of_same rfl rfl rfl (fun n p found => by simp [closed, poller?] at found) rfl
    have tended₂ := ((tended₁.answerAll owned₁ c.slots .lost).setStatus .disconnected).publish
      .disconnected
    have alike := (alike_publish _ .disconnected).trans
      (((alike_setStatus _ .disconnected).trans
        ((alike_answerAll closed c.slots .lost).updateLink fun l =>
          { l with status := .disconnected })).updateLink fun l =>
            { l with events := l.events.publish .disconnected })
    have gone : ∀ d ∈ Actor.reader :: .writer :: c.pollers.map fun p => .poller p.number,
        Waits _ d := fun d member => Waits.of_alike alike <| by
      rcases List.mem_cons.mp member with rfl | member
      · trivial
      · rcases List.mem_cons.mp member with rfl | member
        · trivial
        · obtain ⟨p, -, rfl⟩ := List.mem_map.mp member
          trivial
    have tended₃ := tended₂.forgetAll _ gone
    have alike' := (alike_forgetAll _ (Actor.reader :: .writer :: c.pollers.map fun p =>
      .poller p.number)).trans alike
    refine tended₃.deliverAll ?_ _ .lost
    refine owned₁.of_same alike'.2.2.2.1 (congrArg _ alike'.2.2.1) alike'.2.2.2.2.1
      (fun n p found => ?_) ?_
    · have still := congrArg Link.connection alike'.2.1
      rw [poller?, still] at found
      exact absurd found (by simp [closed])
    · rw [Traffic.origins, Link.traffic, alike'.2.1]
      exact map_origin_mark (f := fun p => { p with answer := some .lost }) (fun _ => rfl) _ _

end Tended

end Session

end Cnc
