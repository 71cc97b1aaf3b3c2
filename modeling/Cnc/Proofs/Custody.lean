import Cnc.Proofs.Ledger
import Cnc.Proofs.Locking
import Cnc.Proofs.Pending
import Cnc.Proofs.Quiescence
import Cnc.Proofs.Transfers

/-!
# Who still has to count what

A payload is in the hand of the one who handed it over until he has counted
it, or has learned that it was not sent. In his own turn an actor takes a new
payload in hand, or lets one go; and he lets go of one that was sent only to
count it (`Session.act_books`). Others cannot put anything into his hand, but
they can end him, and then nobody has to count what he had in hand
(`Session.inHand?_next`).
-/

namespace Cnc

/-- A call that takes a payload in hand has just handed it over. -/
theorem CallStage.Follows.takes {st st' : CallStage} {x : Nat} (follows : st.Follows st')
    (free : st.inHand? = none) (held : st'.inHand? = some x) : ∃ e, st' = .sending x e := by
  cases follows with
  | stay => exact absurd (free.symm.trans held) (by simp)
  | send y _ | steer y _ =>
    obtain rfl := Option.some.inj held
    exact ⟨_, rfl⟩
  | count y e => exact absurd free (by simp [inHand?])
  | _ => exact absurd held (by simp [inHand?])

/-- A move other than a poller's keeps the pollers, unless it ends or opens a connection. -/
theorem Traffic.Move.pollers_kept {t u : Traffic} {d : Deed} (h : Move t d u) (notPoll : d ≠ .poll)
    {c' : Connection} (there : u.connection = some c') :
    (t.connection = none ∧ c'.pollers = []) ∨
      ∃ c, t.connection = some c ∧ c'.pollers = c.pollers := by
  cases h with
  | poll => exact absurd rfl notPoll
  | close => exact absurd there (by simp)
  | «open» port closed =>
    obtain rfl := Option.some.inj there
    exact .inl ⟨closed, rfl⟩
  | post _ _ here =>
    obtain rfl := Option.some.inj there
    exact .inr ⟨_, here, by simp⟩
  | device _ here =>
    obtain rfl := Option.some.inj there
    exact .inr ⟨_, here, by simp⟩
  | _ here =>
    obtain rfl := Option.some.inj there
    exact .inr ⟨_, here, rfl⟩

/-- Who has just handed a payload over is its sender. -/
theorem Traffic.Move.sender?_post {t u : Traffic} {a : Actor} {p : Payload}
    (h : Move t (.post a p) u) : u.sender? t.posts.length = some a := by
  cases h
  simp [Traffic.sender?]

namespace Session

open Traffic

variable {s t u : Session} {e : Event} {a : Actor} {x : Nat}

/-! ## What is in hand -/

/-- A payload whose fate is known was posted. -/
theorem payload?_of_delivery? {d : Delivery} (told : s.link.delivery? x = some d) :
    ∃ p, s.link.payload? x = some p := by
  obtain ⟨post, found, -⟩ := Option.bind_eq_some_iff.mp told
  exact ⟨post.payload, by rw [Link.payload?, found]; rfl⟩

theorem inHand?_congr (calls : t.calls = s.calls) (task : t.streamer.task = s.streamer.task)
    (refreshers : t.refreshers = s.refreshers) (connection : t.link.connection = s.link.connection)
    (a : Actor) : t.inHand? a = s.inHand? a := by
  cases a with
  | call i => simp only [inHand?, stage?_congr calls i]
  | job n => simp only [inHand?, task?, task]
  | poller n => simp only [inHand?, poller?, connection]
  | refresher n => simp only [inHand?, refresher?, refreshers]
  | writer | reader => rfl

theorem Alike.inHand? (h : t.Alike s) (a : Actor) : t.inHand? a = s.inHand? a :=
  inHand?_congr h.2.2.2.1 (congrArg _ h.2.2.1) h.2.2.2.2.1 (congrArg _ h.2.1) a

/-- The task of a job has a line in hand if it waits to know that the line was sent. -/
theorem inHand?_job {n : Nat} (held : s.inHand? (.job n) = some x) :
    ∃ k, s.streamer.task = some k ∧ k.job.number = n ∧ k.stage = .sending x := by
  obtain ⟨k, found, stage⟩ := Option.bind_eq_some_iff.mp held
  obtain ⟨task, own⟩ := Option.filter_eq_some_iff.mp found
  refine ⟨k, task, by simpa using own, ?_⟩
  cases same : k.stage <;> simp_all [StreamStage.inHand?]

theorem inHand?_job_eq {k : StreamTask} (task : s.streamer.task = some k) :
    s.inHand? (.job k.job.number) = k.stage.inHand? := by
  simp [inHand?, task?, task, Option.filter]

theorem inHand?_job_none {n : Nat}
    (ready : ∀ k, s.streamer.task = some k → k.stage.inHand? = none) :
    s.inHand? (.job n) = none := by
  cases held : s.inHand? (.job n) with
  | none => rfl
  | some x =>
    obtain ⟨k, task, -, stage⟩ := inHand?_job held
    exact absurd (ready k task) (by simp [stage, StreamStage.inHand?])

/-! ## An actor's own turn -/

/-- **What the turn of an actor does to the books.** -/
inductive Books (s : Session) (a : Actor) (t : Session) : Prop
  | keeps (counts : t.counts = s.counts) (same : t.inHand? a = s.inHand? a)
  | takes (counts : t.counts = s.counts) (free : s.inHand? a = none)
      (fresh : t.inHand? a = some s.link.posts.length)
      (sender : t.link.traffic.sender? s.link.posts.length = some a)
  /-- What was in hand is known not to have been sent. -/
  | drops (counts : t.counts = s.counts) (empty : t.inHand? a = none)
      (unsent : ∀ x, s.inHand? a = some x → ∃ d, s.link.delivery? x = some d ∧ d ≠ .sent)
  | counts {x : Nat} {p : Payload} (held : s.inHand? a = some x)
      (sent : s.link.delivery? x = some .sent) (payload : s.link.payload? x = some p)
      (empty : t.inHand? a = none) (counted : t.counts = s.counts.add p)

theorem counts_of_ledger (same : t.ledger = s.ledger) : t.counts = s.counts :=
  congrArg Ledger.counts same

theorem callTurn_counts {i : Nat} (other : ∀ x e, s.stage? i ≠ some (.counting x e)) :
    (s.callTurn i).counts = s.counts := by
  obtain ⟨n, -, same⟩ := callTurn_ledger other
  exact congrArg Ledger.counts same

theorem Books.alike (h : t.Alike s) : s.Books a t :=
  .keeps (counts_of_ledger (Alike.ledger h)) (h.inHand? a)

/-- Who goes on at once makes no difference. -/
theorem Books.again {b : Actor} (books : s.Books a t) : s.Books a (t.again b) := by
  have counts : (t.again b).counts = t.counts := rfl
  have same : (t.again b).inHand? a = t.inHand? a := (alike_again t b).inHand? a
  cases books with
  | keeps counted held => exact .keeps (counts.trans counted) (same.trans held)
  | takes counted free fresh sender =>
    exact .takes (counts.trans counted) free (same.trans fresh) sender
  | drops counted empty unsent => exact .drops (counts.trans counted) (same.trans empty) unsent
  | counts held sent payload empty counted =>
    exact .counts held sent payload (same.trans empty) (counts.trans counted)

/-- **A sender that learns that its payload was sent** waits for the statistics, or counts it. -/
theorem use_books (after : Session → Session) (held : s.inHand? a = some x)
    (sent : s.link.delivery? x = some .sent)
    (later : ∀ u, (after u).counts = u.counts)
    (empty : ∀ u : Session, u.calls = s.calls → u.streamer.task = s.streamer.task →
      u.refreshers = s.refreshers → u.link.connection = s.link.connection →
      (after u).inHand? a = none) :
    s.Books a (s.use a .stats (·.countSent x) after) := by
  obtain ⟨p, payload⟩ := payload?_of_delivery? sent
  rcases use_cases s a .stats (·.countSent x) after with alike | ⟨u, alike, same⟩
  · exact .alike alike
  · rw [same]
    have payload' : u.link.payload? x = some p := by rw [alike.2.1, payload]
    have left := alike_leave (u.countSent x) .stats
    refine .counts held sent payload (empty _ ?_ ?_ ?_ ?_) ?_
    · exact left.2.2.2.1.trans
        ((congrArg Controlled.calls (countSent_controlled u x)).trans alike.2.2.2.1)
    · rw [left.2.2.1, countSent_streamer, alike.2.2.1]
    · rw [left.2.2.2.2.1, countSent_refreshers, alike.2.2.2.2.1]
    · rw [left.2.1]
      exact (congrArg Traffic.connection (countSent_traffic u x)).trans
        (congrArg Link.connection alike.2.1)
    · have counted := congrArg Ledger.counts ((Alike.ledger left).trans (countSent_ledger payload'))
      have before : u.counts = s.counts := counts_of_ledger (Alike.ledger alike)
      exact (later _).trans (counted.trans (by rw [before]))

theorem inHand?_call {i : Nat} {st : CallStage} (stage : s.stage? i = some st) :
    s.inHand? (.call i) = st.inHand? := by simp [inHand?, stage]

/-- The turn of a call that counts its payload: it waits for the statistics, or finishes its
errand. -/
theorem callTurn_counting {i : Nat} {f : Errand} (stage : s.stage? i = some (.counting x f)) :
    (s.callTurn i).Alike s ∨ ∃ v : Session, v.now = s.now ∧ v.spawned = s.spawned ∧
      v.refreshers = s.refreshers ∧ v.controlled = s.controlled ∧
      s.callTurn i = v.doErrand i x f := by
  have turn : s.callTurn i = s.use (.call i) .stats (·.countSent x) (·.doErrand i x f) := by
    simp only [callTurn, stage]
  have counted (u : Session) :
      (u.countSent x).now = u.now ∧ (u.countSent x).spawned = u.spawned := by
    unfold countSent
    split <;> exact ⟨rfl, rfl⟩
  rcases use_cases s (.call i) .stats (·.countSent x) (·.doErrand i x f) with
    alike | ⟨u, alike, same⟩
  · exact .inl (turn ▸ alike)
  · have left := alike_leave (u.countSent x) .stats
    have controlled := (left.controlled.trans (countSent_controlled u x)).trans alike.controlled
    refine .inr ⟨_, ?_, ?_, ?_, controlled, turn.trans same⟩
    · rw [left.1, (counted u).1, alike.1]
    · rw [left.2.2.2.2.2.1, (counted u).2, alike.2.2.2.2.2.1]
    · rw [left.2.2.2.2.1, countSent_refreshers, alike.2.2.2.2.1]

/-- **The turn of a call.** -/
theorem callTurn_books (expecting : s.Expecting) (i : Nat) : s.Books (.call i) (s.callTurn i) := by
  have stay (turn : s.callTurn i = s) : s.Books (.call i) (s.callTurn i) := by
    rw [turn]
    exact .alike (.refl s)
  cases stage : s.stage? i with
  | none => exact stay (by simp only [callTurn, stage])
  | some st =>
    have goes := callTurn_goesOn stage
    have before := inHand?_call stage
    cases st with
    | sending x e =>
      have other (y : Nat) (f : Errand) : s.stage? i ≠ some (.counting y f) := by simp [stage]
      have counts := callTurn_counts other
      cases told : s.link.delivery? x with
      | none => exact stay (by simp only [callTurn, stage, told])
      | some d =>
        cases fails : d.error? with
        | some f =>
          have turn : s.callTurn i = s.failErrand i e f := by
            simp only [callTurn, stage, told, fails]
          refine .drops counts ?_ fun y held => ?_
          · rw [turn, inHand?, stage?_failErrand]
            rfl
          · obtain rfl : x = y := Option.some.inj (before.symm.trans held)
            refine ⟨d, told, ?_⟩
            rintro rfl
            exact absurd fails (by simp [Delivery.error?])
        | none =>
          have turn : s.callTurn i = s.countErrand i x e := by
            simp only [callTurn, stage, told, fails]
          have counting (v : Session) (calls : v.calls = s.calls) :
              ((v.setStage i (.counting x e)).again (.call i)).inHand? (.call i) = some x := by
            have stage' : ((v.setStage i (.counting x e)).again (.call i)).stage? i
                = some (.counting x e) := by
              show (v.setStage i (.counting x e)).stage? i = _
              rw [stage?_setStage, if_pos rfl, stage?_congr calls, stage]
              rfl
            exact inHand?_call stage'
          refine .keeps counts (Eq.trans ?_ before.symm)
          rw [turn]
          unfold countErrand
          dsimp only
          split
          · rcases use_cases s (.call i) .slots dropAnswers
              (fun s => (s.setStage i (.counting x e)).again (.call i)) with
            alike | ⟨v, alike, same⟩
            · exact (alike.inHand? _).trans before
            · rw [same]
              refine counting _ ((alike_leave _ _).2.2.2.1.trans (Eq.trans ?_ alike.2.2.2.1))
              exact congrArg Controlled.calls (dropAnswers_controlled v)
          · exact counting s.spend rfl
    | counting x e =>
      have turn : s.callTurn i = s.use (.call i) .stats (·.countSent x) (·.doErrand i x e) := by
        simp only [callTurn, stage]
      rw [turn]
      refine use_books _ before (expecting.counted i x e stage)
        (fun u => congrArg Ledger.counts (doErrand_ledger u i x e)) fun u calls _ _ _ => ?_
      cases stage' : (u.doErrand i x e).stage? i with
      | none => simp [inHand?, stage']
      | some st' =>
        have follows := doErrand_goesOn (s := u) (i := i) (x := x) (e := e) st' stage'
        rw [inHand?_call stage']
        cases follows with
        | stay => exact absurd stage' (stage?_doErrand u i x e x e)
        | answer | confirm => rfl
    | _ =>
      have other (y : Nat) (f : Errand) : s.stage? i ≠ some (.counting y f) := by simp [stage]
      have counts := callTurn_counts other
      have free : s.inHand? (.call i) = none := before
      cases stage' : (s.callTurn i).stage? i with
      | none => exact .keeps counts (by simp [inHand?, stage', stage, CallStage.inHand?])
      | some st' =>
        cases held : st'.inHand? with
        | none => exact .keeps counts (((inHand?_call stage').trans held).trans free.symm)
        | some y =>
          obtain ⟨e, rfl⟩ := (goes st' stage').takes (before.symm.trans free) held
          rcases callTurn_sends s i _ _ stage' with same | ⟨rfl, p, -, move⟩
          · exact absurd (free.symm.trans (inHand?_call same)) (by simp [CallStage.inHand?])
          · exact .takes counts free (inHand?_call stage') move.sender?_post

/-- The turn of a task that learns that its line was sent. -/
theorem taskTurn_of_sent {k : StreamTask} (stage : k.stage = .sending x)
    (sent : s.link.delivery? x = some .sent) :
    s.taskTurn k = s.use (.job k.job.number) .stats (·.countSent x) fun s =>
      (s.withTask { k with stage := .awaiting x (s.streamer.timeout.map (s.now + ·)) }).again
        (.job k.job.number) := by
  simp only [taskTurn, stage, sent]

/-- **The turn of the streaming task.** -/
theorem taskTurn_books {k : StreamTask} (task : s.streamer.task = some k) :
    s.Books (.job k.job.number) (s.taskTurn k) := by
  have before := inHand?_job_eq task
  have streams := taskTurn_streams s k
  have ready (free : (s.taskTurn k).streamer.core.task = none ∨
      ∃ k', (s.taskTurn k).streamer.core.task = some k' ∧ k'.stage.inHand? = none) :
      (s.taskTurn k).inHand? (.job k.job.number) = none := by
    refine inHand?_job_none fun k' task' => ?_
    have own : (s.taskTurn k).streamer.core.task = some k' := task'
    rcases free with none | ⟨k'', other, free⟩
    · exact absurd (none.symm.trans own) (by simp)
    · obtain rfl := Option.some.inj (other.symm.trans own)
      exact free
  cases stage : k.stage with
  | sending x =>
    have held : s.inHand? (.job k.job.number) = some x := by rw [before, stage]; rfl
    cases told : s.link.delivery? x with
    | none =>
      have turn : s.taskTurn k = s := by simp only [taskTurn, stage, told]
      rw [turn]
      exact .alike (.refl s)
    | some d =>
      by_cases sent : d = .sent
      · subst sent
        rw [taskTurn_of_sent stage told]
        refine use_books _ held told (fun u => rfl) fun u _ _ _ _ =>
          inHand?_job_none fun k' task' => ?_
        obtain rfl := Option.some.inj task'
        rfl
      · have other (y : Nat) (same : k.stage = .sending y) : s.link.delivery? y ≠ some .sent := by
          obtain rfl := StreamStage.sending.inj (stage.symm.trans same)
          rw [told]
          exact fun same => sent (Option.some.inj same)
        refine .drops (counts_of_ledger (taskTurn_ledger other)) (ready ?_) fun y own => ?_
        · cases d with
          | sent => exact absurd rfl sent
          | lost =>
            have turn : s.taskTurn k = s.abortJob := by simp only [taskTurn, stage, told]
            exact .inl (by simp [turn, abortJob, announce, Streamer.core])
          | failed f =>
            refine .inr ⟨{ k with stage := .ready }, ?_, rfl⟩
            simp [taskTurn, stage, told, failJob, withTask, announce, Streamer.core]
        · obtain rfl := Option.some.inj (held.symm.trans own)
          exact ⟨d, told, sent⟩
  | _ =>
    have free : s.inHand? (.job k.job.number) = none := by rw [before, stage]; rfl
    have counts := counts_of_ledger (s := s) (t := s.taskTurn k)
      (taskTurn_ledger fun x same => absurd (stage.symm.trans same) (by simp))
    have drops (after_ : (s.taskTurn k).streamer.core.task = none ∨
        ∃ k', (s.taskTurn k).streamer.core.task = some k' ∧ k'.stage.inHand? = none) :
        s.Books (.job k.job.number) (s.taskTurn k) :=
      .drops counts (ready after_) (by simp [free])
    generalize core : (s.taskTurn k).streamer.core = m at streams drops
    generalize traffic : (s.taskTurn k).link.traffic = v at streams
    cases streams with
    | wait => exact drops (.inr ⟨k, task, by rw [stage]; rfl⟩)
    | @hand c line here _ =>
      have own : (s.taskTurn k).streamer.task
          = some ⟨k.job, k.cursor, .sending s.link.posts.length⟩ :=
        congrArg StreamerCore.task core
      exact .takes counts free (inHand?_job_eq own) (by rw [traffic]; simp [Traffic.sender?])
    | conclude | vanish => exact drops (.inl rfl)
    | sent _ same | retry same => exact absurd (stage.symm.trans same) (by simp)
    | advance | late => exact drops (.inr ⟨_, rfl, rfl⟩)

theorem jobTurn_books (n : Nat) : s.Books (.job n) (s.jobTurn n) := by
  unfold jobTurn
  split
  · next k found =>
    obtain ⟨task, own⟩ := Option.filter_eq_some_iff.mp found
    obtain rfl : k.job.number = n := by simpa using own
    exact taskTurn_books task
  · exact .alike (.refl s)

/-! ### Pollers and refreshers -/

/-- What a member of a list with a number was replaced by is found. -/
theorem find?_replaced {α : Type} (number : α → Nat) (f : α → α) {n : Nat} {l : List α} {q : α}
    (found : l.find? (number · = n) = some q) (kept : number (f q) = n) :
    (l.map fun q => if number q = n then f q else q).find? (number · = n) = some (f q) := by
  induction l with
  | nil => exact absurd found (by simp)
  | cons r l ih =>
    rw [List.map_cons, List.find?_cons]
    by_cases same : number r = n
    · obtain rfl : r = q := by simpa [List.find?_cons, same] using found
      simp [same, kept]
    · rw [if_neg same]
      simpa [same] using ih (by simpa [List.find?_cons, same] using found)

/-- A poller is found as it was noted. -/
theorem poller?_setPoller {n : Nat} {p q : Poller} (found : s.poller? n = some q)
    (number : p.number = n) : (s.setPoller p).poller? n = some p := by
  obtain ⟨c, here, among⟩ := Option.bind_eq_some_iff.mp found
  subst number
  have replaced := find?_replaced Poller.number (fun _ => p) among rfl
  simpa [poller?, setPoller, here, withConnection] using replaced

theorem post?_pollers {b : Actor} {p : Payload} (posted : s.post? b p = some (x, t)) (n : Nat) :
    t.poller? n = s.poller? n := by
  cases here : s.link.connection with
  | none => exact absurd (posted.symm.trans (post?_of_closed here b p)) (by simp)
  | some c =>
    obtain ⟨u, made, alike⟩ := post?_of_open here b p
    obtain ⟨-, rfl⟩ := Prod.mk.inj (Option.some.inj (posted.symm.trans made))
    simp [poller?, alike, here]

theorem number_of_poller? {n : Nat} {p : Poller} (found : s.poller? n = some p) : p.number = n := by
  obtain ⟨c, -, among⟩ := Option.bind_eq_some_iff.mp found
  simpa using List.find?_some among

/-- The turn of a poller that learns that its query was sent. -/
theorem pollerTurn_of_sent {n : Nat} {p : Poller} (found : s.poller? n = some p)
    (sending : p.sending = some x) (sent : s.link.delivery? x = some .sent) :
    s.pollerTurn n = s.use (.poller n) .stats (·.countSent x) fun s =>
      (s.setPoller { p with sending := none }).again (.poller n) := by
  simp only [pollerTurn, found, sending, sent, if_pos]

/-- **The turn of a poller.** -/
theorem pollerTurn_books (n : Nat) : s.Books (.poller n) (s.pollerTurn n) := by
  have stay : s.Books (.poller n) s := .alike (.refl s)
  by_cases told : ∃ x, s.inHand? (.poller n) = some x ∧ s.link.delivery? x = some .sent
  · obtain ⟨x, held, sent⟩ := told
    obtain ⟨p, found, sending⟩ := Option.bind_eq_some_iff.mp held
    have number := number_of_poller? found
    rw [pollerTurn_of_sent found sending sent]
    refine use_books _ held sent (fun u => counts_of_ledger (setPoller_ledger u _))
      fun u _ _ _ connection => ?_
    have found' : u.poller? n = some p := by rw [poller?, connection]; exact found
    have there := poller?_setPoller (p := { p with sending := none }) found' number
    show (Session.poller? (u.setPoller _) n).bind _ = _
    rw [there]
    rfl
  · push Not at told
    have counts := counts_of_ledger (pollerTurn_ledger told)
    unfold pollerTurn at counts ⊢
    cases found : s.poller? n with
    | none => exact stay
    | some p =>
      have number := number_of_poller? found
      have noted {u : Session} (found' : u.poller? n = some p) (due : Nat) (sending : Option Nat) :
          (u.setPoller ⟨p.number, p.interval, due, sending⟩).inHand? (.poller n) = sending := by
        rw [inHand?, poller?_setPoller (p := ⟨p.number, p.interval, due, sending⟩) found' number]
        rfl
      simp only [found] at counts ⊢
      cases sending : p.sending with
      | none =>
        have free : s.inHand? (.poller n) = none := by simp [inHand?, found, sending]
        simp only [sending] at counts ⊢
        split
        · split
          · exact stay
          · next y u posted =>
            rw [if_pos ‹_›, posted] at counts
            obtain ⟨rfl, move⟩ := post?_move posted
            refine .takes counts free (noted ((post?_pollers posted n).trans found) _ _) ?_
            rw [setPoller_traffic]
            exact move.sender?_post
        · exact stay
      | some x =>
        have held : s.inHand? (.poller n) = some x := by simp [inHand?, found, sending]
        simp only [sending] at counts ⊢
        cases delivery : s.link.delivery? x with
        | none => exact stay
        | some d =>
          have unsent : d ≠ .sent := fun same => told x held (same ▸ delivery)
          simp only [delivery, if_neg unsent] at counts ⊢
          refine Books.again (.drops counts (noted found _ _) fun y own => ?_)
          obtain rfl := Option.some.inj (held.symm.trans own)
          exact ⟨d, delivery, unsent⟩

/-- A refresher is found as it was noted. -/
theorem refresher?_noted {n : Nat} {r : Refresher} (sending : Option Nat)
    (same : t.refreshers = s.refreshers) (found : s.refresher? n = some r) :
    (t.refreshers.map fun q => if q.number = n then { q with sending } else q).find? (·.number = n)
      = some { r with sending } := by
  have among : t.refreshers.find? (·.number = n) = some r := by rw [same]; exact found
  exact find?_replaced Refresher.number (fun q => { q with sending }) among
    (by simpa using List.find?_some among)

/-- **The turn of a refresher.** -/
theorem refresherTurn_books (n : Nat) : s.Books (.refresher n) (s.refresherTurn n) := by
  have stay : s.Books (.refresher n) s := .alike (.refl s)
  have dropped (u : Session) : (u.dropRefresher n).inHand? (.refresher n) = none := by
    have gone : (u.refreshers.filter (·.number ≠ n)).find? (·.number = n) = none := by
      simp [List.find?_eq_none]
    show ((u.refreshers.filter (·.number ≠ n)).find? (·.number = n)).bind _ = none
    rw [gone]
    rfl
  unfold refresherTurn
  cases found : s.refresher? n with
  | none => exact stay
  | some r =>
    cases sending : r.sending with
    | none =>
      have free : s.inHand? (.refresher n) = none := by simp [inHand?, found, sending]
      simp only [sending]
      split
      · split
        · exact .drops rfl (dropped s) (by simp [free])
        · next y u posted =>
          have same : u.ledger = s.ledger := post?_ledger posted
          have noted := refresher?_noted (some y) (congrArg Ledger.refreshers same) found
          obtain ⟨rfl, move⟩ := post?_move posted
          refine .takes (counts_of_ledger same :) free ?_ move.sender?_post
          rw [inHand?, refresher?, noted]
          rfl
      · exact stay
    | some x =>
      have held : s.inHand? (.refresher n) = some x := by simp [inHand?, found, sending]
      simp only [sending]
      cases delivery : s.link.delivery? x with
      | none => exact stay
      | some d =>
        by_cases sent : d = .sent
        · subst sent
          exact use_books (·.dropRefresher n) held delivery (fun u => rfl)
            fun u _ _ _ _ => dropped u
        · simp only [if_neg sent]
          refine .drops rfl (dropped s) fun y own => ?_
          obtain rfl := Option.some.inj (held.symm.trans own)
          exact ⟨d, delivery, sent⟩

/-- **Whoever acts keeps his books**: what was sent goes out of hand when it is counted. -/
theorem act_books (expecting : s.Expecting) (a : Actor) : s.Books a (s.act a) := by
  cases a with
  | call i => exact callTurn_books expecting i
  | job n => exact jobTurn_books n
  | poller n => exact pollerTurn_books n
  | refresher n => exact refresherTurn_books n
  | writer => exact .keeps (counts_of_ledger (writerTurn_ledger s)) rfl
  | reader => exact .keeps (counts_of_ledger (readerTurn_ledger s)) rfl

/-! ## Handing over -/

/-- **A turn in which something is handed over**, if anything: one payload, which is then in
hand. -/
def Entrusts (s : Session) (a : Actor) (t : Session) : Prop :=
  t.link.posts.length = s.link.posts.length ∨
    t.link.posts.length = s.link.posts.length + 1 ∧ t.inHand? a = some s.link.posts.length

/-- Nothing is handed over. -/
theorem Entrusts.nothing (same : t.link.traffic = s.link.traffic) : s.Entrusts a t :=
  .inl (congrArg (fun v => v.posts.length) same)

theorem post?_length {b : Actor} {p : Payload} (posted : s.post? b p = some (x, t)) :
    x = s.link.posts.length ∧ t.link.posts.length = s.link.posts.length + 1 := by
  obtain ⟨ticket, move⟩ := post?_move posted
  refine ⟨ticket, ?_⟩
  rw [show t.link.posts = t.link.traffic.posts from rfl]
  generalize t.link.traffic = u at move
  cases move
  simp [Link.traffic]

/-- A call that hands something over waits to know what becomes of it. -/
theorem Entrusts.post {i : Nat} {p : Payload} {f : Errand}
    (posted : t.post? (.call i) p = some (x, u))
    (same : t.link.traffic = s.link.traffic) (calls : t.calls = s.calls)
    (pending : s.stage? i ≠ none) : s.Entrusts (.call i) (u.setStage i (.sending x f)) := by
  obtain ⟨rfl, length⟩ := post?_length posted
  have before : t.link.posts.length = s.link.posts.length := congrArg (fun v => v.posts.length) same
  have stage : (u.setStage i (.sending t.link.posts.length f)).stage? i
      = some (.sending t.link.posts.length f) := by
    rw [stage?_setStage, if_pos rfl,
      stage?_congr (congrArg Controlled.calls (post?_controlled posted)),
      stage?_congr calls]
    obtain ⟨st, stage⟩ := Option.ne_none_iff_exists'.mp pending
    rw [stage]
    rfl
  refine .inr ⟨length.trans (by rw [before]), ?_⟩
  rw [inHand?_call stage, before]
  rfl

theorem send_hands {i : Nat} (pending : s.stage? i ≠ none) (p : Payload) (f : Errand) :
    s.Entrusts (.call i) (s.send i p f) := by
  unfold send
  split
  · exact .nothing rfl
  · next posted => exact .post posted rfl rfl pending

theorem sendControl_hands {i : Nat} {command : Realtime} {f : Errand} {closed : Session → Session}
    (pending : s.stage? i ≠ none) (same : t.link.traffic = s.link.traffic)
    (calls : t.calls = s.calls) (aside : (closed t).link.traffic = t.link.traffic) :
    s.Entrusts (.call i) (t.sendControl i command f closed) := by
  unfold sendControl
  split
  · exact .nothing ((congrArg Link.traffic (alike_endTurn _).2.1).trans (aside.trans same))
  · next posted => exact .post posted same calls pending

theorem control_hands {i : Nat} (pending : s.stage? i ≠ none) (c : Control)
    (same : t.link.traffic = s.link.traffic) (calls : t.calls = s.calls) :
    s.Entrusts (.call i) (t.control i c) := by
  have refused (r : Result) : s.Entrusts (.call i) (t.finish i r).endTurn :=
    .nothing ((congrArg Link.traffic (alike_endTurn _).2.1).trans same)
  unfold control
  cases c with
  | start program => exact .nothing ((startJob_traffic t i program).trans same)
  | pause =>
    dsimp only
    split
    · refine sendControl_hands pending ?_ ?_ rfl
      · simpa [Link.traffic] using same
      · simpa using calls
    · exact refused _
  | resume =>
    dsimp only
    split
    · exact sendControl_hands pending same calls rfl
    · exact refused _
  | stop =>
    dsimp only
    split
    · refine sendControl_hands pending ?_ ?_ (congrArg Link.traffic (alike_conclude _ _).2.1)
      · simpa [Link.traffic] using same
      · simpa using calls
    · exact refused _

theorem endConnection_length (s : Session) :
    s.endConnection.link.posts.length = s.link.posts.length := by
  cases here : s.link.connection with
  | none => simp [endConnection, here]
  | some c => simp [alike_endConnection here, markDelivered, markAnswered, mark]

theorem dropAnswers_length (s : Session) :
    s.dropAnswers.link.posts.length = s.link.posts.length := by
  cases here : s.link.connection with
  | none => simp [dropAnswers, here]
  | some c => simp [alike_dropAnswers here, markAnswered, mark]

theorem use_length {b : Actor} {g : Guarded} {inside after : Session → Session}
    (within : ∀ u, (inside u).link.posts.length = u.link.posts.length)
    (later : ∀ u, (after u).link.posts.length = u.link.posts.length) :
    (s.use b g inside after).link.posts.length = s.link.posts.length :=
  use_keeps (·.link.posts.length) (fun alike => by rw [alike.2.1]) within later

theorem beginCall_hands {i : Nat} {c : Call} (stage : s.stage? i = some (.begin c)) :
    s.Entrusts (.call i) (s.beginCall i c) := by
  have pending : s.stage? i ≠ none := by simp [stage]
  unfold beginCall
  cases c with
  | write | writeAcked | realtime | writeSetting => exact send_hands pending _ _
  | control c =>
    dsimp only [takeTurn]
    split
    · exact control_hands pending c rfl rfl
    · exact .nothing rfl
  | confirmSetting id value delay timeout =>
    dsimp only [beginConfirmation]
    split
    · exact .nothing rfl
    · next posted => exact .post posted rfl rfl pending
  | wait =>
    dsimp only
    split <;> exact .nothing rfl
  | settings | resetSettings | jobLines | ports => exact .nothing rfl
  | connect port refusal =>
    have shown (status : MachineStatus) :
        (s.setStatus status).link.posts.length = s.link.posts.length := by simp
    have told (u : Session) (e : LinkEvent) :
        (u.publish e).link.posts.length = u.link.posts.length := by simp
    dsimp only [connect]
    split
    · exact .nothing rfl
    · split
      · exact .inl (shown _ :)
      · exact .inl ((told _ _).trans (shown .connecting))
  | disconnect => exact .inl (endConnection_length s)
  | poll interval =>
    dsimp only [addPoller]
    split
    · exact .nothing rfl
    · split
      · exact .nothing rfl
      · exact .inl (by simp [finish, give, withConnection])

/-- **The turn of a call.** -/
theorem callTurn_entrusts (i : Nat) : s.Entrusts (.call i) (s.callTurn i) := by
  unfold callTurn
  cases stage : s.stage? i with
  | none => exact .nothing rfl
  | some st =>
    cases st with
    | begin c => exact beginCall_hands stage
    | turn c =>
      dsimp only
      split
      · exact control_hands (by simp [stage]) c rfl rfl
      · exact .nothing rfl
    | sending x f =>
      dsimp only
      split
      · exact .nothing rfl
      · split
        · exact .nothing (failErrand_traffic s i f _)
        · unfold countErrand
          dsimp only
          split
          · exact .inl (use_length dropAnswers_length fun u => rfl)
          · exact .nothing rfl
    | counting x f =>
      exact .nothing (use_traffic (countSent_traffic · x) (doErrand_traffic · i x f))
    | awaitingAnswer x =>
      dsimp only
      split <;> exact .nothing rfl
    | awaitingIdle =>
      dsimp only
      split <;> exact .nothing rfl
    | confirming key sub deadline => exact .nothing (confirmTurn_traffic s i key sub deadline)
    | lookingUp key => exact .nothing (use_traffic (fun u => rfl) fun u => rfl)

theorem jobTurn_entrusts (n : Nat) : s.Entrusts (.job n) (s.jobTurn n) := by
  unfold jobTurn
  split
  · next k found =>
    obtain ⟨task, own⟩ := Option.filter_eq_some_iff.mp found
    obtain rfl : k.job.number = n := by simpa using own
    have streams := taskTurn_streams s k
    have nothing (same : (s.taskTurn k).link.traffic = s.link.traffic) :
        s.Entrusts (.job k.job.number) (s.taskTurn k) := .nothing same
    generalize core : (s.taskTurn k).streamer.core = m at streams
    generalize traffic : (s.taskTurn k).link.traffic = v at streams nothing
    cases streams with
    | hand =>
      have own : (s.taskTurn k).streamer.task
          = some ⟨k.job, k.cursor, .sending s.link.posts.length⟩ :=
        congrArg StreamerCore.task core
      refine .inr ⟨?_, inHand?_job_eq own⟩
      rw [show (s.taskTurn k).link.posts = _ from congrArg Traffic.posts traffic]
      simp
    | _ => exact nothing rfl
  · exact .nothing rfl

theorem pollerTurn_entrusts (n : Nat) : s.Entrusts (.poller n) (s.pollerTurn n) := by
  have noted (u : Session) (p : Poller) : (u.setPoller p).link.posts.length = u.link.posts.length :=
    congrArg (fun v => v.posts.length) (setPoller_traffic u p)
  unfold pollerTurn
  cases found : s.poller? n with
  | none => exact .nothing rfl
  | some p =>
    dsimp only
    split
    · split
      · split
        · exact .nothing rfl
        · next y u posted =>
          obtain ⟨rfl, length⟩ := post?_length posted
          have number := number_of_poller? found
          have there := poller?_setPoller
            (p := ⟨p.number, p.interval, p.next s.now, some s.link.posts.length⟩)
            ((post?_pollers posted n).trans found) number
          refine .inr ⟨(noted _ _).trans length, ?_⟩
          rw [inHand?, there]
          rfl
      · exact .nothing rfl
    · split
      · exact .nothing rfl
      · split
        · exact .inl (use_length
            (fun u => congrArg (fun v => v.posts.length) (countSent_traffic u _))
            fun u => noted u _)
        · exact .inl (noted s _)

theorem refresherTurn_entrusts (n : Nat) : s.Entrusts (.refresher n) (s.refresherTurn n) := by
  unfold refresherTurn
  cases found : s.refresher? n with
  | none => exact .nothing rfl
  | some r =>
    dsimp only
    split
    · split
      · split
        · exact .nothing rfl
        · next y u posted =>
          obtain ⟨rfl, length⟩ := post?_length posted
          have there := refresher?_noted (some s.link.posts.length)
            ((congrArg Ledger.refreshers (post?_ledger posted) :) : u.refreshers = s.refreshers)
            found
          exact .inr ⟨length, by rw [inHand?, refresher?, there]; rfl⟩
      · exact .nothing rfl
    · split
      · exact .nothing rfl
      · split
        · exact .nothing (use_traffic (countSent_traffic · _) fun u => rfl)
        · exact .nothing rfl

theorem writerTurn_length (s : Session) :
    s.writerTurn.link.posts.length = s.link.posts.length := by
  have deliver (u : Session) (x : Nat) (d : Delivery) :
      (u.deliver x d).link.posts.length = u.link.posts.length := by simp [mark]
  have fail (u : Session) (c : Connection) (x : Nat) (f : WriteFault) :
      (u.failWrite c x f).link.posts.length = u.link.posts.length := by
    unfold failWrite
    split
    · rfl
    · exact deliver _ _ _
  unfold writerTurn
  split
  · rfl
  · split
    · split
      · rfl
      · unfold takePayload
        split <;> rfl
    · exact use_length (fun u => rfl) fun u => rfl
    · split
      · rfl
      · unfold attemptWrite
        dsimp only
        split
        · exact fail _ _ _ _
        · split
          · exact fail _ _ _ _
          · exact deliver _ _ _
    · refine use_length (fun u => ?_) fun u => deliver _ _ _
      unfold giveUpSlot
      split
      · rfl
      · simp [mark, withConnection]

theorem readerTurn_length (s : Session) :
    s.readerTurn.link.posts.length = s.link.posts.length := by
  have chore (u : Session) (c : Chore) :
      (u.doChore c).link.posts.length = u.link.posts.length := by
    cases c with
    | settle a =>
      show (u.settleAnswer a).link.posts.length = _
      unfold settleAnswer
      split
      · rfl
      · split
        · rfl
        · simp [mark, withConnection]
    | _ => simp [doChore]
  unfold readerTurn
  split
  · rfl
  · split
    · unfold readerChore
      dsimp only
      split
      · exact use_length (fun u => chore _ _) fun u => rfl
      · exact chore _ _
    · rfl
    · rfl
    · exact endConnection_length s
    · rfl
    · exact endConnection_length s

/-- **Whoever hands something over has it in hand.** -/
theorem next_entrusts : (s.next e).link.posts.length = s.link.posts.length ∨
    ∃ a, e = .act a ∧ (s.next e).link.posts.length = s.link.posts.length + 1 ∧
      (s.next e).inHand? a = some s.link.posts.length := by
  by_cases acts : ∃ a, e = .act a
  · obtain ⟨a, rfl⟩ := acts
    have entrusts : s.Entrusts a (s.act a) := by
      cases a with
      | call i => exact callTurn_entrusts i
      | job n => exact jobTurn_entrusts n
      | poller n => exact pollerTurn_entrusts n
      | refresher n => exact refresherTurn_entrusts n
      | writer => exact .inl (writerTurn_length s)
      | reader => exact .inl (readerTurn_length s)
    exact entrusts.imp_right fun ⟨length, held⟩ => ⟨a, rfl, length, held⟩
  · left
    rcases next_makes s (fun n own => acts ⟨_, own⟩) with same | ⟨d, move, does⟩
    · exact congrArg (fun v => v.posts.length) same
    · rcases move.origins with ⟨same, -⟩ | ⟨_, a, p, rfl, -, -⟩
      · have lengths := congrArg List.length same
        rwa [length_origins, length_origins] at lengths
      · exact absurd ⟨a, does.of_post⟩ acts

/-! ## The turns of others -/

/-- A call goes on in its own turns only. -/
theorem inHand?_call_next {i : Nat} (other : e ≠ .act (.call i)) :
    (s.next e).inHand? (.call i) = s.inHand? (.call i) := by
  cases stage : s.stage? i with
  | some st => rw [inHand?_call (stage?_next s other stage), inHand?_call stage]
  | none =>
    have free : s.inHand? (.call i) = none := by simp [inHand?, stage]
    cases stage' : (s.next e).stage? i with
    | none => simp [inHand?, stage', stage]
    | some st' =>
      rcases next_follows s e stage' with ⟨st, before, -⟩ | ⟨c, -, -, rfl⟩
      · exact absurd (stage.symm.trans before) (by simp)
      · rw [inHand?_call stage', free]
        rfl

theorem task?_of_ne {n : Nat} (others : ∀ k, s.streamer.task = some k → k.job.number ≠ n) :
    s.task? n = none := by
  rw [task?, Option.filter_eq_none_iff]
  exact fun k task => by simpa using others k task

/-- **A streaming task goes on in its own turns**, unless a call stops its job. Jobs are started
only while nothing is streamed. -/
theorem task?_next {n : Nat} (other : e ≠ .act (.job n)) :
    (s.next e).task? n = s.task? n ∨
      (∃ i turns, e = .act (.call i) ∧ s.HasTurn i .stop turns ∧ (s.next e).task? n = none) ∨
      (s.streamer.state = .idle ∧ (s.next e).inHand? (.job n) = none) := by
  have same {t : Session} (task : t.streamer.core.task = s.streamer.core.task) :
      t.task? n = s.task? n := congrArg (Option.filter _) (task : t.streamer.task = s.streamer.task)
  have steps := next_steps s e
  generalize s.next e = t at steps
  cases steps with
  | @call i _ handles =>
    have controls := handles.1
    generalize core : t.streamer.core = m at controls
    generalize t.stage? i = st at controls
    have task : t.streamer.task = m.task := congrArg StreamerCore.task core
    cases controls with
    | wait | aside | count | queue => exact .inl (same (core ▸ rfl))
    | steer turn steers =>
      cases steers with
      | refuse | pause | pauseClosed | resume => exact .inl (same (core ▸ rfl))
      | start idle =>
        refine .inr (.inr ⟨idle, inHand?_job_none fun k new => ?_⟩)
        obtain rfl := Option.some.inj (task.symm.trans new)
        rfl
      | stop | stopClosed => exact .inr (.inl ⟨i, _, rfl, turn, by rw [task?, task]; rfl⟩)
    | finish _ _ _ finishes =>
      cases finishes with
      | aside | resume | stop => exact .inl (same (core ▸ rfl))
  | gone => exact .inl rfl
  | begin _ _ _ _ core | aside _ _ core => exact .inl (same (congrArg StreamerCore.task core))
  | @stream k _ task streams =>
    have apart : k.job.number ≠ n := fun same => other (by rw [same])
    refine .inl ((task?_of_ne fun k' task' => ?_).trans (task?_of_ne fun k' task' => ?_).symm)
    · have own : t.streamer.core.task = some k' := task'
      -- the job stays the same one as long as its task lasts
      have job : k'.job = k.job := by
        generalize t.streamer.core = m at streams own
        generalize t.link.traffic = v at streams
        cases streams with
        | wait => exact congrArg StreamTask.job (Option.some.inj (own.symm.trans task))
        | conclude | vanish => exact absurd own (by simp)
        | _ => exact (congrArg StreamTask.job (Option.some.inj own) :).symm
      rw [job]
      exact apart
    · obtain rfl := Option.some.inj (task.symm.trans task')
      exact apart

theorem poller?_setPoller_ne {n : Nat} {p : Poller} (other : p.number ≠ n) :
    (s.setPoller p).poller? n = s.poller? n := by
  unfold setPoller
  cases here : s.link.connection with
  | none => rfl
  | some c =>
    have found := find?_replace Poller.number (fun _ => p) other.symm (fun _ _ => rfl) c.pollers
    simp only [poller?, withConnection, here, Option.bind_some, found]

theorem poller?_pollerTurn {m n : Nat} (other : m ≠ n) :
    (s.pollerTurn m).poller? n = s.poller? n := by
  unfold pollerTurn
  split
  · rfl
  · next p found =>
    have number := number_of_poller? found
    have noted (u : Session) (due : Nat) (sending : Option Nat) :
        (u.setPoller ⟨p.number, p.interval, due, sending⟩).poller? n = u.poller? n :=
      poller?_setPoller_ne (p := ⟨p.number, p.interval, due, sending⟩) (number ▸ other)
    split
    · split
      · split
        · rfl
        · next posted => exact (noted _ _ _).trans (post?_pollers posted n)
      · rfl
    · split
      · rfl
      · dsimp only
        split
        · refine use_keeps (·.poller? n) (fun alike => by simp only [poller?, alike.2.1])
            (fun u => ?_) fun u => noted u _ _
          unfold poller?
          rw [show (u.countSent _).link.connection = _ from
            congrArg Traffic.connection (countSent_traffic u _)]
          rfl
        · exact noted _ _ _

theorem hand_poller {c : Connection} (here : s.link.connection = some c) (n : Nat) :
    s.inHand? (.poller n) = (c.pollers.find? (·.number = n)).bind (·.sending) := by
  simp only [inHand?, poller?, here, Option.bind_some]

/-- A poller that has just been added has nothing in hand. -/
theorem inHand?_addPoller {i interval : Nat} (stage : s.stage? i = some (.begin (.poll interval)))
    (n : Nat) : (s.callTurn i).inHand? (.poller n) = s.inHand? (.poller n) := by
  have turn : s.callTurn i = s.addPoller i interval := by
    simp only [callTurn, stage, beginCall]
  rw [turn, addPoller]
  cases here : s.link.connection with
  | none => rfl
  | some c =>
    dsimp only
    split
    · rfl
    · have among : ((c.pollers ++ [(⟨s.spawned, interval, s.now, none⟩ : Poller)]).find?
          (·.number = n)).bind (·.sending) = (c.pollers.find? (·.number = n)).bind (·.sending) := by
        rw [List.find?_append]
        cases c.pollers.find? (·.number = n) with
        | some p => rfl
        | none => by_cases new : s.spawned = n <;> simp [new]
      have before := hand_poller here n
      exact (hand_poller (congrArg Link.connection (alike_wake _ _).2.1) n).trans
        (among.trans before.symm)

/-- A poller is ended with its connection. -/
theorem inHand?_poller_next {n : Nat} (other : e ≠ .act (.poller n)) :
    (s.next e).inHand? (.poller n) = s.inHand? (.poller n) ∨ (s.next e).link.connection = none := by
  have same {t : Session} (kept : (t.link.connection.map (·.pollers)).getD []
      = (s.link.connection.map (·.pollers)).getD []) :
      t.inHand? (.poller n) = s.inHand? (.poller n) := by
    have among (u : Session) : u.poller? n
        = ((u.link.connection.map (·.pollers)).getD []).find? (·.number = n) := by
      unfold poller?
      cases u.link.connection <;> rfl
    simp only [inHand?, among, kept]
  by_cases poller : ∃ m, e = .act (.poller m)
  · obtain ⟨m, rfl⟩ := poller
    have apart : m ≠ n := fun same => other (by rw [same])
    refine .inl ?_
    show ((s.pollerTurn m).poller? n).bind _ = _
    rw [poller?_pollerTurn apart]
    rfl
  · rcases next_makes s (fun m own => poller ⟨m, own⟩) with quiet | ⟨d, move, does⟩
    · have connection : (s.next e).link.connection = s.link.connection :=
        congrArg Traffic.connection quiet
      exact .inl (same (by rw [connection]))
    · cases there : (s.next e).link.connection with
      | none => exact .inr rfl
      | some c' =>
        left
        by_cases polls : d = .poll
        · subst polls
          cases does with
          | write own => exact absurd own (by simp [Deed.byWriter])
          | poll polls =>
            cases polls with
            | note m => exact absurd ⟨m, rfl⟩ poller
            | add stage => exact inHand?_addPoller stage n
        · refine same ?_
          rcases move.pollers_kept polls there with ⟨closed, empty⟩ | ⟨c, here, kept⟩
          · have closed : s.link.connection = none := closed
            simp [there, closed, empty]
          · have here : s.link.connection = some c := here
            simp [there, here, kept]

/-- **Who sets timers**: a call that writes a setting, when it has counted its line. -/
theorem next_refreshers (other : ∀ n, e ≠ .act (.refresher n)) :
    ((s.next e).refreshers = s.refreshers ∧ s.spawned ≤ (s.next e).spawned) ∨
      ∃ i x delay c, e = .act (.call i) ∧ s.stage? i = some (.counting x (.setting delay c)) ∧
        (s.next e).refreshers = s.refreshers ++ [⟨s.spawned, s.now + delay, none⟩] ∧
        (s.next e).spawned = s.spawned + 1 := by
  have kept {t : Session} {n : Nat} (later : s.spawned ≤ n)
      (same : t.ledger = ⟨s.counts, s.refreshers, n⟩) :
      t.refreshers = s.refreshers ∧ s.spawned ≤ t.spawned :=
    ⟨congrArg Ledger.refreshers same, later.trans_eq (congrArg Ledger.spawned same).symm⟩
  have alone {t : Session} (same : t.ledger = s.ledger) := kept (Nat.le_refl _) same
  have counted {a : Actor} {x : Nat} {after : Session → Session}
      (later : ∀ u, (after u).ledger = u.ledger) :
      (s.use a .stats (·.countSent x) after).refreshers = s.refreshers ∧
        s.spawned ≤ (s.use a .stats (·.countSent x) after).spawned := by
    have same : ((s.use a .stats (·.countSent x) after).refreshers,
        (s.use a .stats (·.countSent x) after).spawned) = (s.refreshers, s.spawned) :=
      use_keeps (fun u => (u.refreshers, u.spawned))
        (fun alike => Prod.ext alike.2.2.2.2.1 alike.2.2.2.2.2.1)
        (fun u => Prod.ext (countSent_refreshers u x) (countSent_spawned u x))
        fun u => congrArg (fun l : Ledger => (l.refreshers, l.spawned)) (later u)
    exact ⟨congrArg Prod.fst same, Nat.le_of_eq (congrArg Prod.snd same).symm⟩
  by_cases aside : ∀ a, e = .act a → a = .writer ∨ a = .reader
  · exact .inl (alone (aside_ledger aside))
  · push Not at aside
    obtain ⟨a, rfl, notWriter, notReader⟩ := aside
    cases a with
    | writer => exact absurd rfl notWriter
    | reader => exact absurd rfl notReader
    | refresher n => exact absurd rfl (other n)
    | poller n =>
      left
      by_cases told : ∃ x, s.inHand? (.poller n) = some x ∧ s.link.delivery? x = some .sent
      · obtain ⟨x, held, sent⟩ := told
        obtain ⟨p, found, sending⟩ := Option.bind_eq_some_iff.mp held
        show (s.pollerTurn n).refreshers = _ ∧ s.spawned ≤ (s.pollerTurn n).spawned
        rw [pollerTurn_of_sent found sending sent]
        exact counted fun u => setPoller_ledger u _
      · push Not at told
        exact alone (pollerTurn_ledger told)
    | job n =>
      left
      show (s.jobTurn n).refreshers = _ ∧ s.spawned ≤ (s.jobTurn n).spawned
      unfold jobTurn
      split
      · next k _ =>
        by_cases told : ∃ x, k.stage = .sending x ∧ s.link.delivery? x = some .sent
        · obtain ⟨x, stage, sent⟩ := told
          rw [taskTurn_of_sent stage sent]
          exact counted fun u => rfl
        · push Not at told
          exact alone (taskTurn_ledger told)
      · exact ⟨rfl, Nat.le_refl _⟩
    | call i =>
      by_cases counting : ∃ x f, s.stage? i = some (.counting x f)
      · obtain ⟨x, f, stage⟩ := counting
        show ((s.callTurn i).refreshers = _ ∧ s.spawned ≤ (s.callTurn i).spawned) ∨
          ∃ j y delay c, _ ∧ _ ∧ (s.callTurn i).refreshers = _ ∧ (s.callTurn i).spawned = _
        rcases callTurn_counting stage with alike | ⟨v, now, spawned, refreshers, -, turn⟩
        · exact .inl ⟨alike.2.2.2.2.1, Nat.le_of_eq alike.2.2.2.2.2.1.symm⟩
        · have made : (s.callTurn i).ledger
              = ⟨v.counts, v.refreshers ++ f.timers v, v.spawned + (f.timers v).length⟩ := by
            rw [turn]
            exact doErrand_ledger v i x f
          have timers : (s.callTurn i).refreshers = s.refreshers ++ f.timers v :=
            (congrArg Ledger.refreshers made).trans (congrArg (· ++ f.timers v) refreshers)
          have numbers : (s.callTurn i).spawned = s.spawned + (f.timers v).length :=
            (congrArg Ledger.spawned made).trans (congrArg (· + (f.timers v).length) spawned)
          cases f with
          | setting delay c =>
            refine .inr ⟨i, x, delay, c, rfl, stage, ?_, numbers⟩
            rw [timers, Errand.timers, now, spawned]
          | _ => exact .inl ⟨timers.trans (List.append_nil _), Nat.le_of_eq numbers.symm⟩
      · push Not at counting
        obtain ⟨n, later, same⟩ := callTurn_ledger counting
        exact .inl (kept later same)

theorem refresher?_dropRefresher {m n : Nat} (other : m ≠ n) :
    (s.dropRefresher m).refresher? n = s.refresher? n := by
  show (s.refreshers.filter (·.number ≠ m)).find? (·.number = n) = _
  rw [List.find?_filter]
  congr 1
  funext r
  by_cases same : r.number = n <;> simp [same, other.symm]

theorem refresher?_refresherTurn {m n : Nat} (other : m ≠ n) :
    (s.refresherTurn m).refresher? n = s.refresher? n := by
  unfold refresherTurn
  split
  · rfl
  · split
    · split
      · split
        · exact refresher?_dropRefresher other
        · next y u posted =>
          have same : u.refreshers = s.refreshers :=
            congrArg Ledger.refreshers (post?_ledger posted)
          have found := find?_replace Refresher.number (fun q => { q with sending := some y })
            other.symm (fun _ number => number) u.refreshers
          exact found.trans (by rw [same]; rfl)
      · rfl
    · split
      · rfl
      · split
        · exact use_keeps (·.refresher? n) (fun alike => by simp only [refresher?, alike.2.2.2.2.1])
            (fun u => by simp only [refresher?, countSent_refreshers])
            fun u => refresher?_dropRefresher other
        · exact refresher?_dropRefresher other

/-- A refresher goes on in its own turns only. -/
theorem inHand?_refresher_next {n : Nat} (other : e ≠ .act (.refresher n)) :
    (s.next e).inHand? (.refresher n) = s.inHand? (.refresher n) := by
  by_cases refresher : ∃ m, e = .act (.refresher m)
  · obtain ⟨m, rfl⟩ := refresher
    have apart : m ≠ n := fun same => other (by rw [same])
    show ((s.refresherTurn m).refresher? n).bind _ = _
    rw [refresher?_refresherTurn apart]
    rfl
  · rcases next_refreshers (s := s) (fun m own => refresher ⟨m, own⟩)
      with same | ⟨_, _, _, _, -, -, added⟩
    · simp only [inHand?, refresher?, same]
    · -- one that has just been set has asked for nothing yet
      simp only [inHand?, refresher?, added, List.find?_append]
      cases s.refreshers.find? (·.number = n) with
      | some r => rfl
      | none =>
        by_cases new : s.spawned = n
        · simp [new]
        · simp [new]

/-- **Nobody takes anything in hand for another**, but others may end him. -/
theorem inHand?_next (other : e ≠ .act a) :
    (s.next e).inHand? a = s.inHand? a ∨ (s.next e).inHand? a = none := by
  cases a with
  | call i => exact .inl (inHand?_call_next other)
  | job n =>
    rcases task?_next other with same | ⟨_, _, -, -, gone⟩ | ⟨-, none⟩
    · exact .inl (congrArg (Option.bind · _) same)
    · exact .inr (congrArg (Option.bind · _) gone)
    · exact .inr none
  | poller n =>
    refine (inHand?_poller_next other).imp_right fun closed => ?_
    simp [inHand?, poller?, closed]
  | refresher n => exact .inl (inHand?_refresher_next other)
  | writer | reader => exact .inl rfl

end Session

end Cnc
