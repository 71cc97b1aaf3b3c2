import Cnc.Proofs.Listening
import Cnc.Proofs.Patience
import Cnc.Proofs.Pending
import Cnc.Proofs.Reachable

/-!
# What calls get from a closed link

While the link is closed nothing is received (`Outlook.Rests`), what became of
every payload is known, and no subscriber hears anything new. What a call
that is under way then still gives is decided by the stage it is at
(`Session.Due`): it is told that its payload or its answer was lost, its turn
comes and it is refused, and the last thing that it hears is that the link was
closed. A run of turns gives it just that (`Session.Shut.due_after`), and
nobody is left waiting but those who wait for the job streamer
(`Session.Warned.released`).
-/

namespace Cnc

/-- What a call gives when its payload was not sent. -/
def Errand.failure (e : Errand) (f : LinkError) : Result :=
  if e.isControl then .jobError (.link f) else .linkError f

namespace Session

variable {s t : Session} {e : Event} {i : Nat} {st : CallStage} {rs : List Result}

/-! ## A closed link -/

/-- **The link is closed**, and its status says so. -/
structure Shut (s : Session) : Prop where
  connection : s.link.connection = none
  status : s.link.status = .disconnected

/-- **A link that stays closed receives nothing.** -/
theorem Shut.rests (shut : s.Shut) (stays : (s.next e).link.connection = none) :
    s.outlook.Rests (s.next e).outlook := by
  by_cases connects : ∃ i port refusal, e = .act (.call i) ∧
      s.stage? i = some (.begin (.connect port refusal))
  · obtain ⟨i, port, refusal, rfl, stage⟩ := connects
    have turn : s.next (.act (.call i)) = s.connect i port refusal := by
      show s.callTurn i = _
      simp only [callTurn, stage]
      rfl
    rw [turn] at stays ⊢
    unfold connect at stays ⊢
    rw [shut.connection] at stays ⊢
    cases refusal with
    | some fault =>
      have refused : ((s.setStatus .disconnected).finish i
          (.linkError (.ofOpening port fault "open fault"))).outlook = s.outlook := by
        refine (alike_setStatus s .disconnected).outlook.trans ?_
        rw [← shut.status]
      exact .of_eq refused
    | none => exact absurd stays (by simp [finish, give])
  · exact rests_of_closed shut.connection fun i port refusal own stage =>
      connects ⟨i, port, refusal, own, stage⟩

/-- **The status of a closed link** says that it is closed. -/
theorem shut_of_closed (timeout : Option Nat) (es : List Event)
    (closed : ((initial timeout).after es).link.connection = none) :
    ((initial timeout).after es).Shut := by
  refine ⟨closed, ?_⟩
  induction es using List.reverseRecOn with
  | nil => rfl
  | append_singleton es e ih =>
    rw [after_append, after_cons, after_nil] at closed ⊢
    generalize (initial timeout).after es = s at *
    cases here : s.link.connection with
    | none => exact (Shut.rests ⟨here, ih here⟩ closed).status.trans (ih here)
    | some c =>
      obtain ⟨a, rfl, closing⟩ := closing_of_closed (by simp [here]) closed
      rw [show (s.next (.act a)).link = _ from closing.link here]

/-- A closed link stays closed if no port is opened. -/
theorem Shut.stays (shut : s.Shut) (still : (s.next e).link.opened = s.link.opened) :
    (s.next e).link.connection = none :=
  (congrArg Traffic.connection (traffic_of_closed shut.connection still)).trans shut.connection

theorem Shut.next (shut : s.Shut) (still : (s.next e).link.opened = s.link.opened) :
    (s.next e).Shut :=
  ⟨shut.stays still, (shut.rests (shut.stays still)).status.trans shut.status⟩

/-- **A link that stays closed** carries nothing and receives nothing. -/
theorem Shut.after (shut : s.Shut) (es : List Event)
    (still : (s.after es).link.opened = s.link.opened) :
    (s.after es).Shut ∧ s.outlook.Rests (s.after es).outlook ∧
      (s.after es).link.traffic = s.link.traffic := by
  induction es generalizing s with
  | nil => exact ⟨shut, .refl _, rfl⟩
  | cons e es ih =>
    obtain ⟨first, rest⟩ := opened_split [e] es still
    obtain ⟨there, rests, traffic⟩ := ih (shut.next first) rest
    exact ⟨there, (shut.rests (shut.stays first)).trans rests,
      traffic.trans (traffic_of_closed shut.connection first)⟩

theorem next_now (turn : e.isTurn = true) : (s.next e).now = s.now := by
  cases e with
  | act a => exact act_now s a
  | schedule => rfl
  | _ => exact absurd turn (by simp [Event.isTurn])

/-- **On a closed link nobody hears anything new.** -/
theorem Shut.unheard (shut : s.Shut) (still : (s.next e).link.opened = s.link.opened)
    (turn : e.isTurn = true) (sub : Nat) :
    (s.next e).link.events.unheard sub ⊆ s.link.events.unheard sub := by
  have log : (s.next e).link.events.log = s.link.events.log :=
    (shut.rests (shut.stays still)).events
  have same (grows : s.link.events.Grows (s.next e).link.events) :
      (s.next e).link.events.unheard sub ⊆ s.link.events.unheard sub := by
    rw [EventBus.unheard, EventBus.unheard, EventBus.oldest, EventBus.oldest, log, grows.position?,
      grows.capacity]
    exact fun _ member => member
  by_cases call : ∃ i, e = .act (.call i)
  · obtain ⟨i, rfl⟩ := call
    have tunes := callTurn_tunes s i
    change (s.callTurn i).link.events.unheard sub ⊆ _
    cases tunes with
    | grows grows => exact same grows
    | subscribes isOpen => exact absurd isOpen (by simp [shut.connection])
    | refused events => exact events ▸ EventBus.unheard_subscribe_unsubscribe _ sub
    | leaves _ events => exact events ▸ EventBus.unheard_unsubscribe_subset _ _ sub
    | hears _ _ _ events => exact events ▸ EventBus.unheard_receive_subset _ _ sub
  · refine same (next_grows s (fun i own => call ⟨i, own⟩) ?_)
    rintro rfl
    exact absurd turn (by simp [Event.isTurn])

/-! ## What is due -/

/-- **What a call at some stage still gives** on a closed link. -/
inductive Due (s : Session) : CallStage → List Result → Prop
  /-- A call that has not begun is refused, or answered at once. -/
  | begin {c : Call} {r : Result} (refused : ∀ d, c = .control d → ∃ f, r = .jobError f) :
    Due s (.begin c) [r]
  /-- A call that waits its turn at the job streamer is refused. -/
  | turn (c : Control) (f : JobError) : Due s (.turn c) [.jobError f]
  | unsent {x : Nat} {errand : Errand} {d : Delivery} {f : LinkError}
      (told : s.link.delivery? x = some d) (fails : d.error? = some f) :
    Due s (.sending x errand) [errand.failure f]
  | sent {x : Nat} {errand : Errand} {rs : List Result} (told : s.link.delivery? x = some .sent)
      (rest : Due s (.counting x errand) rs) : Due s (.sending x errand) rs
  /-- A call that waits for nothing more returns. -/
  | counted {x : Nat} {errand : Errand} (plain : errand ≠ .reportAnswer)
      (silent : ∀ delay c, errand ≠ .setting delay (some c)) : Due s (.counting x errand) [.ok]
  | answer {x : Nat} {rs : List Result} (rest : Due s (.awaitingAnswer x) rs) :
    Due s (.counting x .reportAnswer) (.sent :: rs)
  | confirm {x delay : Nat} {c : Confirmation} {rs : List Result}
      (rest : Due s (.confirming c.key c.subscription (s.now + c.timeout)) rs) :
    Due s (.counting x (.setting delay (some c))) rs
  | acked {x : Nat} {a : Ack} (answered : s.link.answer? x = some (.ack a)) :
    Due s (.awaitingAnswer x) [.ack a]
  | unanswered {x : Nat} (lost : s.link.answer? x = some .lost) :
    Due s (.awaitingAnswer x) [.linkError .notConnected]
  | idle : Due s .awaitingIdle [.idle]
  /-- The setting was reported before the link was closed. -/
  | reported {key value : String} {sub deadline : Nat} {now : Option String}
      (heard : .setting key value ∈ s.link.events.unheard sub) :
    Due s (.confirming key sub deadline) [.reported now]
  | unreported {key : String} {sub deadline : Nat} (late : deadline ≤ s.now) :
    Due s (.confirming key sub deadline) [.reported none]
  | cutOff (key : String) (sub deadline : Nat) :
    Due s (.confirming key sub deadline) [.linkError .notConnected]
  | lookedUp (key : String) (now : Option String) : Due s (.lookingUp key) [.reported now]

namespace Due

theorem ne_nil (due : s.Due st rs) : rs ≠ [] := by
  induction due with
  | sent _ _ ih | confirm _ ih => exact ih
  | _ => simp

/-- What is due later was due before. -/
theorem of_later (due : t.Due st rs) (traffic : t.link.traffic = s.link.traffic)
    (now : t.now = s.now) (heard : ∀ sub, t.link.events.unheard sub ⊆ s.link.events.unheard sub) :
    s.Due st rs := by
  have delivery (x : Nat) : t.link.delivery? x = s.link.delivery? x :=
    congrArg (fun v => Traffic.delivery? v x) traffic
  have answer (x : Nat) : t.link.answer? x = s.link.answer? x :=
    congrArg (fun v => Traffic.answer? v x) traffic
  induction due with
  | begin refused => exact .begin refused
  | turn c f => exact .turn c f
  | unsent told fails => exact .unsent ((delivery _).symm.trans told) fails
  | sent told _ ih => exact .sent ((delivery _).symm.trans told) ih
  | counted plain silent => exact .counted plain silent
  | answer _ ih => exact .answer ih
  | confirm _ ih => exact .confirm (now ▸ ih)
  | acked answered => exact .acked ((answer _).symm.trans answered)
  | unanswered lost => exact .unanswered ((answer _).symm.trans lost)
  | idle => exact .idle
  | reported heard' => exact .reported (heard _ heard')
  | unreported late => exact .unreported (now ▸ late)
  | cutOff key sub deadline => exact .cutOff key sub deadline
  | lookedUp key v => exact .lookedUp key v

end Due

/-- **What a turn that leads to `t` does for the call `i`**: it returns what is due, or goes on to a
stage where the rest is due. -/
inductive Yields (s : Session) (i : Nat) (st : CallStage) (t : Session) : Prop
  | returns {rs : List Result} (gone : t.stage? i = none)
      (results : t.resultsOf i = s.resultsOf i ++ rs) (due : s.Due st rs)
  | goesOn (st' : CallStage) (new : List Result) (stage : t.stage? i = some st')
      (results : t.resultsOf i = s.resultsOf i ++ new)
      (due : ∀ rs, s.Due st' rs → s.Due st (new ++ rs))

namespace Yields

/-- The call stays where it is. -/
theorem stay (stage : s.stage? i = some st) (calls : t.calls = s.calls)
    (results : t.results = s.results) : s.Yields i st t := by
  refine .goesOn st [] ((stage?_congr calls i).trans stage) ?_ fun rs => id
  rw [resultsOf_congr results, List.append_nil]

theorem finish {r : Result} (results : t.results = s.results) (real : r ≠ .noDevice)
    (due : s.Due st [r]) : s.Yields i st (t.finish i r) := by
  refine .returns (by simp) ?_ due
  rw [resultsOf_finish t i real, resultsOf_congr results]

theorem congr {u : Session} (yields : s.Yields i st t) (calls : u.calls = t.calls)
    (results : u.results = t.results) : s.Yields i st u := by
  cases yields with
  | returns gone given due =>
    exact .returns ((stage?_congr calls i).trans gone) ((resultsOf_congr results).trans given) due
  | goesOn st' new stage given due =>
    exact .goesOn st' new ((stage?_congr calls i).trans stage)
      ((resultsOf_congr results).trans given) due

theorem finished {r : Result} (results : t.results = s.results) (real : r ≠ .noDevice)
    (due : s.Due st [r]) : s.Yields i st (t.finish i r).endTurn :=
  (finish results real due).congr (alike_endTurn _).2.2.2.1 (alike_endTurn _).2.2.2.2.2.2

/-- The call goes on to another stage, and gives nothing yet. -/
theorem setStage {st' : CallStage} (stage : s.stage? i = some st) (calls : t.calls = s.calls)
    (results : t.results = s.results) (due : ∀ rs, s.Due st' rs → s.Due st rs) :
    s.Yields i st (t.setStage i st') := by
  refine .goesOn st' [] ?_ ?_ due
  · rw [stage?_setStage, if_pos rfl, stage?_congr calls, stage]
    rfl
  · rw [List.append_nil]
    exact resultsOf_congr results

/-- Using a guarded part: the call stays where it is, or gets through. -/
theorem use {g : Guarded} {inside after : Session → Session} (stage : s.stage? i = some st)
    (through : ∀ u : Session, u.Alike s → s.Yields i st (after ((inside u).leave g))) :
    s.Yields i st (s.use (.call i) g inside after) := by
  rcases use_cases s (.call i) g inside after with alike | ⟨u, alike, same⟩
  · exact .stay stage alike.2.2.2.1 alike.2.2.2.2.2.2
  · exact same ▸ through u alike

end Yields

/-! ## The turn of a call -/

section Turn

variable (closed : s.link.connection = none)

include closed

/-- A closed link takes nothing. -/
theorem send_refused (p : Payload) (errand : Errand) :
    s.send i p errand = s.finish i (.linkError .notConnected) := by
  simp [send, post?_of_closed closed]

/-- **Nobody controls a job over a closed link.** -/
theorem control_yields (c : Control) (due : ∀ f, s.Due st [.jobError f])
    (results : t.results = s.results) (same : t.link.connection = s.link.connection) :
    s.Yields i st (t.control i c) := by
  have refused (u : Session) (same : u.results = s.results) (f : JobError) :
      s.Yields i st (u.finish i (.jobError f)).endTurn :=
    .finished same (by simp) (due f)
  have sends (u : Session) (here : u.link.connection = s.link.connection) (command : Realtime)
      (errand : Errand) (after : Session → Session) (same : (after u).results = s.results) :
      s.Yields i st (u.sendControl i command errand after) := by
    simp only [sendControl, post?_of_closed (here.trans closed)]
    exact refused _ same _
  unfold control
  cases c with
  | start program =>
    dsimp only [startJob]
    split
    · exact refused t results _
    · split
      · exact refused t results _
      · rw [if_pos (by simp [same, closed])]
        exact refused t results _
  | pause =>
    dsimp only
    split
    · exact sends _ (by simpa using same) _ _ _ (by simpa using results)
    · exact refused t results _
  | resume =>
    dsimp only
    split
    · exact sends t same _ _ id results
    · exact refused t results _
  | stop =>
    dsimp only
    split
    · exact sends _ (by simpa using same) _ _ _ (by simpa using results)
    · exact refused t results _

theorem beginCall_yields {c : Call} (stage : s.stage? i = some (.begin c))
    (still : (s.beginCall i c).link.opened = s.link.opened) :
    s.Yields i (.begin c) (s.beginCall i c) := by
  have given (t : Session) (same : t.results = s.results) {r : Result} (real : r ≠ .noDevice)
      (other : ∀ d, c ≠ .control d) : s.Yields i (.begin c) (t.finish i r) :=
    .finish same real (.begin fun d own => absurd own (other d))
  have sent (p : Payload) (errand : Errand) (other : ∀ d, c ≠ .control d) :
      s.Yields i (.begin c) (s.send i p errand) := by
    rw [send_refused closed]
    exact given s rfl (by simp) other
  unfold beginCall
  cases c with
  | connect port refusal =>
    change (s.connect i port refusal).link.opened = s.link.opened at still
    show s.Yields i _ (s.connect i port refusal)
    unfold connect at still ⊢
    rw [closed] at still ⊢
    cases refusal with
    | some fault =>
      exact given _ (alike_setStatus s .disconnected).2.2.2.2.2.2 (r := .linkError _) (by simp)
        (by simp)
    | none => exact absurd still (by simp [finish, give])
  | disconnect =>
    have same : s.endConnection = s := by simp [endConnection, closed]
    exact given _ (by rw [same]) (by simp) (by simp)
  | write | writeAcked | realtime | writeSetting => exact sent _ _ (by simp)
  | control c =>
    dsimp only [takeTurn]
    split
    · exact control_yields closed c (fun f => .begin fun d own => ⟨f, rfl⟩) rfl rfl
    · refine .setStage stage rfl rfl fun rs due => ?_
      cases due with
      | turn => exact .begin fun d own => ⟨_, rfl⟩
  | wait =>
    dsimp only
    split
    · exact given s rfl (by simp) (by simp)
    · refine .setStage stage rfl rfl fun rs due => ?_
      cases due with
      | idle => exact .begin fun d own => absurd own (by simp)
  | poll interval =>
    dsimp only [addPoller]
    rw [closed]
    exact given s rfl (by simp) (by simp)
  | confirmSetting id value delay timeout =>
    dsimp only [beginConfirmation]
    rw [post?_of_closed (by exact closed)]
    exact .finish rfl (by simp) (.begin (by simp))
  | resetSettings => exact given { s with link.settings := .empty } rfl (by simp) (by simp)
  | settings | jobLines | ports => exact given s rfl (by simp) (by simp)

end Turn

theorem failErrand_yields {x : Nat} {errand : Errand} {d : Delivery} {f : LinkError}
    (told : s.link.delivery? x = some d) (fails : d.error? = some f) :
    s.Yields i (.sending x errand) (s.failErrand i errand f) := by
  have due : s.Due (.sending x errand) [errand.failure f] := .unsent told fails
  unfold failErrand
  cases errand with
  | report | reportAnswer | realtime => exact .finish rfl (by simp) due
  | pause | resume => exact .finished rfl (by simp) due
  | stop => exact .finished (by simp) (by simp) due
  | setting delay confirmation => cases confirmation <;> exact .finish rfl (by simp) due

theorem countErrand_yields {x : Nat} {errand : Errand}
    (stage : s.stage? i = some (.sending x errand)) (told : s.link.delivery? x = some .sent) :
    s.Yields i (.sending x errand) (s.countErrand i x errand) := by
  have counting (u : Session) (calls : u.calls = s.calls) (results : u.results = s.results) :
      s.Yields i (.sending x errand) ((u.setStage i (.counting x errand)).again (.call i)) :=
    (Yields.setStage stage calls results fun rs => .sent told).congr rfl rfl
  unfold countErrand
  dsimp only
  split
  · refine .use stage fun u alike => ?_
    have left := alike_leave u.dropAnswers .slots
    have controlled := dropAnswers_controlled u
    refine counting _ ?_ ?_
    · exact left.2.2.2.1.trans ((congrArg Controlled.calls controlled).trans alike.2.2.2.1)
    · exact left.2.2.2.2.2.2.trans
        ((congrArg Controlled.results controlled).trans alike.2.2.2.2.2.2)
  · exact counting s.spend rfl rfl

theorem doErrand_yields {x : Nat} {errand : Errand}
    (stage : s.stage? i = some (.counting x errand)) (calls : t.calls = s.calls)
    (results : t.results = s.results) (now : t.now = s.now) :
    s.Yields i (.counting x errand) (t.doErrand i x errand) := by
  unfold doErrand
  cases errand with
  | report | realtime => exact .finish results (by simp) (.counted (by simp) (by simp))
  | reportAnswer =>
    refine .goesOn (.awaitingAnswer x) [.sent] ?_ ?_ fun rs => .answer
    · show ((t.give i .sent).setStage i (.awaitingAnswer x)).stage? i = _
      have same : (t.give i .sent).stage? i = some (.counting x .reportAnswer) :=
        (stage?_congr calls i).trans stage
      rw [stage?_setStage, if_pos rfl, same]
      rfl
    · show (t.give i .sent).resultsOf i = _
      rw [resultsOf_give t i (r := .sent) (by simp), resultsOf_congr results]
  | pause => exact .finished results (by simp) (.counted (by simp) (by simp))
  | resume => exact .finished (by simp [results]) (by simp) (.counted (by simp) (by simp))
  | stop => exact .finished (by simp [results]) (by simp) (.counted (by simp) (by simp))
  | setting delay confirmation =>
    cases confirmation with
    | none =>
      exact .finish (by simp [spawnRefresher, results]) (by simp) (.counted (by simp) (by simp))
    | some c =>
      refine (Yields.setStage (t := t.spawnRefresher delay) stage ?_ ?_ fun rs due => ?_).congr
        rfl rfl
      · simp [spawnRefresher, calls]
      · simp [spawnRefresher, results]
      · exact .confirm (now ▸ due)

/-- What a call that waits for a report makes of what it hears. -/
theorem setting_of_verdict? {key : String} {h : Heard LinkEvent}
    (verdict : verdict? key h = some true) :
    ∃ value, h = .event (.setting key value) := by
  unfold verdict? at verdict
  split at verdict
  · next id value =>
    split at verdict
    · next same => exact ⟨value, by rw [same]⟩
    · exact absurd verdict (by simp)
  · exact absurd verdict (by simp)
  · exact absurd verdict (by simp)

theorem confirmTurn_yields {key : String} {sub deadline : Nat}
    (stage : s.stage? i = some (.confirming key sub deadline)) :
    s.Yields i (.confirming key sub deadline) (s.confirmTurn i key sub deadline) := by
  unfold confirmTurn
  dsimp only
  split
  · split
    · next late => exact .finish rfl (by simp) (.unreported late)
    · exact .stay stage rfl rfl
  · split
    · split
      · next late => exact .finish rfl (by simp) (.unreported late)
      · exact .stay stage rfl rfl
    · next heard events received =>
      split
      · exact .stay stage rfl rfl
      · next verdict =>
        obtain ⟨value, rfl⟩ := setting_of_verdict? verdict
        have unheard : .setting key value ∈ s.link.events.unheard sub :=
          EventBus.mem_unheard_of_receive (congrArg Prod.fst received)
        refine (Yields.setStage (t := Session.unsubscribe (Session.spend
          { s with link.events := events }) sub) stage rfl rfl fun rs due => ?_).congr rfl rfl
        cases due with
        | lookedUp => exact .reported unheard
      · exact .finish rfl (by simp) (.cutOff ..)

/-- **The turn of a call on a closed link** gives it what is due. -/
theorem callTurn_yields (closed : s.link.connection = none) (stage : s.stage? i = some st)
    (still : (s.callTurn i).link.opened = s.link.opened) : s.Yields i st (s.callTurn i) := by
  have stay : s.Yields i st s := .stay stage rfl rfl
  unfold callTurn at still ⊢
  rw [stage] at still ⊢
  cases st with
  | begin c =>
    exact beginCall_yields closed stage still
  | turn c =>
    dsimp only
    split
    · exact control_yields closed c (fun f => .turn c f) rfl rfl
    · exact stay
  | sending x errand =>
    dsimp only
    split
    · exact stay
    · next d told =>
      split
      · next f fails => exact failErrand_yields told fails
      · next fine =>
        have sent : d = .sent := by cases d <;> simp_all [Delivery.error?]
        exact countErrand_yields stage (sent ▸ told)
  | counting x errand =>
    refine .use stage fun u alike => ?_
    have left := alike_leave (u.countSent x) .stats
    have controlled := countSent_controlled u x
    refine doErrand_yields stage ?_ ?_ ?_
    · exact left.2.2.2.1.trans ((congrArg Controlled.calls controlled).trans alike.2.2.2.1)
    · exact left.2.2.2.2.2.2.trans
        ((congrArg Controlled.results controlled).trans alike.2.2.2.2.2.2)
    · refine left.1.trans ((?_ : (u.countSent x).now = u.now).trans alike.1)
      unfold countSent
      split <;> rfl
  | awaitingAnswer x =>
    dsimp only
    split
    · exact stay
    · next a answered => exact .finish rfl (by simp) (.acked answered)
    · next lost => exact .finish rfl (by simp) (.unanswered lost)
  | awaitingIdle =>
    dsimp only
    split
    · exact .finish rfl (by simp) .idle
    · exact stay
  | confirming key sub deadline => exact confirmTurn_yields stage
  | lookingUp key =>
    refine .use stage fun u alike => ?_
    refine .finish ?_ (by simp) (.lookedUp key _)
    exact (alike_leave _ _).2.2.2.2.2.2.trans alike.2.2.2.2.2.2

/-- **A turn on a closed link** gives a call what is due. -/
theorem Shut.yields (shut : s.Shut) (still : (s.next e).link.opened = s.link.opened)
    (stage : s.stage? i = some st) : s.Yields i st (s.next e) := by
  by_cases own : e = .act (.call i)
  · subst own
    exact callTurn_yields shut.connection stage still
  · refine .goesOn st [] (stage?_next s own stage) ?_ fun rs => id
    rw [resultsOf_next s own, List.append_nil]

/-- A call that has returned gives nothing more. -/
theorem gone_after (gone : s.stage? i = none) (fs : List Event)
    (turns : ∀ f ∈ fs, f.isTurn = true) :
    (s.after fs).stage? i = none ∧ (s.after fs).resultsOf i = s.resultsOf i := by
  induction fs generalizing s with
  | nil => exact ⟨gone, rfl⟩
  | cons f fs ih =>
    have stays : (s.next f).stage? i = none ∧ (s.next f).resultsOf i = s.resultsOf i := by
      by_cases own : f = .act (.call i)
      · have same : s.next f = s := by
          subst own
          show s.callTurn i = s
          simp [callTurn, gone]
        rw [same]
        exact ⟨gone, rfl⟩
      · refine ⟨?_, resultsOf_next s own⟩
        by_contra there
        obtain ⟨st', stage'⟩ := Option.ne_none_iff_exists'.mp there
        rcases next_follows s f stage' with ⟨st, stage, -⟩ | ⟨c, rfl, -, -⟩
        · exact absurd (gone.symm.trans stage) (by simp)
        · exact absurd (turns _ List.mem_cons_self) (by simp [Event.isTurn])
    obtain ⟨later, same⟩ := ih stays.1 fun g member => turns g (List.mem_cons_of_mem _ member)
    exact ⟨later, same.trans stays.2⟩

/-- **A run of turns on a closed link** gives a call that returns what was due. -/
theorem Shut.due_after (shut : s.Shut) (fs : List Event) (turns : ∀ f ∈ fs, f.isTurn = true)
    (still : (s.after fs).link.opened = s.link.opened) (stage : s.stage? i = some st)
    (gone : (s.after fs).stage? i = none) :
    ∃ rs, s.Due st rs ∧ (s.after fs).resultsOf i = s.resultsOf i ++ rs := by
  induction fs generalizing s st with
  | nil => exact absurd (stage.symm.trans gone) (by simp)
  | cons f fs ih =>
    obtain ⟨first, rest⟩ := opened_split [f] fs still
    have turn : f.isTurn = true := turns f List.mem_cons_self
    have turns' : ∀ g ∈ fs, g.isTurn = true := fun g member =>
      turns g (List.mem_cons_of_mem _ member)
    cases shut.yields first stage with
    | @returns rs gone' results due =>
      exact ⟨rs, due, (gone_after gone' fs turns').2.trans results⟩
    | goesOn st' new stage' results due =>
      obtain ⟨rs, later, given⟩ := ih (shut.next first) turns' rest stage' gone
      have before : s.Due st' rs :=
        later.of_later (traffic_of_closed shut.connection first) (next_now turn)
          (shut.unheard first turn)
      refine ⟨new ++ rs, due rs before, ?_⟩
      rw [after_cons, given, results, List.append_assoc]

/-! ## When everybody waits -/

/-- **Whoever listens has yet to hear that the link was closed**, the last thing that happened. -/
structure Warned (s : Session) : Prop where
  keeps : s.link.events.capacity ≠ 0
  last : s.link.events.log.getLast? = some .disconnected
  behind : ∀ i sub, s.Listens i sub →
    ∃ p, s.link.events.position? sub = some p ∧ p < s.link.events.log.length

/-- Everybody who listens is warned when the link is closed. -/
theorem warned_of_closed (listening : s.Listening) (keeps : s.link.events.capacity ≠ 0)
    (isOpen : s.link.connection.isSome = true) (closed : (s.next e).link.connection = none) :
    (s.next e).Warned := by
  obtain ⟨a, rfl, closing⟩ := closing_of_closed isOpen closed
  obtain ⟨c, here⟩ := Option.isSome_iff_exists.mp isOpen
  have events : (s.next (.act a)).link.events = s.link.events.publish .disconnected := by
    rw [show (s.next (.act a)).link = _ from closing.link here]
  have more : (s.next (.act a)).link.events.log.length = s.link.events.log.length + 1 := by
    simp [events]
  refine ⟨by rw [events]; exact keeps, by simp [events], fun i sub listens => ?_⟩
  cases next_hears listening listens with
  | kept before position =>
    obtain ⟨p, there, bound⟩ := listening.there i sub before
    exact ⟨p, position.trans there, by omega⟩
  | begun _ _ _ position => exact ⟨_, position, by omega⟩
  | heard own stage =>
    obtain rfl := Event.act.inj own
    cases closing with
    | disconnect begins => exact absurd (begins.symm.trans stage) (by simp)

/-- **Nobody passes over the warning** and goes on listening. -/
theorem Warned.next (warned : s.Warned) (listening : s.Listening) (shut : s.Shut)
    (still : (s.next e).link.opened = s.link.opened) : (s.next e).Warned := by
  have log : (s.next e).link.events.log = s.link.events.log :=
    (shut.rests (shut.stays still)).events
  have keeps : (s.next e).link.events.capacity ≠ 0 := (next_log s e).2.1 ▸ warned.keeps
  refine ⟨keeps, log ▸ warned.last, fun i sub listens => ?_⟩
  rw [log]
  cases next_hears listening listens with
  | kept before position =>
    obtain ⟨p, there, behind⟩ := warned.behind i sub before
    exact ⟨p, position.trans there, behind⟩
  | begun _ isOpen => exact absurd isOpen (by simp [shut.connection])
  | heard _ _ heard other events =>
    rw [events]
    have received := s.link.events.receives sub
    generalize s.link.events.receive sub = r at received heard
    cases received with
    | silent => exact absurd heard (by simp)
    | lagged there behind =>
      have some : 0 < s.link.events.log.length - s.link.events.capacity := Nat.zero_lt_of_lt behind
      have keeps := warned.keeps
      refine ⟨_, EventBus.position?_seek_self there, ?_⟩
      show s.link.events.log.length - s.link.events.capacity < _
      omega
    | @event p d there _ found =>
      obtain rfl := Option.some.inj heard
      refine ⟨_, EventBus.position?_seek_self there, ?_⟩
      have inside := (List.getElem?_eq_some_iff.mp found).1
      by_contra beyond
      -- what the call has just heard is the warning
      have last := warned.last
      rw [List.getLast?_eq_getElem?, show s.link.events.log.length - 1 = p by omega, found] at last
      obtain rfl := Option.some.inj last
      exact absurd other (by simp [verdict?])

namespace Reachable

variable (reachable : s.Reachable)

include reachable

theorem listening : s.Listening := by
  obtain ⟨timeout, es, rfl⟩ := reachable
  exact listening_after timeout es

theorem capacity : s.link.events.capacity ≠ 0 := by
  obtain ⟨timeout, es, rfl⟩ := reachable
  rw [capacity_after timeout es]
  decide

theorem queued : s.Queued := by
  obtain ⟨timeout, es, rfl⟩ := reachable
  exact queued_after timeout es

theorem expecting : s.Expecting := by
  obtain ⟨timeout, es, rfl⟩ := reachable
  exact expecting_after timeout es

theorem shut (closed : s.link.connection = none) : s.Shut := by
  obtain ⟨timeout, es, rfl⟩ := reachable
  exact shut_of_closed timeout es closed

end Reachable

theorem Warned.after (warned : s.Warned) (reachable : s.Reachable)
    (closed : s.link.connection = none) (es : List Event)
    (still : (s.after es).link.opened = s.link.opened) : (s.after es).Warned := by
  induction es generalizing s with
  | nil => exact warned
  | cons e es ih =>
    obtain ⟨first, rest⟩ := opened_split [e] es still
    have shut := reachable.shut closed
    exact ih (warned.next reachable.listening shut first) (reachable.next e) (shut.stays first) rest

/-- **When everybody waits on a closed link**, no call is left but those that wait for the job
streamer. -/
theorem Warned.released (warned : s.Warned) (reachable : s.Reachable)
    (closed : s.link.connection = none) (waits : ∀ a, s.Waits a) (stage : s.stage? i = some st) :
    st = .awaitingIdle := by
  have sends {j x : Nat} {errand : Errand} (stage : s.stage? j = some (.sending x errand)) :
      False := by
    obtain ⟨c, here, -⟩ := stalled_of_sending waits reachable.filed reachable.carrying stage
    exact absurd (closed.symm.trans here) (by simp)
  have own := waits (.call i)
  simp only [Waits, stage] at own
  cases st with
  | awaitingIdle => rfl
  | begin | counting | lookingUp => exact own.elim
  | sending x errand => exact (sends stage).elim
  | turn c =>
    -- whoever is first in line has nothing to wait for
    have queued := reachable.queued
    have member : i ∈ s.streamer.turns := (queued.mem i).mpr ⟨_, stage, rfl⟩
    obtain ⟨j, rest, order⟩ := List.exists_cons_of_ne_nil (List.ne_nil_of_mem member)
    obtain ⟨st', stage', inTurn⟩ := (queued.mem j).mp (by rw [order]; exact List.mem_cons_self)
    have first := waits (.call j)
    simp only [Waits, stage'] at first
    cases st' with
    | turn c' => exact absurd (by rw [order]; rfl) first
    | sending x errand => exact (sends stage').elim
    | counting => exact first.elim
    | _ => exact absurd inTurn (by simp [CallStage.inTurn, CallStage.controls, CallStage.errand?])
  | awaitingAnswer x =>
    have sent := reachable.filed.sent x (reachable.expecting.sent i x stage)
    have slot := reachable.mem_slots (reachable.expecting.line i _ x stage rfl) sent own
    simp [Traffic.slots, Link.traffic, closed] at slot
  | confirming key sub deadline =>
    obtain ⟨p, there, behind⟩ := warned.behind i sub ⟨_, stage, rfl⟩
    have all := EventBus.unheard_of_silent own.2
    have keeps := warned.keeps
    simp only [EventBus.unheard, there, Option.map_some, Option.getD_some, List.drop_eq_nil_iff,
      EventBus.oldest] at all
    omega

end Session

end Cnc
