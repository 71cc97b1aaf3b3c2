import Cnc.Proofs.Rest

/-!
# What closing the link settles

A link is closed by a call, or when the device goes away or cannot be read
any more. Whatever is going on then – payloads in the queues, a write that is
held up, lines without an answer, calls that wait for their turn or for a
setting to be reported – is settled by the time when everybody waits
(`Session.released_of_ends`): every call has returned, and those that waited
for something from the connection were told that there is none
(`Session.Released`). The connection carries and receives nothing more,
whatever happens later (`Session.Closes`).
-/

namespace Cnc

namespace Traffic

variable {t u : Traffic} {d : Deed} {ds : List Deed} {n : Nat}

/-! ## Past connections -/

/-- **The connection `n` is past**: it was opened, and a connection that is open is a later one. -/
structure Past (t : Traffic) (n : Nat) : Prop where
  opened : n < t.opened
  later : ∀ c, t.connection = some c → n < c.number

theorem Move.past (h : Move t d u) (past : t.Past n) : u.Past n where
  opened := Nat.lt_of_lt_of_le past.opened h.opened_le
  later c' there := by
    rcases h.connected there with ⟨c, here, same, -⟩ | ⟨-, fresh, -⟩
    · exact same ▸ past.later c here
    · rw [fresh]
      exact past.opened

/-- What is on the wire stays what it is. -/
theorem Move.filter_wire (h : Move t d u) (filed : t.Filed) (line : Bool) :
    t.wire.filter (fun x => (u.origin? x).map (·.1) = some n ∧ u.isLine x = line)
      = t.carried n line :=
  List.filter_congr fun x onWire => by
    have known := filed.known x onWire
    rw [origin?_of_kept h.origins_kept known, isLine_of_kept h.origins_kept known]

/-- Closing a connection sends nothing. -/
theorem Move.carried_of_close (h : Move t .close u) (filed : t.Filed) (line : Bool) :
    u.carried n line = t.carried n line := by
  rcases h.wire with wire | ⟨x, -, -, sends | fails⟩
  · rw [carried, wire, h.filter_wire filed]
  · exact absurd sends (by simp)
  · exact absurd fails (by simp)

/-- Closing a connection loses payloads, and does nothing else to them. -/
theorem Move.delivered_of_close (h : Move t .close u) {x : Nat} {f : Delivery}
    (told : u.delivery? x = some f) : t.delivery? x = some f ∨ f = .lost := by
  rcases h.delivered told with before | ⟨-, ⟨-, sends⟩ | ⟨_, -, fails | gives, -⟩ | ⟨lost, -⟩⟩
  · exact .inl before
  · exact absurd sends (by simp)
  · exact absurd fails (by simp)
  · exact absurd gives (by simp)
  · exact .inr lost

/-- **A past connection carries nothing more.** -/
theorem Move.carried_of_past (h : Move t d u) (filed : t.Filed) (past : t.Past n) (line : Bool) :
    u.carried n line = t.carried n line := by
  rcases h.wire with wire | ⟨x, unsent, wire, -⟩
  · rw [carried, wire, h.filter_wire filed]
  · have waits : x ∈ t.waiting := mem_waiting_of_unsent (by simp [unsent])
    obtain ⟨c, here, -⟩ : ∃ c, t.connection = some c ∧ c.writer.unsent? = some x := by
      simpa [Traffic.unsent, Option.bind_eq_some_iff] using congrArg List.head? unsent
    obtain ⟨known, -, own⟩ := filed.origin?_of_waiting here waits
    have other : ¬ (u.origin? x).map (·.1) = some n := by
      rw [origin?_of_kept h.origins_kept known, own]
      exact fun same => Nat.ne_of_gt (past.later c here) (Option.some.inj same)
    rw [carried, wire, List.filter_append, h.filter_wire filed]
    simp [other]

theorem Moves.carried_of_past (h : Moves t ds u) (filed : t.Filed) (past : t.Past n) :
    u.Past n ∧ ∀ line, u.carried n line = t.carried n line := by
  induction h with
  | nil => exact ⟨past, fun _ => rfl⟩
  | cons first _ ih =>
    obtain ⟨there, same⟩ := ih (first.filed filed) (first.past past)
    exact ⟨there, fun line => (same line).trans (first.carried_of_past filed past line)⟩

/-- What ends the input is read last. -/
theorem Move.ending_kept (h : Move t d u) {c c' : Connection} (here : t.connection = some c)
    (there : u.connection = some c') {x : Incoming} (member : x ∈ c.inbox) (ends : x.ends = true) :
    x ∈ c'.inbox := by
  cases h with
  | close => exact absurd there (by simp)
  | «open» port closed => exact absurd (closed.symm.trans here) (by simp)
  | post _ _ here' =>
    obtain rfl := Option.some.inj (here'.symm.trans here)
    obtain rfl := Option.some.inj there
    simpa using member
  | @device b d here' =>
    obtain rfl := Option.some.inj (here'.symm.trans here)
    obtain rfl := Option.some.inj there
    cases d <;> simp [Connection.driven, member]
  | read here' done first =>
    obtain rfl := Option.some.inj (here'.symm.trans here)
    obtain rfl := Option.some.inj there
    rw [first] at member
    rcases List.mem_cons.mp member with rfl | later
    · exact absurd ends (by simp [Incoming.ends])
    · simp only [Connection.readPiece]
      split
      · exact later
      · exact List.mem_cons_of_mem _ later
  | timeout here' done first =>
    obtain rfl := Option.some.inj (here'.symm.trans here)
    obtain rfl := Option.some.inj there
    rw [first] at member
    rcases List.mem_cons.mp member with rfl | later
    · exact absurd ends (by simp [Incoming.ends])
    · exact later
  | takeRealtime here' | takeLine here' | place here' | send here' | refuseLine here'
  | refuseRealtime here' | spoilLine here' | spoilRealtime here' | giveUp here' | settle here'
  | chore here' | poll _ here' | clear here' =>
    obtain rfl := Option.some.inj (here'.symm.trans here)
    obtain rfl := Option.some.inj there
    exact member

theorem Moves.ending_kept (h : Moves t ds u) {c c' : Connection} (here : t.connection = some c)
    (there : u.connection = some c') (opened : u.opened = t.opened) {x : Incoming}
    (member : x ∈ c.inbox) (ends : x.ends = true) : x ∈ c'.inbox := by
  induction h generalizing c with
  | nil => exact Option.some.inj (here.symm.trans there) ▸ member
  | cons first rest ih =>
    have before := first.opened_le
    have after := rest.opened_le
    obtain ⟨b, between, -⟩ := rest.connected there (by omega)
    exact ih between there (by omega) (first.ending_kept here between member ends)

end Traffic

/-- Whether a call waits for the job streamer to be idle, or is about to. -/
def CallStage.idles : CallStage → Bool
  | .begin .wait | .awaitingIdle => true
  | _ => false

theorem CallStage.Follows.idles {st st' : CallStage} (follows : st.Follows st')
    (idles : st'.idles = true) : st.idles = true := by
  cases follows with
  | stay => exact idles
  | idle => rfl
  | _ => exact absurd idles (by simp [CallStage.idles])

namespace Session

open Traffic

variable {s t : Session} {e f : Event} {c : Connection} {i : Nat} {st : CallStage}

/-- What a past connection has carried is all that it carries. -/
theorem carried_after {n : Nat} (filed : s.link.traffic.Filed) (past : s.link.traffic.Past n)
    (es : List Event) : (s.after es).link.traffic.Past n ∧
      ∀ line, (s.after es).link.traffic.carried n line = s.link.traffic.carried n line := by
  induction es generalizing s with
  | nil => exact ⟨past, fun _ => rfl⟩
  | cons e es ih =>
    obtain ⟨ds, moves, -⟩ := next_trades s e
    obtain ⟨there, same⟩ := moves.carried_of_past filed past
    obtain ⟨later, all⟩ := ih (moves.onward filed).1 there
    exact ⟨later, fun line => (all line).trans (same line)⟩

/-! ## What closes the link -/

/-- **What closes the link** from outside: a call, or the device that goes away or cannot be read
any more. -/
inductive Ends (s : Session) : Event → Prop
  | close {i : Nat} (new : s.stage? i = none) : Ends s (.call i .disconnect)
  | hangUp (i : Nat) : Ends s (.device i .hangUp)
  | failRead (i : Nat) {f : DeviceFault} (fatal : Incoming.ends (.fault f) = true) :
    Ends s (.device i (.failRead f))

theorem Ends.outside (ends : s.Ends e) : e.isTurn = false := by
  cases ends <;> rfl

/-- Somebody is about to close the link then. -/
theorem Ends.disturbs (ends : s.Ends e) (here : s.link.connection = some c)
    (opened : s.link.opened ≠ 0) : s.Lasts [e] ∧ ¬ (s.next e).Undisturbed := by
  -- the device puts the end into the inbox
  have drives (i : Nat) (d : DeviceAction) {x : Incoming} (ends : x.ends = true)
      (inbox : (c.driven d).inbox = c.inbox ++ [x]) :
      s.Lasts [.device i d] ∧ ¬ (s.next (.device i d)).Undisturbed := by
    have acts : s.next (.device i d) = s.deviceAct d := if_neg opened
    have link : (s.next (.device i d)).link = (s.withConnection (c.driven d)).link := by
      rw [acts, (alike_deviceAct here d).2.1]
    refine ⟨⟨?_, ?_⟩, fun undisturbed => ?_⟩
    · rw [after_cons, after_nil, link]
      rfl
    · rw [after_cons, after_nil, link]
      rfl
    · have lasts := undisturbed.inbox (c.driven d) (by rw [link]; rfl) x (by simp [inbox])
      exact absurd ends (by simp [lasts])
  cases ends with
  | @close i new =>
    have begins : s.next (.call i .disconnect) = s.begin i (.call .disconnect) := by
      simp [Session.next, new]
    have alike : (s.begin i (.call .disconnect)).Alike
        { s with calls := s.calls ++ [(i, .begin .disconnect)] } := alike_wake _ _
    refine ⟨⟨?_, ?_⟩, fun undisturbed => undisturbed.calls i ?_⟩
    · rw [after_cons, after_nil, begins, alike.2.1]
      simp [here]
    · rw [after_cons, after_nil, begins, alike.2.1]
    · rw [begins, alike.stage?, stage?_added new, if_pos rfl]
  | hangUp i => exact drives i .hangUp rfl rfl
  | failRead i fatal => exact drives i (.failRead _) fatal rfl

/-- **Whoever is about to close the link** stays so as long as the link is open. -/
theorem Undisturbed.of_next (undisturbed : (s.next e).Undisturbed)
    (isOpen : (s.next e).link.connection.isSome = true)
    (still : (s.next e).link.opened = s.link.opened) : s.Undisturbed where
  inbox c here x member := by
    obtain ⟨c', there⟩ := Option.isSome_iff_exists.mp isOpen
    obtain ⟨ds, moves, -⟩ := next_trades s e
    by_contra ends
    have kept := moves.ending_kept here there still member (by simpa using ends)
    exact ends (undisturbed.inbox c' there x kept)
  calls i stage := by
    by_cases own : e = .act (.call i)
    · subst own
      have closed : (s.next (.act (.call i))).link.connection = none := by
        rw [show (s.next (.act (.call i))).link = _ from (Closing.disconnect stage).act.1]
        exact endConnection_connection s
      exact absurd isOpen (by simp [closed])
    · exact undisturbed.calls i (stage?_next s own stage)

theorem Lasts.undisturbed {es : List Event} (lasts : s.Lasts es)
    (undisturbed : (s.after es).Undisturbed) : s.Undisturbed := by
  induction es using List.reverseRecOn with
  | nil => exact undisturbed
  | append_singleton es e ih =>
    obtain ⟨before, still⟩ := lasts.init
    have isOpen := lasts.isOpen
    rw [after_append, after_cons, after_nil] at undisturbed isOpen
    exact ih before (undisturbed.of_next isOpen still)

/-- While the one that closes the link has not had its turn, nothing happens. -/
theorem Poised.alike {a : Actor} (poised : s.Poised a) {fs : List Event} (lasts : s.Lasts fs)
    (turns : ∀ f ∈ fs, f.isTurn = true) : (s.after fs).Alike s := by
  induction fs using List.reverseRecOn with
  | nil => exact .refl s
  | append_singleton fs f ih =>
    have alike := ih lasts.init.1 fun g member => turns g (List.mem_append_left _ member)
    have turn := turns f (by simp)
    have isOpen := lasts.isOpen
    rw [after_append, after_cons, after_nil] at isOpen ⊢
    cases f with
    | schedule => exact alike
    | act b =>
      by_cases own : b = a
      · subst own
        have closed : ((s.after fs).next (.act b)).link.connection = none := by
          rw [show ((s.after fs).next (.act b)).link = _ from
            (poised.closing.of_alike alike).act.1]
          exact endConnection_connection _
        exact absurd isOpen (by simp [closed])
      · exact ((poised.others b own).of_alike alike).act.trans alike
    | _ => exact absurd turn (by simp [Event.isTurn])

/-- A link that is closed at the end of a run is closed in some step of it. -/
theorem exists_closing (isOpen : s.link.connection.isSome = true) {fs : List Event}
    (closed : (s.after fs).link.connection = none) :
    ∃ gs f hs, fs = gs ++ f :: hs ∧ (s.after gs).link.connection.isSome = true ∧
      ((s.after gs).next f).link.connection = none := by
  induction fs generalizing s with
  | nil => exact absurd isOpen (by simp [show s.link.connection = none from closed])
  | cons f fs ih =>
    by_cases lasts : (s.next f).link.connection.isSome = true
    · obtain ⟨gs, g, hs, rfl, before, after⟩ := ih lasts closed
      exact ⟨f :: gs, g, hs, rfl, before, after⟩
    · exact ⟨[], f, fs, rfl, isOpen, by simpa using lasts⟩

/-! ## What is over -/

/-- **The connection `c` of `s` is over in `u`**, for good. It carries nothing more, also when the
device takes bytes again, and it receives nothing more, also when the device sends some. Closing
the link once more gives a result and does nothing else. Unless a port is being opened, the session
comes to rest. -/
structure Closes (s u : Session) (c : Connection) : Prop where
  here : s.link.connection = some c
  closed : u.link.connection = none
  told : u.outlook = { s.outlook with
    status := .disconnected, events := s.outlook.events ++ [.disconnected] }
  carried : ∀ gs line,
    (u.after gs).link.traffic.carried c.number line = s.link.traffic.carried c.number line
  later : ∀ gs c', (u.after gs).link.connection = some c' → c.number < c'.number
  rests : ∀ gs, (u.after gs).link.opened = u.link.opened →
    (u.after gs).link.connection = none ∧ u.outlook.Rests (u.after gs).outlook
  again : ∀ gs i, (u.after gs).link.connection = none →
    (u.after gs).stage? i = some (.begin .disconnect) →
    (u.after gs).next (.act (.call i)) = (u.after gs).finish i .ok
  settles : ∀ gs, (u.after gs).Closed → (u.after gs).ComesToRest

/-- A call that disconnects ends the connection, if there is one, and returns. -/
theorem next_disconnect (stage : s.stage? i = some (.begin .disconnect)) :
    s.next (.act (.call i)) = s.endConnection.finish i .ok := by
  show s.callTurn i = _
  unfold callTurn
  rw [stage]
  rfl

/-- Closing a closed link only gives a result. -/
theorem disconnect_of_closed (closed : s.link.connection = none)
    (stage : s.stage? i = some (.begin .disconnect)) :
    s.next (.act (.call i)) = s.finish i .ok := by
  rw [next_disconnect stage]
  simp [endConnection, closed]

/-- **A connection that is closed is over.** -/
theorem closes_of_closed (reachable : s.Reachable) (here : s.link.connection = some c)
    (closed : (s.next f).link.connection = none) : s.Closes (s.next f) c := by
  obtain ⟨a, rfl, closing⟩ := closing_of_closed (by simp [here]) closed
  have filed := reachable.filed
  have link : (s.next (.act a)).link = _ := closing.link here
  have move : Move s.link.traffic .close (s.next (.act a)).link.traffic := closing.move here
  have there : (s.next (.act a)).Reachable := reachable.next _
  have past : (s.next (.act a)).link.traffic.Past c.number := by
    refine ⟨?_, fun c' open_ => ?_⟩
    · exact Nat.lt_of_lt_of_le (filed.newest c here) move.opened_le
    · exact absurd (closed.symm.trans open_) (by simp)
  refine ⟨here, closed, ?told, fun gs line => ?_, fun gs => ?_, fun gs still => ?_, fun gs i => ?_,
    fun gs shut => shut.comes_to_rest (there.after gs)⟩
  case told =>
    have now : (s.next (.act a)).now = s.now := next_now rfl
    simp [outlook, link, now]
  · obtain ⟨-, same⟩ := carried_after there.filed past gs
    exact (same line).trans (move.carried_of_close filed line)
  · exact (carried_after there.filed past gs).1.later
  · obtain ⟨shut, rests, -⟩ := (there.shut closed).after gs still
    exact ⟨shut.connection, rests⟩
  · exact disconnect_of_closed

/-! ## What becomes of the calls -/

/-- A call that waits for the job streamer after some turns did so before, or was about to. -/
theorem idles_of_after {fs : List Event} (turns : ∀ f ∈ fs, f.isTurn = true)
    (stage : (s.after fs).stage? i = some st) (idles : st.idles = true) :
    ∃ st₀, s.stage? i = some st₀ ∧ st₀.idles = true := by
  induction fs using List.reverseRecOn generalizing st with
  | nil => exact ⟨st, stage, idles⟩
  | append_singleton fs f ih =>
    rw [after_append, after_cons, after_nil] at stage
    rcases next_follows (s.after fs) f stage with ⟨st', before, follows⟩ | ⟨c, rfl, -, -⟩
    · exact ih (fun g member => turns g (List.mem_append_left _ member)) before
        (follows.idles idles)
    · exact absurd (turns _ (List.mem_append_right _ (List.mem_singleton_self _)))
        (by simp [Event.isTurn])

/-- **The call waits for a setting to be reported**, until a time, or is about to: its line was
sent. -/
inductive Confirms (s : Session) : CallStage → String → Nat → Nat → Prop
  | confirming (key : String) (sub deadline : Nat) :
    Confirms s (.confirming key sub deadline) key sub deadline
  | counting (x delay : Nat) (c : Confirmation) :
    Confirms s (.counting x (.setting delay (some c))) c.key c.subscription (s.now + c.timeout)
  | sending {x : Nat} (delay : Nat) (c : Confirmation) (sent : s.link.delivery? x = some .sent) :
    Confirms s (.sending x (.setting delay (some c))) c.key c.subscription (s.now + c.timeout)

/-- **What closing the connection `c` of `s` has settled** by the time of `t`. -/
structure Released (s t : Session) (c : Connection) : Prop where
  /-- Every call has returned, but those that wait for the job streamer. -/
  returned : ∀ i st, s.stage? i = some st → st.idles = false →
    t.stage? i = none ∧ ∃ rs, rs ≠ [] ∧ t.resultsOf i = s.resultsOf i ++ rs
  /-- A payload that was not sent is lost, -/
  unsent : ∀ i x errand, s.stage? i = some (.sending x errand) → s.link.delivery? x = none →
    t.resultsOf i = s.resultsOf i ++ [errand.failure .notConnected]
  /-- unless the device has refused it before. -/
  refused : ∀ i x errand d f, s.stage? i = some (.sending x errand) →
    s.link.delivery? x = some d → d.error? = some f →
    t.resultsOf i = s.resultsOf i ++ [errand.failure f]
  /-- A setting that was not reported in time is not confirmed any more. -/
  unconfirmed : ∀ i st key sub deadline, s.stage? i = some st → s.Confirms st key sub deadline →
    s.now < deadline → (∀ value, .setting key value ∉ s.link.events.unheard sub) →
    t.resultsOf i = s.resultsOf i ++ [.linkError .notConnected]
  /-- A line without an answer gets none. -/
  unanswered : ∀ i st x, s.stage? i = some st → st.expects? = some x →
    s.link.answer? x = none → (∀ w, s.link.delivery? x ≠ some (.failed w)) →
    ∃ rs, t.resultsOf i = s.resultsOf i ++ rs ++ [.linkError .notConnected]
  /-- A call that waits its turn is refused. -/
  inTurn : ∀ i control, s.stage? i = some (.turn control) →
    ∃ f, t.resultsOf i = s.resultsOf i ++ [.jobError f]
  lost : ∀ x ∈ c.slots, t.link.answer? x = some .lost
  slots : t.link.traffic.slots = []
  /-- No line that went over the wire waits for its answer, -/
  answered : ∀ x ∈ t.link.wire, t.link.traffic.isLine x = true → t.link.answer? x ≠ none
  /-- and no payload waits to be sent. -/
  delivered : ∀ x < t.link.posts.length, t.link.delivery? x ≠ none

namespace Due

variable {rs : List Result} {x : Nat}

/-- A call that waits for an answer that will not come is told so last. -/
theorem unanswered_last (due : s.Due st rs) (expects : st.expects? = some x)
    (noAck : ∀ a, s.link.answer? x ≠ some (.ack a))
    (notRefused : ∀ w, s.link.delivery? x ≠ some (.failed w)) :
    ∃ first, rs = first ++ [.linkError .notConnected] := by
  induction due with
  | @unsent y errand d f told fails =>
    cases errand <;> simp [CallStage.expects?] at expects
    subst expects
    cases d with
    | sent => exact absurd fails (by simp [Delivery.error?])
    | failed w => exact absurd told (notRefused w)
    | lost =>
      obtain rfl := Option.some.inj fails
      exact ⟨[], rfl⟩
  | @sent y errand rs told rest ih =>
    refine ih ?_
    cases errand <;> simp_all [CallStage.expects?]
  | @counted y errand plain => cases errand <;> simp_all [CallStage.expects?]
  | answer rest ih =>
    obtain ⟨first, rfl⟩ := ih expects
    exact ⟨.sent :: first, rfl⟩
  | acked answered =>
    obtain rfl := Option.some.inj expects
    exact absurd answered (noAck _)
  | unanswered => exact ⟨[], rfl⟩
  | _ => exact absurd expects (by simp [CallStage.expects?])

/-- A call that waits for a report that will not come is told so. -/
theorem unconfirmed {key : String} {sub deadline : Nat} (due : s.Due st rs)
    (confirms : s.Confirms st key sub deadline) (early : s.now < deadline)
    (unreported : ∀ value, .setting key value ∉ s.link.events.unheard sub) :
    rs = [.linkError .notConnected] := by
  have cutOff {rs : List Result} (due : s.Due (.confirming key sub deadline) rs) :
      rs = [.linkError .notConnected] := by
    cases due with
    | reported heard => exact absurd heard (unreported _)
    | unreported late => exact absurd early (Nat.not_lt.mpr late)
    | cutOff => rfl
  have counted {rs : List Result} {x delay : Nat} {c : Confirmation}
      (due : s.Due (.counting x (.setting delay (some c))) rs)
      (own : c.key = key ∧ c.subscription = sub ∧ s.now + c.timeout = deadline) :
      rs = [.linkError .notConnected] := by
    obtain ⟨rfl, rfl, rfl⟩ := own
    cases due with
    | counted _ silent => exact absurd rfl (silent _ _)
    | confirm rest => exact cutOff rest
  cases confirms with
  | confirming => exact cutOff due
  | counting x delay c => exact counted due ⟨rfl, rfl, rfl⟩
  | sending delay c sent =>
    cases due with
    | unsent told fails =>
      obtain rfl := Option.some.inj (sent.symm.trans told)
      exact absurd fails (by simp [Delivery.error?])
    | sent _ rest => exact counted rest ⟨rfl, rfl, rfl⟩

end Due

/-- That the link was closed is all that is heard of it. -/
theorem setting_of_unheard_publish {b : EventBus LinkEvent} {sub : Nat} {key value : String}
    (unheard : .setting key value ∈ (b.publish .disconnected).unheard sub) :
    .setting key value ∈ b.unheard sub := by
  unfold EventBus.unheard at unheard ⊢
  rw [show (b.publish .disconnected).position? sub = b.position? sub from rfl] at unheard
  cases there : b.position? sub with
  | none => simp [there] at unheard
  | some p =>
    have further : max p b.oldest ≤ max p (b.publish .disconnected).oldest := by
      simp only [EventBus.oldest, EventBus.publish_log, List.length_append]
      simp only [EventBus.publish]
      omega
    simp only [there, Option.map_some, Option.getD_some, EventBus.publish_log, List.drop_append,
      List.mem_append] at unheard ⊢
    rcases unheard with before | last
    · exact (List.drop_sublist_drop_left b.log further).subset before
    · exact absurd (List.mem_of_mem_drop last) (by simp)

section Closing

variable (reachable : s.Reachable) (here : s.link.connection = some c)
  (closed : (s.next f).link.connection = none)

include reachable here closed

/-- **A payload that was not sent is lost** when the link is closed. -/
theorem lost_of_closed {x : Nat} (known : x < s.link.posts.length)
    (undelivered : s.link.delivery? x = none) : (s.next f).link.delivery? x = some .lost := by
  obtain ⟨a, rfl, closing⟩ := closing_of_closed (by simp [here]) closed
  have move : Move s.link.traffic .close (s.next (.act a)).link.traffic := closing.move here
  cases told : (s.next (.act a)).link.delivery? x with
  | none =>
    have known' := Nat.lt_of_lt_of_le known (length_le_of_kept move.origins_kept)
    have waits := (reachable.next (.act a)).filed.waiting_of_undelivered known' told
    simp [Traffic.waiting, Link.traffic, closed] at waits
  | some d =>
    rcases move.delivered_of_close told with before | rfl
    · exact absurd (undelivered.symm.trans before) (by simp)
    · rfl

variable {hs : List Event} (turns : ∀ g ∈ hs, g.isTurn = true)
  (still : ((s.next f).after hs).link.opened = (s.next f).link.opened)
  (waits : ∀ a, ((s.next f).after hs).Waits a)

include turns still waits

/-- Every call but those that wait for the job streamer has returned when everybody waits. -/
theorem gone_of_closed (stage : s.stage? i = some st) (idles : st.idles = false) :
    ((s.next f).after hs).stage? i = none := by
  have isOpen : s.link.connection.isSome = true := by simp [here]
  obtain ⟨a, rfl, -⟩ := closing_of_closed isOpen closed
  have after := reachable.next (.act a)
  have warned := warned_of_closed reachable.listening reachable.capacity isOpen closed
  by_contra there
  obtain ⟨st', stage'⟩ := Option.ne_none_iff_exists'.mp there
  have shut := ((after.shut closed).after hs still).1
  obtain rfl := (warned.after after closed hs still).released (after.after hs) shut.connection
    waits stage'
  have turns' : ∀ g ∈ Event.act a :: hs, g.isTurn = true := by
    rintro g (_ | ⟨_, member⟩)
    · rfl
    · exact turns g member
  obtain ⟨st₀, before, idles'⟩ := idles_of_after (s := s) turns' stage' rfl
  obtain rfl := Option.some.inj (before.symm.trans stage)
  exact absurd idles' (by simp [idles])

/-- **A call has got what was due** when everybody waits. -/
theorem due_of_closed (stage : s.stage? i = some st) (idles : st.idles = false)
    (apart : f ≠ .act (.call i)) :
    ∃ rs, (s.next f).Due st rs ∧ ((s.next f).after hs).resultsOf i = s.resultsOf i ++ rs := by
  have gone := gone_of_closed reachable here closed turns still waits stage idles
  have shut := (reachable.next f).shut closed
  obtain ⟨rs, due, given⟩ := shut.due_after hs turns still (stage?_next s apart stage) gone
  exact ⟨rs, due, by rw [given, resultsOf_next s apart]⟩

/-- **What is settled when everybody waits** and the link was closed before. -/
theorem released_of_closed : s.Released ((s.next f).after hs) c := by
  have gone {i : Nat} {st : CallStage} (stage : s.stage? i = some st) (idles : st.idles = false) :=
    gone_of_closed reachable here closed turns still waits stage idles
  have due {i : Nat} {st : CallStage} (stage : s.stage? i = some st) (idles : st.idles = false) :=
    due_of_closed reachable here closed turns still waits stage idles
  have lost {x : Nat} := lost_of_closed reachable here closed (x := x)
  have shut := (reachable.next f).shut closed
  obtain ⟨shut', -, traffic⟩ := shut.after hs still
  have last : ((s.next f).after hs).Reachable := (reachable.next f).after hs
  have empty : ((s.next f).after hs).link.traffic.slots = [] := by
    simp [Traffic.slots, Link.traffic, shut'.connection]
  obtain ⟨a, rfl, closing⟩ := closing_of_closed (by simp [here]) closed
  have link : (s.next (.act a)).link = _ := closing.link here
  have move : Move s.link.traffic .close (s.next (.act a)).link.traffic := closing.move here
  have now : (s.next (.act a)).now = s.now := next_now rfl
  have told {x : Nat} {d : Delivery} (before : s.link.delivery? x = some d) :
      (s.next (.act a)).link.delivery? x = some d := move.told reachable.filed before
  have apart {i : Nat} {st : CallStage} (stage : s.stage? i = some st)
      (other : st ≠ .begin .disconnect) : Event.act a ≠ .act (.call i) := by
    intro own
    obtain rfl := Event.act.inj own
    cases closing with
    | disconnect begins => exact other (Option.some.inj (stage.symm.trans begins))
  constructor
  case returned =>
    intro i st stage idles
    refine ⟨gone stage idles, ?_⟩
    by_cases own : Event.act a = .act (.call i)
    · -- it is the call that has closed the link
      obtain rfl := Event.act.inj own
      cases closing with
      | disconnect begins =>
        have turn := next_disconnect begins
        have returned : (s.next (.act (.call i))).stage? i = none := by simp [turn]
        have given : (s.next (.act (.call i))).resultsOf i = s.resultsOf i ++ [.ok] := by
          rw [turn, resultsOf_finish s.endConnection i (r := .ok) (by simp)]
          rw [resultsOf_congr (congrArg Controlled.results (endConnection_controlled s))]
        exact ⟨[.ok], by simp, (gone_after returned hs turns).2.trans given⟩
    · obtain ⟨rs, due, given⟩ := due stage idles own
      exact ⟨rs, due.ne_nil, given⟩
  case unsent =>
    intro i x errand stage undelivered
    obtain ⟨n, p, origin, -⟩ := reachable.carrying i x errand stage
    obtain ⟨q, found, -⟩ := Option.map_eq_some_iff.mp origin
    have fate := lost (List.getElem?_eq_some_iff.mp found).1 undelivered
    obtain ⟨rs, due, given⟩ := due stage rfl (apart stage (by simp))
    rw [given]
    cases due with
    | unsent told fails =>
      obtain rfl := Option.some.inj (fate.symm.trans told)
      obtain rfl := Option.some.inj fails
      rfl
    | sent told => exact absurd (fate.symm.trans told) (by simp)
  case refused =>
    intro i x errand d f stage before fails
    have fate := told before
    obtain ⟨rs, due, given⟩ := due stage rfl (apart stage (by simp))
    rw [given]
    cases due with
    | unsent told fails' =>
      obtain rfl := Option.some.inj (fate.symm.trans told)
      obtain rfl := Option.some.inj (fails.symm.trans fails')
      rfl
    | sent told =>
      obtain rfl := Option.some.inj (fate.symm.trans told)
      exact absurd fails (by simp [Delivery.error?])
  case unconfirmed =>
    intro i st key sub deadline stage confirms early unreported
    have plain : st.idles = false ∧ st ≠ .begin .disconnect := by
      cases confirms <;> simp [CallStage.idles]
    obtain ⟨rs, due, given⟩ := due stage plain.1 (apart stage plain.2)
    have confirms' : (s.next (.act a)).Confirms st key sub deadline := by
      cases confirms with
      | confirming => exact .confirming key sub deadline
      | counting x delay c => exact now ▸ .counting x delay c
      | sending delay c sent => exact now ▸ .sending delay c (told sent)
    rw [given, due.unconfirmed confirms' (now ▸ early) fun value heard => ?_]
    rw [link] at heard
    exact unreported value (setting_of_unheard_publish heard)
  case unanswered =>
    intro i st x stage expects unanswered notRefused
    have plain : st.idles = false ∧ st ≠ .begin .disconnect := by
      cases st <;> simp_all [CallStage.idles, CallStage.expects?]
    obtain ⟨rs, due, given⟩ := due stage plain.1 (apart stage plain.2)
    have noAck (ack : Ack) : (s.next (.act a)).link.answer? x ≠ some (.ack ack) := by
      rw [show (s.next (.act a)).link.answer? x = _ from move.answer? x]
      split
      · simp [Deed.answer]
      · simp [show s.link.traffic.answer? x = none from unanswered]
    have notRefused' (w : WriteFault) : (s.next (.act a)).link.delivery? x ≠ some (.failed w) := by
      intro refused
      rcases move.delivered_of_close refused with before | lost
      · exact notRefused w before
      · exact absurd lost (by simp)
    obtain ⟨first, rfl⟩ := due.unanswered_last expects noAck notRefused'
    exact ⟨first, by rw [given, List.append_assoc]⟩
  case inTurn =>
    intro i control stage
    obtain ⟨rs, due, given⟩ := due stage rfl (apart stage (by simp))
    cases due with
    | turn _ f => exact ⟨f, given⟩
  case lost =>
    intro x slot
    have slot : x ∈ s.link.traffic.slots := by simpa [Traffic.slots, Link.traffic, here] using slot
    have known := reachable.filed.placed_known (reachable.slotted.placed_of_slots slot)
    rw [show ((s.next (.act a)).after hs).link.answer? x = (s.next (.act a)).link.traffic.answer? x
      from congrArg (fun v => Traffic.answer? v x) traffic, move.answer? x, if_pos ⟨slot, known⟩]
    rfl
  case slots => exact empty
  case answered =>
    intro x onWire line unanswered
    have slot := last.mem_slots line onWire unanswered
    exact absurd slot (by simp [empty])
  case delivered =>
    intro x known undelivered
    have waits := last.filed.waiting_of_undelivered known undelivered
    simp [Traffic.waiting, Link.traffic, shut'.connection] at waits

end Closing

/-- **Closing settles everything.** Whatever goes on while a connection is open, and whatever closes
it, by the time when everybody waits again the link is closed, every call but those that wait for
the job streamer has returned, those that waited for something from the connection were told that
there is none, and the connection is over – unless a port is opened in the meantime. If everybody
waited before, what was going on at that time is what is settled. -/
theorem released_of_ends (timeout : Option Nat) (es fs : List Event) {e : Event}
    (isOpen : ((initial timeout).after es).link.connection.isSome = true)
    (ends : ((initial timeout).after es).Ends e) (turns : ∀ f ∈ fs, f.isTurn = true)
    (still : ((((initial timeout).after es).next e).after fs).link.opened
      = ((initial timeout).after es).link.opened)
    (quiescent : ((((initial timeout).after es).next e).after fs).Quiescent) :
    let s₀ := (initial timeout).after es
    let t := (s₀.next e).after fs
    (∀ i st, s₀.stage? i = some st → st.idles = false → t.stage? i = none) ∧
      ∃ gs f hs c, fs = gs ++ f :: hs ∧ s₀.link.connection.map (·.number) = some c.number ∧
        let s := (s₀.next e).after gs
        (s₀.Quiescent → s.Alike (s₀.next e)) ∧ s.Closes (s.next f) c ∧ s.Released t c := by
  intro s₀ t
  have before := Reachable.of_run timeout es
  obtain ⟨c₀, here₀⟩ := Option.isSome_iff_exists.mp isOpen
  have number := before.filed.newest c₀ here₀
  obtain ⟨lasts, disturbed⟩ := ends.disturbs here₀ (Nat.ne_of_gt (Nat.zero_lt_of_lt number))
  have there : t.Reachable := (before.next e).after fs
  have waits := there.quiescent_iff.mp quiescent
  have still' : t.link.opened = (s₀.next e).link.opened := still.trans lasts.opened.symm
  -- as long as the link is open, somebody is about to close it
  have closed : t.link.connection = none := by
    by_contra isOpen
    have lasting : (s₀.next e).Lasts fs := ⟨Option.isSome_iff_ne_none.mpr isOpen, still'⟩
    exact disturbed (lasting.undisturbed (undisturbed_of_waits waits))
  obtain ⟨gs, f, hs, rfl, isOpen', closes⟩ := exists_closing lasts.isOpen closed
  obtain ⟨c, here⟩ := Option.isSome_iff_exists.mp isOpen'
  obtain ⟨first, rest⟩ := opened_split gs (f :: hs) still'
  obtain ⟨-, last⟩ := opened_split [f] hs rest
  have run : t = (((s₀.next e).after gs).next f).after hs := by
    show (s₀.next e).after (gs ++ f :: hs) = _
    rw [after_append, after_cons]
  have turns' : ∀ g ∈ gs, g.isTurn = true := fun g member =>
    turns g (List.mem_append_left _ member)
  have turns'' : ∀ g ∈ f :: hs, g.isTurn = true := fun g member =>
    turns g (List.mem_append_right _ member)
  have reachable : ((s₀.next e).after gs).Reachable := (before.next e).after gs
  have released : ((s₀.next e).after gs).Released t c := by
    rw [run] at waits ⊢
    exact released_of_closed reachable here closes (fun g member =>
      turns'' g (List.mem_cons_of_mem _ member)) last waits
  refine ⟨fun i st stage idles => ?_, gs, f, hs, c, rfl, ?_, fun quiet => ?_,
    closes_of_closed reachable here closes, released⟩
  · have outside := ends.outside
    have stage' : (s₀.next e).stage? i = some st := stage?_next s₀ (by
      rintro rfl
      exact absurd outside (by simp [Event.isTurn])) stage
    cases now : ((s₀.next e).after gs).stage? i with
    | none => exact run ▸ (gone_after now (f :: hs) turns'').1
    | some st' =>
      refine (released.returned i st' now ?_).1
      by_contra idle
      obtain ⟨st₀, own, idles'⟩ := idles_of_after turns' now (by simpa using idle)
      obtain rfl := Option.some.inj (own.symm.trans stage')
      exact absurd idles' (by simp [idles])
  · have all : s₀.Lasts (e :: gs) := ⟨isOpen', first.trans lasts.opened⟩
    obtain ⟨b, start, same⟩ := all.start here
    show s₀.link.connection.map (·.number) = _
    rw [start, same]
    rfl
  · rcases outside_of_waits (before.quiescent_iff.mp quiet) ends.outside with
      undisturbed | ⟨a, poised⟩
    · exact absurd undisturbed disturbed
    · exact poised.alike ⟨isOpen', first⟩ turns'

/-- A setting waits to be reported and a line for its answer. Then the device takes no more bytes,
and the request of a refresher, the line of a job, the command that pauses it and a last line wait
to be sent, and a call that stops the job for its turn. -/
def stalled : List Event :=
  Event.swift 0 (.connect "/dev/mock0" none) ++
    Event.swift 1 (.confirmSetting 110 "500" 0 1000) ++
    List.replicate 3 (.act .writer) ++ List.replicate 2 (.act (.call 1)) ++
    Event.swift 2 (.writeAcked "G1 X10") ++
    List.replicate 3 (.act .writer) ++ List.replicate 2 (.act (.call 2)) ++
    .device 3 .stall :: .act (.refresher 0) :: List.replicate 2 (.act .writer) ++
    Event.swift 4 (.control (.start "G1 X20")) ++ .act (.job 0) ::
    Event.swift 5 (.control .pause) ++ Event.swift 6 (.control .stop) ++
    Event.swift 7 (.write "G1 X30")

/-- The turns in which everybody finds out that the device went away. -/
def noticed : List Event :=
  [.reader, .job 0, .refresher 0, .call 1, .call 2, .call 5, .call 6, .call 7].map .act

/-- When the device goes away all of them are released. -/
theorem released_of_ends_stalled :
    let s₀ := (initial none).after stalled
    let t := (s₀.next (.device 8 .hangUp)).after noticed
    s₀.calls = [(1, .confirming "110" 1 1000), (2, .awaitingAnswer 1), (5, .sending 4 .pause),
        (6, .turn .stop), (7, .sending 5 .report)] ∧
      t.results.drop 3 = [(1, .linkError .notConnected), (2, .linkError .notConnected),
        (5, .jobError (.link .notConnected)), (6, .jobError .notRunning),
        (7, .linkError .notConnected)] ∧
      (∀ i st, s₀.stage? i = some st → st.idles = false → t.stage? i = none) ∧
      ∃ gs f hs c, noticed = gs ++ f :: hs ∧ s₀.link.connection.map (·.number) = some c.number ∧
        let s := (s₀.next (.device 8 .hangUp)).after gs
        (s₀.Quiescent → s.Alike (s₀.next (.device 8 .hangUp))) ∧ s.Closes (s.next f) c ∧
          s.Released t c := by
  intro s₀ t
  have locked : t.Locked := by
    have reached : t = (initial none).after (stalled ++ .device 8 .hangUp :: noticed) := by
      rw [after_append, after_cons]
    rw [reached]
    exact locked_after none _
  have rest : (t.calls, t.streamer.task, t.refreshers, t.linkIdle) = ([], none, [], true) := by
    decide +kernel
  have quiescent : t.Quiescent := by
    clear_value t
    simp only [Prod.mk.injEq] at rest
    exact quiescent_of_done locked rest.1 (waits_of_no_task rest.2.1) rest.2.2.1 rest.2.2.2
  refine ⟨by decide +kernel, by decide +kernel, ?_⟩
  exact released_of_ends none stalled noticed (by decide +kernel) (.hangUp 8)
    (by simp [noticed, Event.isTurn]) (by decide +kernel) quiescent

end Session

end Cnc
