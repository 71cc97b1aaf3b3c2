import Cnc.Proofs.Awaited
import Cnc.Proofs.Results

/-!
# Calls that only send

A call that writes a line or sends a realtime command begins, hands its
payload over, waits to know what became of it, counts it if it was sent, and
returns. Its first result says what became of the payload and nothing else
(`Session.Transfers.next`); on a closed link it is refused at once.
-/

namespace Cnc

/-- The payload and the errand of a call that only sends. -/
def Call.transfer? : Call → Option (Payload × Errand)
  | .write line => some (.ofLine line, .report)
  | .writeAcked line => some (.ofLine line, .reportAnswer)
  | .realtime command => some (.realtime command, .realtime command)
  | _ => none

/-- **What a call that only sends gives** when it is known what became of its payload. -/
def Call.outcome (c : Call) (f : Delivery) : Result :=
  match f.error?, c with
  | some e, _ => .linkError e
  | none, .writeAcked _ => .sent
  | none, _ => .ok

/-- **The call `i` has handed over one payload** since there were `first` posts, to the connection
`n` and with the ticket `x`. -/
structure Traffic.HandsOver (t : Traffic) (first i : Nat) (p : Payload) (n x : Nat) : Prop where
  new : first ≤ x
  origin : t.origin? x = some (n, .call i, p)
  only : ∀ y, first ≤ y → t.sender? y = some (.call i) → y = x

theorem Traffic.HandsOver.known {t : Traffic} {first i n x : Nat} {p : Payload}
    (hands : t.HandsOver first i p n x) : x < t.posts.length := by
  obtain ⟨q, found, -⟩ := Option.map_eq_some_iff.mp hands.origin
  exact (List.getElem?_eq_some_iff.mp found).1

/-- A post that keeps its origin was handed over by the same call. -/
theorem Traffic.HandsOver.of_origins {t u : Traffic} {first i n x : Nat} {p : Payload}
    (hands : t.HandsOver first i p n x) (same : u.origins = t.origins) :
    u.HandsOver first i p n x where
  new := hands.new
  origin := by
    rw [← getElem?_origins, same, getElem?_origins]
    exact hands.origin
  only y new sender := by
    refine hands.only y new ?_
    rwa [sender?_eq, ← getElem?_origins, ← same, getElem?_origins, ← sender?_eq]

namespace Session

open Traffic

variable {s t : Session} {first i n x : Nat} {c : Call} {p : Payload} {errand : Errand} {e : Event}

/-- **How far a call that only sends has come** before it returns. -/
inductive Transfers (t : Session) (first i : Nat) (c : Call) (p : Payload) (errand : Errand) : Prop
  | begin (stage : t.stage? i = some (.begin c))
      (nothing : ∀ y, first ≤ y → t.link.traffic.sender? y ≠ some (.call i))
  | sending {n x : Nat} (stage : t.stage? i = some (.sending x errand))
      (hands : t.link.traffic.HandsOver first i p n x)
  | counting {n x : Nat} (stage : t.stage? i = some (.counting x errand))
      (hands : t.link.traffic.HandsOver first i p n x)
      (sent : t.link.traffic.delivery? x = some .sent)

/-! ## What others do -/

/-- A call that has begun stays where it is while others act. -/
theorem stage?_next (s : Session) {st : CallStage} (other : e ≠ .act (.call i))
    (stage : s.stage? i = some st) : (s.next e).stage? i = some st := by
  have steps := next_steps s e
  generalize s.next e = t at steps
  cases steps with
  | @call j _ handles =>
    have apart : i ≠ j := fun same => other (by rw [same])
    exact (handles.2 i apart).trans stage
  | stream _ _ calls => exact (stage?_congr calls i).trans stage
  | gone => exact stage
  | @begin j _ _ new _ others =>
    have apart : i ≠ j := by
      rintro rfl
      exact absurd (new.symm.trans stage) (by simp)
    exact (others i apart).trans stage
  | aside _ calls => exact (stage?_congr calls i).trans stage

/-- What one has handed over was handed over in turns of one's own. -/
theorem sender?_next (s : Session) (filed : s.link.traffic.Filed) {a : Actor} (other : e ≠ .act a)
    {y : Nat} (sender : (s.next e).link.traffic.sender? y = some a) :
    s.link.traffic.sender? y = some a := by
  obtain ⟨ds, moves, does⟩ := next_trades s e
  by_cases known : y < s.link.traffic.posts.length
  · rwa [← sender?_of_kept (moves.onward filed).2.origins known]
  · obtain ⟨q, posted⟩ := moves.post_of_new (Nat.not_lt.mp known) sender
    exact absurd (does _ posted).of_post other

theorem handsOver_next (hands : s.link.traffic.HandsOver first i p n x)
    (filed : s.link.traffic.Filed) (other : e ≠ .act (.call i)) :
    (s.next e).link.traffic.HandsOver first i p n x where
  new := hands.new
  origin := by
    rw [origin?_of_kept (onward_next filed e).2.origins hands.known]
    exact hands.origin
  only y new sender := hands.only y new (sender?_next s filed other sender)

theorem Transfers.aside (transfers : s.Transfers first i c p errand) (filed : s.link.traffic.Filed)
    (other : e ≠ .act (.call i)) : (s.next e).Transfers first i c p errand := by
  cases transfers with
  | begin stage nothing =>
    exact .begin (stage?_next s other stage)
      fun y new sender => nothing y new (sender?_next s filed other sender)
  | sending stage hands =>
    exact .sending (stage?_next s other stage) (handsOver_next hands filed other)
  | counting stage hands sent =>
    exact .counting (stage?_next s other stage) (handsOver_next hands filed other)
      ((onward_next filed e).2.told _ _ sent)

/-! ## What the call does -/

/-- **What a call that only sends returns**: that the link is closed, or what became of the payload
that it has handed over. -/
inductive Returns (t : Session) (first i : Nat) (c : Call) (p : Payload) : Result → Prop
  | refused (closed : t.link.connection = none)
      (nothing : ∀ y, first ≤ y → t.link.traffic.sender? y ≠ some (.call i)) :
    Returns t first i c p (.linkError .notConnected)
  | delivered {n x : Nat} {f : Delivery} (hands : t.link.traffic.HandsOver first i p n x)
      (told : t.link.traffic.delivery? x = some f) : Returns t first i c p (c.outcome f)

/-- In its turn, a call goes on or returns. -/
def Proceeds (s : Session) (first i : Nat) (c : Call) (p : Payload) (errand : Errand)
    (t : Session) : Prop :=
  (t.Transfers first i c p errand ∧ t.resultsOf i = s.resultsOf i)
    ∨ ∃ r, t.resultsOf i = s.resultsOf i ++ [r] ∧ s.Returns first i c p r

/-- The call has handed its payload over. -/
theorem handsOver_of_post {c : Connection} (here : s.link.connection = some c)
    (posted : s.post? (.call i) p = some (x, t)) (count : first ≤ s.link.posts.length)
    (nothing : ∀ y, first ≤ y → s.link.traffic.sender? y ≠ some (.call i)) :
    t.link.traffic.HandsOver first i p c.number x := by
  obtain ⟨u, made, alike⟩ := post?_of_open here (.call i) p
  obtain ⟨rfl, rfl⟩ := Prod.mk.inj (Option.some.inj (made.symm.trans posted))
  have posts : u.link.traffic.posts
      = s.link.traffic.posts ++ [⟨c.number, .call i, p, none, none⟩] :=
    congrArg Link.posts alike.2.1
  refine ⟨count, ?_, fun y new sender => ?_⟩
  · have last : s.link.posts.length = s.link.traffic.posts.length := rfl
    simp [Traffic.origin?, posts, last, Post.origin]
  · have inside := known_of_sender? sender
    rw [posts, List.length_append, List.length_singleton] at inside
    have old : ¬ y < s.link.traffic.posts.length := by
      intro known
      refine nothing y new ?_
      rwa [Traffic.sender?, posts, List.getElem?_append_left known] at sender
    have : s.link.posts.length = s.link.traffic.posts.length := rfl
    omega

theorem send_proceeds (count : first ≤ s.link.posts.length) (stage : s.stage? i = some (.begin c))
    (nothing : ∀ y, first ≤ y → s.link.traffic.sender? y ≠ some (.call i)) :
    s.Proceeds first i c p errand (s.send i p errand) := by
  unfold send
  split
  · next refused =>
    have closed : s.link.connection = none := by simpa [post?] using refused
    refine .inr ⟨_, ?_, .refused closed nothing⟩
    exact resultsOf_finish _ _ (by simp)
  · next x t posted =>
    have controlled := post?_controlled posted
    refine .inl ⟨?_, resultsOf_congr (congrArg Controlled.results controlled)⟩
    obtain ⟨c', here, -⟩ := Option.map_eq_some_iff.mp posted
    have hands := handsOver_of_post here posted count nothing
    refine .sending ?_ hands
    rw [stage?_setStage, if_pos rfl, stage?_congr (congrArg Controlled.calls controlled), stage]
    rfl

/-- The call stays where it is. -/
theorem Transfers.stay (transfers : s.Transfers first i c p errand) (alike : t.Alike s) :
    s.Proceeds first i c p errand t := by
  refine .inl ⟨?_, resultsOf_congr alike.2.2.2.2.2.2⟩
  have traffic : t.link.traffic = s.link.traffic := congrArg Link.traffic alike.2.1
  cases transfers with
  | begin stage nothing => exact .begin ((alike.stage? i).trans stage) (traffic ▸ nothing)
  | sending stage hands => exact .sending ((alike.stage? i).trans stage) (traffic ▸ hands)
  | counting stage hands sent =>
    exact .counting ((alike.stage? i).trans stage) (traffic ▸ hands) (traffic ▸ sent)

/-- Giving up all answers keeps what was handed over, and what became of it. -/
theorem dropAnswers_keeps (filed : s.link.traffic.Filed)
    (hands : s.link.traffic.HandsOver first i p n x)
    (sent : s.link.traffic.delivery? x = some .sent) :
    s.dropAnswers.link.traffic.HandsOver first i p n x ∧
      s.dropAnswers.link.traffic.delivery? x = some .sent := by
  cases here : s.link.connection with
  | none =>
    have same : s.dropAnswers = s := by simp [dropAnswers, here]
    exact same.symm ▸ ⟨hands, sent⟩
  | some c =>
    have move : Move s.link.traffic .clear s.dropAnswers.link.traffic := by
      have clear : Move s.link.traffic .clear _ := .clear here
      simpa [alike_dropAnswers here, Link.traffic] using clear
    rcases move.origins with ⟨same, -⟩ | ⟨_, _, _, other, -⟩
    · exact ⟨hands.of_origins same, move.told filed sent⟩
    · exact absurd other (by simp)

/-- The payload of a call was sent, and is to be counted. -/
theorem countErrand_proceeds (filed : s.link.traffic.Filed)
    (stage : s.stage? i = some (.sending x errand))
    (hands : s.link.traffic.HandsOver first i p n x)
    (sent : s.link.traffic.delivery? x = some .sent) :
    s.Proceeds first i c p errand (s.countErrand i x errand) := by
  have counting (u : Session) (before : u.stage? i = some (.sending x errand))
      (hands : u.link.traffic.HandsOver first i p n x)
      (sent : u.link.traffic.delivery? x = some .sent) (results : u.results = s.results) :
      s.Proceeds first i c p errand ((u.setStage i (.counting x errand)).again (.call i)) := by
    refine .inl ⟨.counting ?_ hands sent, resultsOf_congr results⟩
    show (u.setStage i (.counting x errand)).stage? i = _
    rw [stage?_setStage, if_pos rfl, before]
    rfl
  unfold countErrand
  dsimp only
  split
  · rcases use_cases s (.call i) .slots dropAnswers
      (fun s => (s.setStage i (.counting x errand)).again (.call i)) with alike | ⟨u, alike, same⟩
    · exact Transfers.stay (.sending stage hands) alike
    · have traffic : u.link.traffic = s.link.traffic := congrArg Link.traffic alike.2.1
      obtain ⟨hands', sent'⟩ :=
        dropAnswers_keeps (traffic ▸ filed) (traffic ▸ hands) (traffic ▸ sent)
      have left := alike_leave u.dropAnswers .slots
      have controlled := dropAnswers_controlled u
      rw [same]
      refine counting _ ?_ ((congrArg Link.traffic left.2.1).symm ▸ hands')
        ((congrArg Link.traffic left.2.1).symm ▸ sent') ?_
      · rw [left.stage?, stage?_congr (congrArg Controlled.calls controlled), alike.stage?, stage]
      · exact left.2.2.2.2.2.2.trans
          ((congrArg Controlled.results controlled).trans alike.2.2.2.2.2.2)
  · exact counting s.spend stage hands sent rfl

/-- A call whose payload was sent and counted returns. -/
theorem doErrand_resultsOf_self (transfer : c.transfer? = some (p, errand)) (s : Session)
    (x : Nat) : (s.doErrand i x errand).resultsOf i = s.resultsOf i ++ [c.outcome .sent] := by
  cases c with
  | write | realtime =>
    obtain ⟨-, rfl⟩ := Prod.mk.inj (Option.some.inj transfer)
    exact resultsOf_finish s i (by simp)
  | writeAcked =>
    obtain ⟨-, rfl⟩ := Prod.mk.inj (Option.some.inj transfer)
    exact (resultsOf_congr rfl).trans (resultsOf_give s i (r := .sent) (by simp))
  | _ => exact absurd transfer (by simp [Call.transfer?])

/-- A call whose payload was not sent returns. -/
theorem failErrand_resultsOf_self (transfer : c.transfer? = some (p, errand)) (s : Session)
    {f : Delivery} {err : LinkError} (fails : f.error? = some err) :
    (s.failErrand i errand err).resultsOf i = s.resultsOf i ++ [c.outcome f] := by
  have outcome : c.outcome f = .linkError err := by simp [Call.outcome, fails]
  have finished : s.failErrand i errand err = s.finish i (.linkError err) := by
    cases c with
    | write | writeAcked | realtime =>
      obtain ⟨-, rfl⟩ := Prod.mk.inj (Option.some.inj transfer)
      rfl
    | _ => exact absurd transfer (by simp [Call.transfer?])
  rw [finished, outcome, resultsOf_finish s i (by simp)]

/-- **The turn of a call that only sends.** -/
theorem callTurn_proceeds (filed : s.link.traffic.Filed)
    (transfers : s.Transfers first i c p errand) (count : first ≤ s.link.posts.length)
    (transfer : c.transfer? = some (p, errand)) :
    s.Proceeds first i c p errand (s.callTurn i) := by
  cases transfers with
  | begin stage nothing =>
    have turn : s.callTurn i = s.send i p errand := by
      unfold callTurn
      rw [stage]
      cases c <;> simp_all [Call.transfer?, beginCall]
    exact turn ▸ send_proceeds count stage nothing
  | @sending n x stage hands =>
    cases told : s.link.delivery? x with
    | none =>
      have turn : s.callTurn i = s := by simp [callTurn, stage, told]
      exact turn.symm ▸ Transfers.stay (.sending stage hands) (.refl s)
    | some f =>
      cases fails : f.error? with
      | some err =>
        have turn : s.callTurn i = s.failErrand i errand err := by
          simp [callTurn, stage, told, fails]
        exact .inr ⟨_, turn ▸ failErrand_resultsOf_self transfer s fails, .delivered hands told⟩
      | none =>
        obtain rfl : f = .sent := by cases f <;> simp_all [Delivery.error?]
        have turn : s.callTurn i = s.countErrand i x errand := by
          simp [callTurn, stage, told, fails]
        exact turn ▸ countErrand_proceeds filed stage hands told
  | @counting n x stage hands sent =>
    have turn : s.callTurn i
        = s.use (.call i) .stats (·.countSent x) (·.doErrand i x errand) := by
      simp [callTurn, stage]
    rw [turn]
    rcases use_cases s (.call i) .stats (·.countSent x) (·.doErrand i x errand)
      with alike | ⟨u, alike, same⟩
    · exact Transfers.stay (.counting stage hands sent) alike
    · refine .inr ⟨c.outcome .sent, ?_, .delivered hands sent⟩
      rw [same, doErrand_resultsOf_self transfer]
      congr 1
      refine resultsOf_congr ((alike_leave _ _).2.2.2.2.2.2.trans ?_)
      exact (countSent_results u x).trans alike.2.2.2.2.2.2

/-- **Whatever happens next, a call that only sends goes on or returns.** -/
theorem Transfers.next (transfers : s.Transfers first i c p errand) (filed : s.link.traffic.Filed)
    (count : first ≤ s.link.posts.length) (transfer : c.transfer? = some (p, errand)) (e : Event) :
    s.Proceeds first i c p errand (s.next e) := by
  by_cases own : e = .act (.call i)
  · exact own ▸ callTurn_proceeds filed transfers count transfer
  · exact .inl ⟨transfers.aside filed own, resultsOf_next s own⟩

/-- A call that only sends begins. -/
theorem transfers_begin (new : s.stage? i = none) :
    (s.next (.call i c)).Transfers s.link.posts.length i c p errand := by
  have opened : s.next (.call i c) = s.begin i (.call c) := by simp [Session.next, new]
  have alike : (s.begin i (.call c)).Alike { s with calls := s.calls ++ [(i, .begin c)] } :=
    alike_wake _ _
  rw [opened]
  refine .begin ?_ fun y late sender => ?_
  · rw [alike.stage?, stage?_added new, if_pos rfl]
  · have known := known_of_sender? sender
    rw [alike.2.1] at known
    exact absurd known (Nat.not_lt.mpr late)

/-- **A call that only sends is on its way as long as it has given no result.** -/
theorem transfers_after (filed : s.link.traffic.Filed) (new : s.stage? i = none)
    (transfer : c.transfer? = some (p, errand)) (fs : List Event)
    (pending : (s.after (.call i c :: fs)).resultsOf i = s.resultsOf i) :
    (s.after (.call i c :: fs)).Transfers s.link.posts.length i c p errand := by
  induction fs using List.reverseRecOn with
  | nil => exact transfers_begin new
  | append_singleton fs e ih =>
    have last : s.after (.call i c :: (fs ++ [e])) = (s.after (.call i c :: fs)).next e := by simp
    rw [last] at pending ⊢
    obtain ⟨there, onward⟩ := onward_after filed (.call i c :: fs)
    have before : s.resultsOf i <+: (s.after (.call i c :: fs)).resultsOf i :=
      resultsOf_kept_after s _ i
    have later := resultsOf_kept (s.after (.call i c :: fs)) e i
    have same : (s.after (.call i c :: fs)).resultsOf i = s.resultsOf i :=
      ((pending ▸ later).eq_of_length_le before.length_le)
    have count : s.link.posts.length ≤ (s.after (.call i c :: fs)).link.posts.length :=
      length_le_of_kept onward.origins
    rcases (ih same).next there count transfer e with ⟨goes, -⟩ | ⟨r, returned, -⟩
    · exact goes
    · rw [returned, same] at pending
      exact absurd pending (by simp)

/-- **A call that has not returned is held up by the device**, when everybody waits. -/
theorem Transfers.stalled (transfers : s.Transfers first i c p errand) (waits : ∀ a, s.Waits a)
    (filed : s.link.traffic.Filed) :
    ∃ n x c', s.link.traffic.HandsOver first i p n x ∧ s.link.traffic.delivery? x = none ∧
      s.link.connection = some c' ∧ c'.number = n ∧ c'.stalled = true := by
  have own := waits (.call i)
  cases transfers with
  | begin stage => simp only [Waits, stage] at own
  | counting stage => simp only [Waits, stage] at own
  | @sending n x stage hands =>
    simp only [Waits, stage] at own
    obtain ⟨c', here, stalled⟩ := stalled_of_undelivered (waits .writer) filed hands.known own
    have waiting : x ∈ c'.waiting := by
      simpa [Traffic.waiting, Link.traffic, here] using filed.waiting_of_undelivered hands.known own
    have origin := filed.own c' here x waiting
    rw [hands.origin] at origin
    exact ⟨n, x, c', hands, own, here, (Option.some.inj origin).symm, stalled⟩

end Session

end Cnc
