import Mathlib.Data.List.Perm.Subperm
import Cnc.Proofs.Custody
import Cnc.Proofs.Reachable

/-!
# The statistics of what was sent

The writer brings a payload to the wire, and the one who handed it over counts
it when he has learned so. If he is gone by then, it is not counted. A line of
a job is *abandoned* when the job is stopped before the task has counted it: it
goes over the wire all the same. The query of a poller is abandoned if the
connection ends between the query and the poller's turn. Nothing else is ever
abandoned (`Session.cause_of_abandons`).

When everybody waits, what was counted is what went over the wire and was not
abandoned. So the statistics tell how much was sent if and only if nothing of it
was abandoned (`Session.counts_eq_iff`).
-/

namespace Cnc

/-- How much the payloads with some tickets are. -/
def Link.tally (l : Link) (tickets : List Nat) : Tally := .of (tickets.filterMap l.payload?)

namespace Tally

theorem of_perm {ps qs : List Payload} (perm : ps.Perm qs) : of ps = of qs := by
  have bytes := (perm.flatMap_right Payload.bytes).length_eq
  simp only [of, bytes, perm.countP_eq]

/-- Every payload is a line or a realtime command. -/
theorem lines_add_realtime (ps : List Payload) : (of ps).lines + (of ps).realtime = ps.length := by
  simpa [of] using (List.length_eq_countP_add_countP Payload.isLine (l := ps)).symm

end Tally

namespace Traffic

variable {t u : Traffic} {d : Deed} {ds : List Deed}

/-- Nothing goes over the wire twice. -/
theorem Filed.nodup_wire (filed : t.Filed) : t.wire.Nodup := by
  have part (line : Bool) : (t.wire.filter (t.isLine · == line)).Nodup := by
    have course := (filed.ascending line).imp Nat.ne_of_lt
    rw [Traffic.course, List.filter_append, List.append_assoc] at course
    exact (List.pairwise_append.mp course).1
  refine List.nodup_iff_count_le_one.mpr fun x => ?_
  rw [← List.count_filter (p := (t.isLine · == t.isLine x)) (by simp)]
  exact List.nodup_iff_count_le_one.mp (part _) x

/-- As long as no flush fails, what goes over the wire is known to be sent. -/
theorem Move.sent (h : Move t d u) (filed : t.Filed) (steady : t.Steady)
    (sent : ∀ x ∈ t.wire, t.delivery? x = some .sent) :
    ∀ x ∈ u.wire, u.delivery? x = some .sent := by
  intro x member
  rcases h.wire with same | ⟨y, unsent, one, rfl | rfl⟩
  · exact h.told filed (sent x (same ▸ member))
  · rw [one] at member
    rcases List.mem_append.mp member with before | last
    · exact h.told filed (sent x before)
    · obtain rfl := List.mem_singleton.mp last
      have known := filed.unsent_known (List.mem_append_right t.wire (unsent ▸ last))
      cases h with
      | send => simp [Traffic.delivery?, getElem?_mark, known]
  · cases h with
    | spoilLine here _ _ fault | spoilRealtime here _ _ fault =>
      exact absurd (steady _ here).1 (Nat.ne_of_gt fault)

theorem Moves.sent (h : Moves t ds u) (whole : ∀ d ∈ ds, ∀ n, d = .device (.failFlushes n) → n = 0)
    (filed : t.Filed) (steady : t.Steady) (sent : ∀ x ∈ t.wire, t.delivery? x = some .sent) :
    u.Steady ∧ ∀ x ∈ u.wire, u.delivery? x = some .sent := by
  induction h with
  | nil => exact ⟨steady, sent⟩
  | cons first _ ih =>
    exact ih (fun d member => whole d (List.mem_cons_of_mem _ member)) (first.filed filed)
      (first.steady steady (whole _ List.mem_cons_self)) (first.sent filed steady sent)

end Traffic

namespace Session

open Traffic

variable {s t : Session} {e : Event} {es : List Event} {a : Actor} {x : Nat} {timeout : Option Nat}

/-! ## What is abandoned -/

/-- **The payloads that an event abandons**: those that somebody had in hand who is ended by the
event, and not by his own turn. -/
def abandons (s : Session) (e : Event) : List Nat :=
  (List.range s.link.posts.length).filter fun x => (s.link.traffic.sender? x).any fun a =>
    e ≠ .act a ∧ s.inHand? a = some x ∧ (s.next e).inHand? a = none

/-- **The payloads that a run abandons.** -/
def abandoned (s : Session) (es : List Event) : List Nat :=
  (s.history es).flatMap fun p => p.1.abandons p.2

theorem abandoned_concat (s : Session) (es : List Event) (e : Event) :
    s.abandoned (es ++ [e]) = s.abandoned es ++ (s.after es).abandons e := by
  simp [abandoned, history_concat]

theorem mem_abandons : x ∈ s.abandons e ↔ ∃ a, s.link.traffic.sender? x = some a ∧
    e ≠ .act a ∧ s.inHand? a = some x ∧ (s.next e).inHand? a = none := by
  unfold abandons
  rw [List.mem_filter, List.mem_range]
  constructor
  · rintro ⟨-, any⟩
    obtain ⟨a, sender, gone⟩ := (Option.any_eq_true _ _).mp any
    exact ⟨a, sender, by simpa using gone⟩
  · rintro ⟨a, sender, gone⟩
    exact ⟨known_of_sender? sender, (Option.any_eq_true _ _).mpr ⟨a, sender, by simpa using gone⟩⟩

/-- **Who is ended before he has counted** is a streaming task whose job is stopped, or a poller
whose connection ends. -/
theorem cause_of_abandons (governed : Governed s.stage? s.streamer.core)
    (lost : x ∈ s.abandons e) :
    (∃ n i turns, s.link.traffic.sender? x = some (.job n) ∧ e = .act (.call i) ∧
        s.HasTurn i .stop turns) ∨
      ∃ n, s.link.traffic.sender? x = some (.poller n) ∧ (s.next e).link.connection = none := by
  obtain ⟨a, sender, other, held, gone⟩ := mem_abandons.mp lost
  have changed : (s.next e).inHand? a ≠ s.inHand? a := by simp [held, gone]
  cases a with
  | call i => exact absurd (inHand?_call_next other) changed
  | job n =>
    rcases task?_next other with same | ⟨i, turns, own, turn, -⟩ | ⟨idle, -⟩
    · exact absurd (congrArg (Option.bind · _) same) changed
    · exact .inl ⟨n, i, turns, sender, own, turn⟩
    · obtain ⟨k, task, -⟩ := inHand?_job held
      exact absurd ((governed.idle idle).symm.trans task) (by simp)
  | poller n => exact .inr ⟨n, sender, (inHand?_poller_next other).resolve_left changed⟩
  | refresher n => exact absurd (inHand?_refresher_next other) changed
  | writer | reader => exact absurd held (by simp [inHand?])

/-- Jobs and pollers are the only ones whose payloads are abandoned. -/
theorem sender_of_abandoned {es : List Event} (lost : x ∈ (initial timeout).abandoned es) :
    ∃ n, ((initial timeout).after es).link.traffic.sender? x = some (.job n) ∨
      ((initial timeout).after es).link.traffic.sender? x = some (.poller n) := by
  induction es using List.reverseRecOn with
  | nil => exact absurd lost (by simp [abandoned])
  | append_singleton es e ih =>
    have kept {a : Actor} (sender : ((initial timeout).after es).link.traffic.sender? x = some a) :
        ((initial timeout).after (es ++ [e])).link.traffic.sender? x = some a := by
      rw [after_append, after_cons, after_nil,
        sender?_of_kept (onward_next (filed_after timeout es) e).2.origins
          (known_of_sender? sender), sender]
    rw [abandoned_concat] at lost
    rcases List.mem_append.mp lost with before | now
    · exact (ih before).imp fun n => Or.imp kept kept
    · rcases cause_of_abandons (governed_after timeout es) now with
        ⟨n, -, -, sender, -⟩ | ⟨n, sender, -⟩
      · exact ⟨n, .inl (kept sender)⟩
      · exact ⟨n, .inr (kept sender)⟩

/-! ## The books of a run -/

/-- **The books are in order**: what was `counted` was sent, and each known payload that is not
known to be unsent is counted, abandoned, or in the hand of its sender. -/
structure Booked (s : Session) (lost counted : List Nat) : Prop where
  sender : ∀ a x, s.inHand? a = some x → s.link.traffic.sender? x = some a
  counts : s.counts = s.link.tally counted
  once : counted.Nodup
  sent : ∀ x ∈ counted, s.link.delivery? x = some .sent
  done : ∀ x ∈ counted, ∀ a, s.inHand? a ≠ some x
  apart : ∀ x ∈ counted, x ∉ lost
  known : ∀ x ∈ lost, x < s.link.posts.length
  gone : ∀ x ∈ lost, ∀ a, s.inHand? a ≠ some x
  complete : ∀ x < s.link.posts.length, (∀ d, s.link.delivery? x = some d → d = .sent) →
    x ∈ counted ∨ x ∈ lost ∨ ∃ a, s.inHand? a = some x

theorem booked_initial (timeout : Option Nat) : (initial timeout).Booked [] [] := by
  have empty (a : Actor) : (initial timeout).inHand? a = none := by
    cases a <;> rfl
  constructor
  case sender | gone => simp [empty]
  all_goals simp [initial, Link.initial, Link.tally, counts, Tally.of]

/-- A payload that was sent was posted. -/
theorem known_of_delivery? {d : Delivery} (told : s.link.delivery? x = some d) :
    x < s.link.posts.length := by
  obtain ⟨p, found, -⟩ := Option.bind_eq_some_iff.mp told
  exact (List.getElem?_eq_some_iff.mp found).1

/-- What is in hand after an event was in hand before, or has just been handed over. -/
theorem inHand?_before (expecting : s.Expecting) (held : (s.next e).inHand? a = some x) :
    s.inHand? a = some x ∨ (x = s.link.posts.length ∧
      (s.next e).link.traffic.sender? x = some a) := by
  by_cases own : e = .act a
  · subst own
    show s.inHand? a = some x ∨
      (x = s.link.posts.length ∧ (s.act a).link.traffic.sender? x = some a)
    have held : (s.act a).inHand? a = some x := held
    cases act_books expecting a with
    | keeps counts same => exact .inl (same.symm.trans held)
    | takes counts free fresh sender =>
      obtain rfl := Option.some.inj (fresh.symm.trans held)
      exact .inr ⟨rfl, sender⟩
    | drops _ empty | counts _ _ _ empty => exact absurd (empty.symm.trans held) (by simp)
  · rcases inHand?_next (s := s) own with same | none
    · exact .inl (same.symm.trans held)
    · exact absurd (none.symm.trans held) (by simp)

/-- What was counted keeps its payloads. -/
theorem tally_next (filed : s.link.traffic.Filed) {xs : List Nat}
    (known : ∀ x ∈ xs, x < s.link.posts.length) : (s.next e).link.tally xs = s.link.tally xs := by
  have onward := (onward_next filed e).2
  unfold Link.tally
  rw [List.filterMap_congr fun x member => ?_]
  exact payload?_of_kept onward.origins (known x member)

/-- The books after an event, if what was in the hand of the one who had a turn is counted, still
in his hand, or known to be unsent. -/
theorem Booked.extend {lost counted : List Nat} (booked : s.Booked lost counted)
    (filed : s.link.traffic.Filed) (expecting : s.Expecting) (new : List Nat)
    (counts : (s.next e).counts = (s.next e).link.tally (counted ++ new))
    (once : (counted ++ new).Nodup)
    (fresh : ∀ x ∈ new, s.link.delivery? x = some .sent ∧
      ∃ a, e = .act a ∧ s.inHand? a = some x ∧ (s.next e).inHand? a = none)
    (rest : ∀ a x, e = .act a → s.inHand? a = some x →
      x ∈ new ∨ (s.next e).inHand? a = some x ∨ ∃ d, s.link.delivery? x = some d ∧ d ≠ .sent) :
    (s.next e).Booked (lost ++ s.abandons e) (counted ++ new) := by
  have onward := (onward_next filed e).2
  have told {x : Nat} {d : Delivery} (before : s.link.delivery? x = some d) :
      (s.next e).link.delivery? x = some d := onward.told x d before
  have more : s.link.posts.length ≤ (s.next e).link.posts.length := length_le_of_kept onward.origins
  -- what was posted before is nowhere but where it was
  have old {b : Actor} {y : Nat} (known : y < s.link.posts.length)
      (held : (s.next e).inHand? b = some y) : s.inHand? b = some y := by
    rcases inHand?_before expecting held with before | ⟨rfl, -⟩
    · exact before
    · exact absurd known (Nat.lt_irrefl _)
  have sole {b c : Actor} {y : Nat} (one : s.inHand? b = some y) (other : s.inHand? c = some y) :
      b = c := Option.some.inj ((booked.sender b y one).symm.trans (booked.sender c y other))
  constructor
  case sender =>
    intro b y held
    rcases inHand?_before expecting held with before | ⟨-, sender⟩
    · have sender := booked.sender b y before
      rw [sender?_of_kept onward.origins (known_of_sender? sender), sender]
    · exact sender
  case counts => exact counts
  case once => exact once
  case sent =>
    intro y member
    rcases List.mem_append.mp member with before | new
    · exact told (booked.sent y before)
    · exact told (fresh y new).1
  case done =>
    intro y member b held
    rcases List.mem_append.mp member with before | new
    · exact booked.done y before b (old (known_of_delivery? (booked.sent y before)) held)
    · obtain ⟨sent, a, rfl, own, empty⟩ := fresh y new
      obtain rfl := sole own (old (known_of_delivery? sent) held)
      exact absurd (empty.symm.trans held) (by simp)
  case apart =>
    intro y member lost'
    rcases List.mem_append.mp member with before | new <;>
      rcases List.mem_append.mp lost' with lost' | abandoned
    · exact booked.apart y before lost'
    · obtain ⟨a, -, -, held, -⟩ := mem_abandons.mp abandoned
      exact booked.done y before a held
    · obtain ⟨-, a, -, held, -⟩ := fresh y new
      exact booked.gone y lost' a held
    · obtain ⟨a, -, other, held, -⟩ := mem_abandons.mp abandoned
      obtain ⟨-, b, own, held', -⟩ := fresh y new
      exact other (sole held' held ▸ own)
  case known =>
    intro y lost'
    rcases List.mem_append.mp lost' with before | abandoned
    · exact Nat.lt_of_lt_of_le (booked.known y before) more
    · obtain ⟨a, sender, -⟩ := mem_abandons.mp abandoned
      exact Nat.lt_of_lt_of_le (known_of_sender? sender) more
  case gone =>
    intro y lost' b held
    rcases List.mem_append.mp lost' with before | abandoned
    · exact booked.gone y before b (old (booked.known y before) held)
    · obtain ⟨a, sender, -, own, empty⟩ := mem_abandons.mp abandoned
      obtain rfl := sole own (old (known_of_sender? sender) held)
      exact absurd (empty.symm.trans held) (by simp)
  case complete =>
    intro y known unsent
    by_cases before : y < s.link.posts.length
    · rcases booked.complete y before fun d same => unsent d (told same) with
        counted | lost' | ⟨a, held⟩
      · exact .inl (List.mem_append_left _ counted)
      · exact .inr (.inl (List.mem_append_left _ lost'))
      · by_cases own : e = .act a
        · rcases rest a y own held with new | still | ⟨d, same, other⟩
          · exact .inl (List.mem_append_right _ new)
          · exact .inr (.inr ⟨a, still⟩)
          · exact absurd (unsent d (told same)) other
        · rcases inHand?_next (s := s) own with same | empty
          · exact .inr (.inr ⟨a, same.trans held⟩)
          · refine .inr (.inl (List.mem_append_right _ (mem_abandons.mpr ?_)))
            exact ⟨a, booked.sender a y held, own, held, empty⟩
    · rcases next_entrusts (s := s) (e := e) with same | ⟨a, -, one, held⟩
      · omega
      · obtain rfl : y = s.link.posts.length := by omega
        exact .inr (.inr ⟨a, held⟩)

/-- **Every event leaves the books in order.** -/
theorem Booked.next {lost counted : List Nat} (booked : s.Booked lost counted)
    (filed : s.link.traffic.Filed) (expecting : s.Expecting) (e : Event) :
    ∃ counted', (s.next e).Booked (lost ++ s.abandons e) counted' := by
  have known (x : Nat) (member : x ∈ counted) : x < s.link.posts.length :=
    known_of_delivery? (booked.sent x member)
  have unchanged (same : (s.next e).counts = s.counts) :
      (s.next e).counts = (s.next e).link.tally (counted ++ []) := by
    rw [List.append_nil, tally_next filed known, same, booked.counts]
  have once : (counted ++ []).Nodup := by rw [List.append_nil]; exact booked.once
  by_cases acts : ∃ a, e = .act a
  · obtain ⟨a, rfl⟩ := acts
    cases act_books expecting a with
    | keeps counts same =>
      refine ⟨_, booked.extend filed expecting [] (unchanged counts) once (by simp) ?_⟩
      rintro _ x ⟨⟩ held
      exact .inr (.inl (same.trans held))
    | takes counts free =>
      refine ⟨_, booked.extend filed expecting [] (unchanged counts) once (by simp) ?_⟩
      rintro _ x ⟨⟩ held
      exact absurd (free.symm.trans held) (by simp)
    | drops counts empty unsent =>
      refine ⟨_, booked.extend filed expecting [] (unchanged counts) once (by simp) ?_⟩
      rintro _ x ⟨⟩ held
      exact .inr (.inr (unsent x held))
    | @counts x p held sent payload empty counted' =>
      have new : x ∉ counted := fun member => booked.done x member a held
      have added : (s.next (.act a)).link.tally (counted ++ [x])
          = (s.link.tally counted).add p := by
        have all (y : Nat) (member : y ∈ counted ++ [x]) : y < s.link.posts.length := by
          rcases List.mem_append.mp member with before | last
          · exact known y before
          · rw [List.mem_singleton.mp last]
            exact known_of_delivery? sent
        have last : [x].filterMap s.link.payload? = [p] := by simp [payload]
        rw [tally_next filed all, Link.tally, List.filterMap_append, last, Tally.of_concat]
        rfl
      refine ⟨_, booked.extend filed expecting [x] ?_ ?_ ?_ ?_⟩
      · rw [added, ← booked.counts]
        exact counted'
      · exact List.nodup_append'.mpr ⟨booked.once, by simp, by simpa using new⟩
      · intro y member
        rw [List.mem_singleton.mp member]
        exact ⟨sent, a, rfl, held, empty⟩
      · rintro _ y ⟨⟩ held'
        exact .inl (List.mem_singleton.mpr (Option.some.inj (held'.symm.trans held)))
  · have aside : (s.next e).ledger = s.ledger := aside_ledger fun a own => absurd ⟨a, own⟩ acts
    exact ⟨_, booked.extend filed expecting [] (unchanged (counts_of_ledger aside)) once (by simp)
      fun a x own _ => absurd ⟨a, own⟩ acts⟩

/-- **The books are in order after every run.** -/
theorem booked_after (timeout : Option Nat) (es : List Event) :
    ∃ counted, ((initial timeout).after es).Booked ((initial timeout).abandoned es) counted := by
  induction es using List.reverseRecOn with
  | nil => exact ⟨[], booked_initial timeout⟩
  | append_singleton es e ih =>
    obtain ⟨counted, booked⟩ := ih
    rw [abandoned_concat, after_append]
    exact booked.next (filed_after timeout es) (expecting_after timeout es) e

/-! ## What went over the wire -/

/-- Where everybody waits, it is not known what became of that which is in hand. -/
theorem undelivered_of_waits (waits : s.Waits a) (held : s.inHand? a = some x) :
    s.link.delivery? x = none := by
  cases a with
  | call i =>
    obtain ⟨st, stage, own⟩ := Option.bind_eq_some_iff.mp held
    simp only [Waits, stage] at waits
    cases st with
    | sending y f =>
      obtain rfl := Option.some.inj own
      exact waits
    | counting => exact waits.elim
    | _ => exact absurd own (by simp [CallStage.inHand?])
  | job n =>
    obtain ⟨k, task, own⟩ := Option.bind_eq_some_iff.mp held
    simp only [Waits, task] at waits
    cases stage : k.stage with
    | sending y =>
      rw [stage] at own waits
      obtain rfl := Option.some.inj own
      exact waits
    | _ => exact absurd own (by simp [stage, StreamStage.inHand?])
  | poller n =>
    obtain ⟨p, found, own⟩ := Option.bind_eq_some_iff.mp held
    simpa only [Waits, found, own] using waits
  | refresher n =>
    obtain ⟨r, found, own⟩ := Option.bind_eq_some_iff.mp held
    simpa only [Waits, found, own] using waits
  | writer | reader => exact absurd held (by simp [inHand?])

/-- **What went over the wire is known to be sent**, as long as no flush fails. -/
theorem sent_after (timeout : Option Nat) {es : List Event}
    (whole : ∀ i n, .device i (.failFlushes (n + 1)) ∉ es) :
    let t := ((initial timeout).after es).link.traffic
    t.Steady ∧ ∀ x ∈ t.wire, t.delivery? x = some .sent := by
  induction es using List.reverseRecOn with
  | nil => simp [initial, Link.initial, Link.traffic, Traffic.Steady]
  | append_singleton es e ih =>
    obtain ⟨steady, sent⟩ := ih fun i n member => whole i n (List.mem_append_left _ member)
    obtain ⟨ds, moves, does⟩ := next_trades ((initial timeout).after es) e
    rw [after_append, after_cons, after_nil]
    have faultless : ∀ d ∈ ds, ∀ n, d = .device (.failFlushes n) → n = 0 := by
      rintro d member n rfl
      obtain ⟨i, rfl⟩ := (does _ member).of_device
      cases n with
      | zero => rfl
      | succ n => exact absurd (List.mem_append_right _ (List.mem_singleton_self _)) (whole i n)
    exact moves.sent faultless (filed_after timeout es) steady sent

/-- **What was counted**, when everybody waits, is what went over the wire and was not abandoned. -/
theorem perm_of_quiescent {es : List Event} {counted : List Nat}
    (booked : ((initial timeout).after es).Booked ((initial timeout).abandoned es) counted)
    (whole : ∀ i n, .device i (.failFlushes (n + 1)) ∉ es)
    (quiescent : ((initial timeout).after es).Quiescent) :
    counted.Perm (((initial timeout).after es).link.wire.filter
      (· ∉ (initial timeout).abandoned es)) := by
  have filed := filed_after timeout es
  have sent := (sent_after timeout whole).2
  have waits := (Reachable.of_run timeout es).quiescent_iff.mp quiescent
  generalize (initial timeout).after es = s at *
  refine (List.perm_ext_iff_of_nodup booked.once (filed.nodup_wire.filter _)).mpr fun x => ?_
  rw [List.mem_filter, decide_eq_true_eq]
  constructor
  · exact fun member => ⟨filed.sent x (booked.sent x member), booked.apart x member⟩
  · rintro ⟨wired, kept⟩
    have told : s.link.delivery? x = some .sent := sent x wired
    rcases booked.complete x (filed.known x wired) fun d same =>
        Option.some.inj (same.symm.trans told) with counted | lost | ⟨a, held⟩
    · exact counted
    · exact absurd lost kept
    · exact absurd ((undelivered_of_waits (waits a) held).symm.trans told) (by simp)

/-- **The statistics of what was sent**: as long as no flush fails, whenever everybody waits,
what was counted is what went over the wire and was not abandoned. So it is all that went over the
wire exactly if nothing of that was abandoned; and only jobs and pollers abandon anything. -/
theorem counts_eq_iff (timeout : Option Nat) (es : List Event)
    (whole : ∀ i n, .device i (.failFlushes (n + 1)) ∉ es)
    (quiescent : ((initial timeout).after es).Quiescent) :
    let s := (initial timeout).after es
    let lost := (initial timeout).abandoned es
    s.counts = s.link.tally (s.link.wire.filter (· ∉ lost)) ∧
      (s.counts = s.link.tally s.link.wire ↔ ∀ x ∈ s.link.wire, x ∉ lost) ∧
      ∀ x ∈ lost, ∃ n, s.link.traffic.sender? x = some (.job n) ∨
        s.link.traffic.sender? x = some (.poller n) := by
  intro s lost
  obtain ⟨counted, booked⟩ := booked_after timeout es
  have perm := perm_of_quiescent booked whole quiescent
  have counts : s.counts = s.link.tally (s.link.wire.filter (· ∉ lost)) :=
    booked.counts.trans (Tally.of_perm (perm.filterMap _))
  refine ⟨counts, ⟨fun all => ?_, fun kept => ?_⟩, fun x => sender_of_abandoned⟩
  · have known (x : Nat) (member : x ∈ s.link.wire) : (s.link.payload? x).isSome := by
      have posted : x < s.link.posts.length := (filed_after timeout es).known x member
      simp [Link.payload?, posted]
    have length (xs : List Nat) (sub : xs ⊆ s.link.wire) :
        (s.link.tally xs).lines + (s.link.tally xs).realtime = xs.length := by
      rw [Link.tally, Tally.lines_add_realtime]
      exact List.filterMap_length_eq_length.mpr fun x member => known x (sub member)
    have same := (length _ (List.filter_subset_self _)).symm.trans
      ((congrArg (fun t : Tally => t.lines + t.realtime) (counts.symm.trans all)).trans
        (length _ (List.Subset.refl _)))
    simpa using List.length_filter_eq_length_iff.mp same
  · rw [counts, List.filter_eq_self.mpr fun x member => by simpa using kept x member]

/-- A job is stopped while its only line is being written, and held. -/
def stoppedLine : List Event :=
  Event.swift 0 (.connect "/dev/mock0" none) ++ .device 1 .stall ::
    Event.swift 2 (.control (.start "G1 X10")) ++ .act (.job 0) ::
    List.replicate 2 (.act .writer) ++ Event.swift 3 (.control .stop) ++ .device 4 .unstall ::
    List.replicate 3 (.act .writer) ++ List.replicate 2 (.act (.call 3))

/-- Its line goes over the wire and is not counted. -/
theorem counts_eq_iff_stoppedLine :
    let s := (initial none).after stoppedLine
    (∀ i n, .device i (.failFlushes (n + 1)) ∉ stoppedLine) ∧ s.Quiescent ∧
      (initial none).abandoned stoppedLine = [0] ∧ s.link.wire = [0, 1] ∧
      s.counts = s.link.tally [1] ∧ s.counts ≠ s.link.tally s.link.wire := by
  intro s
  have whole : ∀ i n, .device i (.failFlushes (n + 1)) ∉ stoppedLine := by
    simp [stoppedLine, Event.swift]
  have quiescent : s.Quiescent :=
    (Reachable.of_run none stoppedLine).quiescent_of_rest (by decide +kernel)
  have lost : (initial none).abandoned stoppedLine = [0] := by decide +kernel
  have wire : s.link.wire = [0, 1] := by decide +kernel
  obtain ⟨counts, all, -⟩ := counts_eq_iff none stoppedLine whole quiescent
  rw [lost] at counts all
  refine ⟨whole, quiescent, lost, wire, counts.trans (by rw [wire]; rfl), fun same => ?_⟩
  exact absurd (all.mp same 0 (by rw [wire]; decide)) (by decide)

/-- What goes over the wire is not always counted, though no write and no flush fails. -/
theorem counts_ne_stoppedLine :
    ¬ ∀ (timeout : Option Nat) (es : List Event),
      (∀ i n, .device i (.failWrites (n + 1)) ∉ es ∧ .device i (.failFlushes (n + 1)) ∉ es) →
      let s := (initial timeout).after es
      s.Quiescent → (∀ c, s.link.connection = some c → c.writer = .idle) →
        s.counts = s.link.tally s.link.wire := by
  intro always
  have reachable := Reachable.of_run none stoppedLine
  have rest : let s := (initial none).after stoppedLine
      (s.calls, s.streamer.task, s.refreshers, s.linkIdle) = ([], none, [], true) := by
    decide +kernel
  have counts := always none stoppedLine (by simp [stoppedLine, Event.swift])
    (reachable.quiescent_of_rest rest) fun c here => (linkIdle_cases (by simp_all) here).2.1
  exact absurd counts (by decide +kernel)

end Session

end Cnc
