import Mathlib.Data.List.Induction
import Mathlib.Data.List.Nodup
import Cnc.Proofs.Filing

/-!
# What the writer tries

The writer *tries* a payload when it writes and flushes it, and a try ends in
one of three ways: the payload is sent, it is refused, or it goes over the
wire and the flush fails. `Session.tries` is the record of a run, and
everything that is known about a payload can be read off it
(`Traffic.Recorded`): the wire holds the payloads of the tries that were not
refused, in order, no payload is tried twice, and what becomes of a payload is
how its try ended unless the connection ends before that is known.
-/

namespace Cnc

namespace Traffic

variable {t u : Traffic} {d : Deed} {ds : List Deed} {tries : List (Nat × Delivery)}

/-! ## The record of a run -/

/-- **What is known after a payload was tried.** -/
inductive Tried (t : Traffic) (x : Nat) : Delivery → Prop
  | told {f : Delivery} (told : t.delivery? x = some f) : Tried t x f
  /-- It is not known yet, because the place of the line has to be given up first. -/
  | failing {c : Connection} {w : WriteFault} (here : t.connection = some c)
      (failed : c.writer = .failed x w) : Tried t x (.failed w)
  /-- It will not be known, because the connection ended before. -/
  | lost {w : WriteFault} (lost : t.delivery? x = some .lost) : Tried t x (.failed w)

/-- **What the record of a run says.** -/
structure Recorded (t : Traffic) (tries : List (Nat × Delivery)) : Prop where
  wire : t.wire = (tries.filter (·.2 ≠ .failed .write)).map (·.1)
  /-- No payload is tried twice. -/
  once : (tries.map (·.1)).Nodup
  tried : ∀ x f, (x, f) ∈ tries → t.Tried x f
  delivered : ∀ x f, t.delivery? x = some f → f ≠ .lost → (x, f) ∈ tries
  failed : ∀ c x w, t.connection = some c → c.writer = .failed x w → (x, .failed w) ∈ tries

/-- What is marked as delivered is known to be so. -/
theorem delivery?_markDelivered {posts : List Post} {x : Nat} (known : x < posts.length)
    (f : Delivery) : ((markDelivered posts [x] f)[x]?).bind (·.delivery) = some f := by
  simp [getElem?_mark, known]

/-- A payload at the writer is not delivered. -/
theorem Filed.delivery?_of_ticket (filed : t.Filed) {c : Connection} {x : Nat}
    (here : t.connection = some c) (ticket : c.writer.ticket? = some x) :
    x < t.posts.length ∧ t.delivery? x = none := by
  have waits : x ∈ t.waiting := by simp [Traffic.waiting, here, Connection.waiting, ticket]
  obtain ⟨p, found, undelivered⟩ := (filed.mem_waiting x).mp waits
  exact ⟨(List.getElem?_eq_some_iff.mp found).1, by simp [Traffic.delivery?, found, undelivered]⟩

/-- What waits was not tried, unless the writer has yet to give up its place. -/
theorem Recorded.not_tried (recorded : t.Recorded tries) {x : Nat} (waits : t.delivery? x = none)
    (apart : ∀ c w, t.connection = some c → c.writer ≠ .failed x w) (f : Delivery) :
    (x, f) ∉ tries := by
  intro known
  cases recorded.tried x f known with
  | told told => exact absurd (waits.symm.trans told) (by simp)
  | failing here failed => exact apart _ _ here failed
  | lost lost => exact absurd (waits.symm.trans lost) (by simp)

/-- What is at the writer was not tried, unless it failed. -/
theorem Recorded.not_tried_of_ticket (recorded : t.Recorded tries) (filed : t.Filed)
    {c : Connection} {x : Nat} (here : t.connection = some c) (ticket : c.writer.ticket? = some x)
    (apart : ∀ w, c.writer ≠ .failed x w) (f : Delivery) : (x, f) ∉ tries := by
  have undelivered := (filed.delivery?_of_ticket here ticket).2
  refine recorded.not_tried undelivered (fun c' w here' failed => ?_) f
  obtain rfl := Option.some.inj (here.symm.trans here')
  exact apart w failed

theorem Recorded.mem_wire (recorded : t.Recorded tries) {x : Nat} :
    x ∈ t.wire ↔ ∃ f, (x, f) ∈ tries ∧ f ≠ .failed .write := by
  rw [recorded.wire]
  simp

/-- What was tried was handed over. -/
theorem Recorded.known (recorded : t.Recorded tries) (filed : t.Filed) {x : Nat} {f : Delivery}
    (tried : (x, f) ∈ tries) : x < t.posts.length := by
  have known_of_told {g : Delivery} (told : t.delivery? x = some g) : x < t.posts.length := by
    obtain ⟨p, found, -⟩ := Option.bind_eq_some_iff.mp told
    exact (List.getElem?_eq_some_iff.mp found).1
  cases recorded.tried x f tried with
  | told told => exact known_of_told told
  | lost lost => exact known_of_told lost
  | failing here failed => exact (filed.delivery?_of_ticket here (by rw [failed]; rfl)).1

/-- A payload is tried once. -/
theorem Recorded.unique (recorded : t.Recorded tries) {x : Nat} {f g : Delivery}
    (known : (x, f) ∈ tries) (known' : (x, g) ∈ tries) : f = g :=
  (Prod.mk.inj (List.inj_on_of_nodup_map recorded.once known known' rfl)).2

/-- What is known about a payload that was tried stays known. -/
theorem Move.tried (h : Move t d u) (filed : t.Filed) {x : Nat} {f : Delivery}
    (tried : t.Tried x f) : u.Tried x f := by
  cases tried with
  | told told => exact .told (h.told filed told)
  | lost lost => exact .lost (h.told filed lost)
  | @failing c w here failed =>
    have known := (filed.delivery?_of_ticket here (by rw [failed]; rfl)).1
    have still {c' : Connection} (there : u.connection = some c') (writer : c'.writer = c.writer) :
        u.Tried x (.failed w) :=
      .failing there (writer.trans failed)
    cases h with
    | post _ _ here' | device _ here' | poll _ here' | settle here' | chore here' | read here'
    | timeout here' | clear here' =>
      obtain rfl := Option.some.inj (here'.symm.trans here)
      exact still rfl (by simp)
    | giveUp here' failed' =>
      obtain rfl := Option.some.inj (here'.symm.trans here)
      obtain ⟨rfl, rfl⟩ := WriterStage.failed.inj (failed'.symm.trans failed)
      exact .told (delivery?_markDelivered (by simpa [mark] using known) _)
    | close here' =>
      obtain rfl := Option.some.inj (here.symm.trans here')
      have waits : x ∈ c.waiting := by
        simp [Connection.waiting, failed, WriterStage.ticket?]
      refine .lost ?_
      simp [Traffic.delivery?, getElem?_mark, known, waits]
    | «open» port closed => exact absurd (closed.symm.trans here) (by simp)
    | takeRealtime here' stage | takeLine here' stage | place here' stage | send here' stage
    | refuseLine here' stage | refuseRealtime here' stage | spoilLine here' stage
    | spoilRealtime here' stage =>
      obtain rfl := Option.some.inj (here'.symm.trans here)
      exact absurd (stage.symm.trans failed) (by simp)

/-- **What a try does**: the payload that is being written goes over the wire unless it is refused,
and how the try ended is known, or will be when the place of the line is given up. -/
theorem Move.attempt (h : Move t d u) (filed : t.Filed) {x : Nat} {f : Delivery}
    (tries : d.attempt? = some (x, f)) :
    (∃ c, t.connection = some c ∧ c.writer = .writing x) ∧ u.Tried x f ∧
      u.wire = t.wire ++ (if f = .failed .write then [] else [x]) ∧
      (∀ c y w, u.connection = some c → c.writer = .failed y w → y = x ∧ f = .failed w) := by
  have told {c : Connection} (here : t.connection = some c) (writing : c.writer = .writing x)
      (g : Delivery) : ((markDelivered t.posts [x] g)[x]?).bind (·.delivery) = some g :=
    delivery?_markDelivered (filed.delivery?_of_ticket here (by rw [writing]; rfl)).1 g
  cases h with
  | send here writing | refuseRealtime here writing | spoilRealtime here writing =>
    obtain ⟨rfl, rfl⟩ := Prod.mk.inj (Option.some.inj tries)
    refine ⟨⟨_, here, writing⟩, .told (told here writing _), by simp, ?_⟩
    intro c y w there failed
    obtain rfl := Option.some.inj there
    exact absurd failed (by simp)
  | refuseLine here writing | spoilLine here writing =>
    obtain ⟨rfl, rfl⟩ := Prod.mk.inj (Option.some.inj tries)
    refine ⟨⟨_, here, writing⟩, .failing rfl rfl, by simp, ?_⟩
    intro c y w there failed
    obtain rfl := Option.some.inj there
    obtain ⟨rfl, rfl⟩ := WriterStage.failed.inj failed
    exact ⟨rfl, rfl⟩
  | _ => exact absurd tries (by simp [Deed.attempt?])

/-- What is not a try puts nothing on the wire, and the place of a line is given up only if it
failed before. -/
theorem Move.no_attempt (h : Move t d u) (none : d.attempt? = none) :
    u.wire = t.wire ∧ ∀ c x w, u.connection = some c → c.writer = .failed x w →
      ∃ c', t.connection = some c' ∧ c'.writer = .failed x w := by
  have kept {c c' : Connection} (here : t.connection = some c) (there : u.connection = some c')
      (same : c'.writer = c.writer) : ∀ c x w, u.connection = some c → c.writer = .failed x w →
        ∃ c', t.connection = some c' ∧ c'.writer = .failed x w := by
    intro c₁ x w there' failed
    obtain rfl := Option.some.inj (there.symm.trans there')
    exact ⟨c, here, same.symm.trans failed⟩
  have other {c' : Connection} (there : u.connection = some c')
      (stage : ∀ x w, c'.writer ≠ .failed x w) : ∀ c x w, u.connection = some c →
        c.writer = .failed x w → ∃ c', t.connection = some c' ∧ c'.writer = .failed x w := by
    intro c₁ x w there' failed
    obtain rfl := Option.some.inj (there.symm.trans there')
    exact absurd failed (stage x w)
  cases h with
  | send | refuseLine | refuseRealtime | spoilLine | spoilRealtime =>
    exact absurd none (by simp [Deed.attempt?])
  | post _ _ here => exact ⟨rfl, kept here rfl (Connection.enqueue_writer ..)⟩
  | device _ here => exact ⟨rfl, kept here rfl (Connection.driven_writer ..)⟩
  | settle here | chore here | read here | timeout here | poll _ here | clear here =>
    exact ⟨rfl, kept here rfl rfl⟩
  | takeRealtime | takeLine | place | giveUp | «open» =>
    exact ⟨rfl, other rfl (by simp [Connection.fresh])⟩
  | close => exact ⟨rfl, fun c x w there => absurd there (by simp)⟩

/-- **A move is recorded** if it tries a payload. -/
theorem Move.recorded (h : Move t d u) (filed : t.Filed) (recorded : t.Recorded tries) :
    u.Recorded (tries ++ d.attempt?.toList) := by
  cases tried : d.attempt? with
  | none =>
    obtain ⟨wire, failed⟩ := h.no_attempt tried
    rw [Option.toList_none, List.append_nil]
    refine ⟨wire.trans recorded.wire, recorded.once, ?_, ?_, ?_⟩
    · exact fun x f known => h.tried filed (recorded.tried x f known)
    · intro x f told notLost
      rcases h.delivered told with before | ⟨-, ⟨-, rfl⟩ | ⟨w, rfl, rfl | rfl, -⟩ | ⟨lost, -⟩⟩
      · exact recorded.delivered x f before notLost
      · exact absurd tried (by simp [Deed.attempt?])
      · exact absurd tried (by simp [Deed.attempt?])
      · -- the line had failed before its place was given up
        cases h with
        | giveUp here stuck =>
          have known := (filed.delivery?_of_ticket here (by rw [stuck]; rfl)).1
          have same := (delivery?_markDelivered (by simpa [mark] using known) _).symm.trans told
          rw [← Option.some.inj same]
          exact recorded.failed _ x _ here stuck
      · exact absurd lost notLost
    · intro c x w there stage
      obtain ⟨c', here, before⟩ := failed c x w there stage
      exact recorded.failed c' x w here before
  | some p =>
    obtain ⟨x, f⟩ := p
    obtain ⟨⟨c, here, writing⟩, now, wire, stage⟩ := h.attempt filed tried
    have new := recorded.not_tried_of_ticket filed here (by rw [writing]; rfl) (by simp [writing])
    rw [Option.toList_some]
    refine ⟨?_, ?_, ?_, ?_, ?_⟩
    · rw [wire, recorded.wire, List.filter_append, List.map_append]
      by_cases refused : f = .failed .write <;> simp [refused]
    · rw [List.map_append, List.nodup_append]
      refine ⟨recorded.once, by simp, ?_⟩
      rintro y hy z hz rfl
      obtain ⟨⟨y, g⟩, known, rfl⟩ := List.mem_map.mp hy
      obtain rfl : y = x := by simpa using hz
      exact new g known
    · intro y g known
      rcases List.mem_append.mp known with before | last
      · exact h.tried filed (recorded.tried y g before)
      · obtain ⟨rfl, rfl⟩ := Prod.mk.inj (List.mem_singleton.mp last)
        exact now
    · intro y g told notLost
      rcases h.delivered told with before | ⟨-, ⟨rfl, rfl⟩ | ⟨w, rfl, rfl | rfl, -⟩ | ⟨lost, -⟩⟩
      · exact List.mem_append_left _ (recorded.delivered y g before notLost)
      · exact List.mem_append_right _ (by simpa [Deed.attempt?, eq_comm] using tried)
      · exact List.mem_append_right _ (by simpa [Deed.attempt?, eq_comm] using tried)
      · exact absurd tried (by simp [Deed.attempt?])
      · exact absurd lost notLost
    · intro c' y w there failed
      obtain ⟨rfl, rfl⟩ := stage c' y w there failed
      exact List.mem_append_right _ (List.mem_singleton_self _)

/-- **What moves bring to the wire** is what they try and what is not refused. -/
theorem Moves.wire (h : Moves t ds u) (filed : t.Filed) :
    u.wire = t.wire ++ ((ds.filterMap Deed.attempt?).filter (·.2 ≠ .failed .write)).map (·.1) := by
  induction h with
  | nil => simp
  | @cons t v u d ds first _ ih =>
    rw [ih (first.filed filed), List.filterMap_cons]
    cases tried : d.attempt? with
    | none => rw [(first.no_attempt tried).1]
    | some p =>
      obtain ⟨x, f⟩ := p
      rw [(first.attempt filed tried).2.2.1, List.append_assoc]
      by_cases refused : f = .failed .write <;> simp [refused]

theorem Moves.recorded (h : Moves t ds u) (filed : t.Filed) (recorded : t.Recorded tries) :
    u.Recorded (tries ++ ds.filterMap Deed.attempt?) := by
  induction h generalizing tries with
  | nil => simpa using recorded
  | @cons t u v d ds first rest ih =>
    have after := ih (first.filed filed) (first.recorded filed recorded)
    rw [List.append_assoc] at after
    cases tried : d.attempt? with
    | none => simpa [List.filterMap_cons, tried] using after
    | some p => simpa [List.filterMap_cons, tried] using after

end Traffic

namespace Session

open Traffic

/-! ## Runs -/

/-- The payload that the writer tries in an event, and how that ends. -/
def attempt? (s : Session) (e : Event) : Option (Nat × Delivery) :=
  match e, s.link.connection with
  | .act .writer, some c =>
    match c.writer with
    | .writing x => if c.stalled then none else some (x, c.prospect)
    | _ => none
  | _, _ => none

/-- **What is tried in a run**, in order, and how each try ends. -/
def tries (s : Session) (es : List Event) : List (Nat × Delivery) :=
  (s.history es).filterMap fun h => h.1.attempt? h.2

theorem tries_concat (s : Session) (es : List Event) (e : Event) :
    s.tries (es ++ [e]) = s.tries es ++ ((s.after es).attempt? e).toList := by
  rw [tries, history_concat, List.filterMap_append]
  cases tried : (s.after es).attempt? e <;> simp [tries, tried]

/-- Only the writer tries. -/
theorem Does.attempt?_eq_none {s : Session} {e : Event} {d : Deed} (does : s.Does e d)
    (notWriter : e ≠ .act .writer) : d.attempt? = none := by
  cases does with
  | write => exact absurd rfl notWriter
  | _ => rfl

/-- A turn of the writer in which nothing is tried is no try. -/
theorem attempt?_of_move {s : Session} {d : Deed} {u : Traffic} (move : Move s.link.traffic d u)
    (nothing : s.attempt? (.act .writer) = none) : d.attempt? = none := by
  cases move with
  | send here writing free | refuseLine here writing free | refuseRealtime here writing free
  | spoilLine here writing free | spoilRealtime here writing free =>
    have open_ : s.link.connection = some _ := here
    exact absurd nothing (by simp [Session.attempt?, open_, writing, free])
  | _ => rfl

theorem attempt?_eq_none {s : Session} {e : Event} (notWriter : e ≠ .act .writer) :
    s.attempt? e = none := by
  unfold attempt?
  split
  · exact absurd rfl notWriter
  · rfl

/-- Whatever happens next, at most one thing is done to the traffic, and that is what is tried. A
poller that posts a query takes a note besides. -/
theorem next_attempt? (s : Session) {e : Event} (notPoller : ∀ n, e ≠ .act (.poller n)) :
    ((s.next e).link.traffic = s.link.traffic ∧ s.attempt? e = none) ∨
      ∃ d, Move s.link.traffic d (s.next e).link.traffic ∧ d.attempt? = s.attempt? e := by
  by_cases writer : e = .act .writer
  · subst writer
    cases tried : s.attempt? (.act .writer) with
    | none =>
      rcases next_makes s notPoller with same | ⟨d, move, -⟩
      · exact .inl ⟨same, rfl⟩
      · exact .inr ⟨d, move, attempt?_of_move move tried⟩
    | some p =>
      cases here : s.link.connection with
      | none => simp [attempt?, here] at tried
      | some c =>
        cases stage : c.writer with
        | writing x =>
          by_cases free : c.stalled = false
          · obtain ⟨d, move, -, tries⟩ := attemptWrite_move here stage free
            have turn : s.next (.act .writer) = s.attemptWrite c x := by
              show s.writerTurn = _
              simp [writerTurn, here, stage, free]
            have same : p = (x, c.prospect) := by
              simpa [attempt?, here, stage, free, eq_comm] using tried
            exact .inr ⟨d, turn ▸ move, by rw [tries, same]⟩
          · simp [attempt?, here, stage, free] at tried
        | _ => simp [attempt?, here, stage] at tried
  · rw [attempt?_eq_none writer]
    rcases next_makes s notPoller with same | ⟨d, move, does⟩
    · exact .inl ⟨same, rfl⟩
    · exact .inr ⟨d, move, does.attempt?_eq_none writer⟩

/-- **What is tried in an event** is what its deeds try. -/
theorem next_tries (s : Session) (e : Event) :
    ∃ ds, Moves s.link.traffic ds (s.next e).link.traffic ∧
      ds.filterMap Deed.attempt? = (s.attempt? e).toList := by
  by_cases poller : ∀ n, e ≠ .act (.poller n)
  · rcases next_attempt? s poller with ⟨same, nothing⟩ | ⟨d, move, tries⟩
    · exact ⟨[], same ▸ .nil _, by simp [nothing]⟩
    · refine ⟨[d], move.moves, ?_⟩
      rw [← tries, List.filterMap_cons]
      cases d.attempt? <;> rfl
  · obtain ⟨n, rfl⟩ := not_forall_not.mp poller
    obtain ⟨ds, moves, does⟩ := next_trades s (.act (.poller n))
    refine ⟨ds, moves, ?_⟩
    rw [attempt?_eq_none (by simp), Option.toList_none, List.filterMap_eq_nil_iff]
    exact fun d hd => (does d hd).attempt?_eq_none (by simp)

theorem tries_append (s : Session) (es fs : List Event) :
    s.tries (es ++ fs) = s.tries es ++ (s.after es).tries fs := by
  rw [tries, history_append, List.filterMap_append]
  rfl

/-- **What a run brings to the wire** is what is tried and not refused. -/
theorem wire_after {s : Session} (filed : s.link.traffic.Filed) (es : List Event) :
    (s.after es).link.wire
      = s.link.wire ++ ((s.tries es).filter (·.2 ≠ .failed .write)).map (·.1) := by
  induction es using List.reverseRecOn with
  | nil => simp [tries]
  | append_singleton es e ih =>
    obtain ⟨ds, moves, tries⟩ := next_tries (s.after es) e
    have wire : ((s.after es).next e).link.wire = (s.after es).link.wire ++ _ :=
      moves.wire (onward_after filed es).1
    rw [after_append, after_cons, after_nil, wire, ih, tries, tries_concat, List.filter_append,
      List.map_append, List.append_assoc]

/-- **Every run is recorded.** -/
theorem recorded_after (timeout : Option Nat) (es : List Event) :
    ((initial timeout).after es).link.traffic.Recorded ((initial timeout).tries es) := by
  induction es using List.reverseRecOn with
  | nil =>
    constructor <;> simp [initial, Link.initial, Link.traffic, tries, Traffic.delivery?]
  | append_singleton es e ih =>
    obtain ⟨ds, moves, tries⟩ := next_tries ((initial timeout).after es) e
    rw [tries_concat, ← tries, after_append]
    exact moves.recorded (filed_after timeout es) ih

end Session

end Cnc
