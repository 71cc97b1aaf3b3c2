import Mathlib.Data.List.Sort
import Cnc.Proofs.Tries

/-!
# How a connection serves what was handed to it

What was handed to the open connection and not refused is what it has carried,
what the writer has begun, and what waits in the queue, in this order
(`Traffic.Filed.handed_eq`). What the writer has begun is the next to be
tried, and the writer begins a line only if no realtime command waits.
-/

namespace Cnc

/-- The ticket of the payload that the writer has begun and not tried yet. -/
def WriterStage.begun? : WriterStage → Option Nat
  | .taken x | .writing x => some x
  | .idle | .failed .. => none

/-- What the writer has begun is at the writer, and has not failed. -/
theorem WriterStage.ticket?_of_begun? {w : WriterStage} {x : Nat} (h : w.begun? = some x) :
    w.ticket? = some x ∧ ∀ f, w ≠ .failed x f := by
  cases w <;> simp_all [begun?, ticket?]

namespace Traffic

variable {t u : Traffic} {d : Deed} {ds : List Deed} {tries : List (Nat × Delivery)}

/-! ## First in, first out -/

/-- **How the open connection serves** what was handed to it. -/
structure Served (t : Traffic) : Prop where
  /-- What was lost was handed to another connection. -/
  lost : ∀ c x, t.connection = some c → t.delivery? x = some .lost →
    (t.origin? x).map (·.1) ≠ some c.number
  /-- As long as the writer is busy with a line, the realtime commands that wait were handed over
  after that line. -/
  ahead : ∀ c x, t.connection = some c → c.writer.ticket? = some x → t.isLine x = true →
    ∀ y ∈ c.realtime, x < y

theorem Move.served (h : Move t d u) (filed : t.Filed) (served : t.Served) : u.Served := by
  constructor
  case lost =>
    intro c' x there lost
    rcases h.delivered lost with before | ⟨-, ⟨other, -⟩ | ⟨w, other, -⟩ | ⟨-, rfl⟩⟩
    · obtain ⟨p, found, -⟩ := Option.bind_eq_some_iff.mp before
      have known := (List.getElem?_eq_some_iff.mp found).1
      rw [origin?_of_kept h.origins_kept known]
      rcases h.connected there with ⟨c, here, number, -⟩ | ⟨-, new, -⟩
      · rw [number]
        exact served.lost c x here before
      · -- a new connection has a number that no post has
        have past := filed.past p.origin (List.mem_map_of_mem (List.mem_of_getElem? found))
        have origin : t.origin? x = some p.origin := by simp [origin?, found]
        rw [origin, new]
        exact fun same => Nat.ne_of_lt past (Option.some.inj same)
    · exact absurd other (by simp)
    · exact absurd other (by simp)
    · cases h
      exact absurd there (by simp)
  case ahead =>
    intro c' x there ticket line y hy
    have kept {c : Connection} (here : t.connection = some c) (ticket : c.writer.ticket? = some x)
        (waits : y ∈ c.realtime) : x < y := by
      refine served.ahead c x here ticket ?_ y waits
      rwa [← isLine_of_kept h.origins_kept (filed.delivery?_of_ticket here ticket).1]
    cases h with
    | @post c a p here =>
      obtain rfl := Option.some.inj there
      rw [Connection.enqueue_writer] at ticket
      have known := (filed.delivery?_of_ticket here ticket).1
      have either : y ∈ c.realtime ∨ y = t.posts.length := by
        unfold Connection.enqueue at hy
        split at hy
        · exact .inl hy
        · simpa using hy
      rcases either with old | rfl
      · exact kept here ticket old
      · exact known
    | @takeRealtime c z rest here idle first =>
      obtain rfl := Option.some.inj there
      have same : z = x := Option.some.inj ticket
      have realtime := filed.sorted false z (by simp [queue, here, Connection.queue, first])
      exact absurd (line.symm.trans (same ▸ realtime)) (by simp)
    | takeLine here idle none first =>
      obtain rfl := Option.some.inj there
      exact absurd hy (by simp [none])
    | place here stage | refuseLine here stage | spoilLine here stage =>
      obtain rfl := Option.some.inj there
      exact kept here (by rw [stage]; exact ticket) hy
    | send | refuseRealtime | spoilRealtime | giveUp =>
      obtain rfl := Option.some.inj there
      exact absurd ticket (by simp [WriterStage.ticket?])
    | device d here =>
      obtain rfl := Option.some.inj there
      exact kept here (by simpa using ticket) (by simpa using hy)
    | settle here | chore here | read here | timeout here | poll _ here | clear here =>
      obtain rfl := Option.some.inj there
      exact kept here ticket hy
    | close => exact absurd there (by simp)
    | «open» =>
      obtain rfl := Option.some.inj there
      exact absurd ticket (by simp [Connection.fresh, WriterStage.ticket?])

/-- What was handed to the connection with a number, of one kind, in order. -/
def handed (t : Traffic) (n : Nat) (line : Bool) : List Nat :=
  (List.range t.posts.length).filter fun x => (t.origin? x).map (·.1) = some n ∧ t.isLine x = line

/-- What the connection with a number has carried, of one kind, in order. -/
def carried (t : Traffic) (n : Nat) (line : Bool) : List Nat :=
  t.wire.filter fun x => (t.origin? x).map (·.1) = some n ∧ t.isLine x = line

/-- What the writer has begun and not tried yet, of one kind. -/
def begun (t : Traffic) (line : Bool) : List Nat :=
  (t.connection.bind (·.writer.begun?)).toList.filter (t.isLine · = line)

section Handed

variable {c : Connection} {line : Bool} {x : Nat}

theorem mem_queue (here : t.connection = some c) : x ∈ t.queue line ↔ x ∈ c.queue line := by
  simp [queue, here]

theorem mem_begun (here : t.connection = some c) :
    x ∈ t.begun line ↔ c.writer.begun? = some x ∧ t.isLine x = line := by
  simp [begun, here]

/-- What waits was handed to the open connection, and nothing is known of it yet. -/
theorem Filed.origin?_of_waiting (filed : t.Filed) (here : t.connection = some c)
    (waits : x ∈ t.waiting) :
    x < t.posts.length ∧ t.delivery? x = none ∧ (t.origin? x).map (·.1) = some c.number := by
  obtain ⟨p, found, undelivered⟩ := (filed.mem_waiting x).mp waits
  refine ⟨(List.getElem?_eq_some_iff.mp found).1, ?_, ?_⟩
  · simp [Traffic.delivery?, found, undelivered]
  · exact filed.own c here x (by simpa [Traffic.waiting, here] using waits)

/-- On the wire, at the writer and in the queue, payloads stand in the order of their tickets. -/
theorem Filed.ascending_begun (filed : t.Filed) (here : t.connection = some c) (line : Bool) :
    (t.carried c.number line ++ t.begun line ++ t.queue line).Pairwise (· < ·) := by
  refine (filed.ascending line).sublist ?_
  rw [course, List.filter_append]
  refine List.Sublist.append (List.Sublist.append ?_ ?_) (List.Sublist.refl _)
  · refine List.monotone_filter_right _ fun x own => ?_
    simpa using (of_decide_eq_true own).2
  · refine (List.Sublist.filter _ ?_).trans (List.monotone_filter_right _ fun x kind => ?_)
    · rw [unsent, here]
      cases stage : c.writer <;> simp [WriterStage.begun?, WriterStage.unsent?, stage]
    · simpa using kind

/-- What was handed to the open connection and is not refused is on the wire, has been begun, or
waits in the queue. -/
theorem Filed.place_of_handed (filed : t.Filed) (recorded : t.Recorded tries) (served : t.Served)
    (here : t.connection = some c) (known : x < t.posts.length)
    (origin : (t.origin? x).map (·.1) = some c.number) (notRefused : (x, .failed .write) ∉ tries) :
    x ∈ t.wire ∨ c.writer.begun? = some x ∨ x ∈ c.queue (t.isLine x) := by
  have onWire {f : Delivery} (tried : (x, f) ∈ tries) : x ∈ t.wire := by
    refine recorded.mem_wire.mpr ⟨f, tried, ?_⟩
    rintro rfl
    exact notRefused tried
  cases told : t.delivery? x with
  | some f =>
    refine .inl (onWire (recorded.delivered x f told ?_))
    rintro rfl
    exact served.lost c x here told origin
  | none =>
    have waits : x ∈ c.waiting := by
      simpa [Traffic.waiting, here] using filed.waiting_of_undelivered known told
    rw [Connection.waiting, List.mem_append, List.mem_append, Option.mem_toList] at waits
    rcases waits with (ticket | queued) | queued
    · cases stage : c.writer with
      | idle => exact absurd ticket (by simp [stage, WriterStage.ticket?])
      | taken y | writing y =>
        exact .inr (.inl (by simpa [stage, WriterStage.ticket?, WriterStage.begun?] using ticket))
      | failed y w =>
        obtain rfl : y = x := by simpa [stage, WriterStage.ticket?] using ticket
        exact .inl (onWire (recorded.failed c y w here stage))
    · have kind := filed.sorted true x ((mem_queue here).mpr queued)
      exact .inr (.inr (by rw [kind]; exact queued))
    · have kind := filed.sorted false x ((mem_queue here).mpr queued)
      exact .inr (.inr (by rw [kind]; exact queued))

/-- What waits in a queue was not tried. -/
theorem Recorded.not_tried_of_queued (recorded : t.Recorded tries) (filed : t.Filed)
    (here : t.connection = some c) (queued : x ∈ c.queue line) (f : Delivery) : (x, f) ∉ tries := by
  have waits := mem_waiting_of_queue ((mem_queue here).mpr queued)
  have undelivered := (filed.origin?_of_waiting here waits).2.1
  refine recorded.not_tried undelivered (fun c' w here' failed => ?_) f
  -- what is at the writer does not wait in a queue as well
  obtain rfl := Option.some.inj (here.symm.trans here')
  have distinct := filed.distinct
  cases line <;>
    simp_all [Traffic.waiting, Connection.waiting, WriterStage.ticket?, Connection.queue]

end Handed

/-- **First in, first out.** What was handed to the open connection and not refused is what it has
carried, what the writer has begun, and what waits in the queue, in this order. -/
theorem Filed.handed_eq (filed : t.Filed) (recorded : t.Recorded tries) (served : t.Served)
    {c : Connection} (here : t.connection = some c) (line : Bool) :
    (t.handed c.number line).filter (fun x => (x, .failed .write) ∉ tries)
      = t.carried c.number line ++ t.begun line ++ t.queue line := by
  have handed : ((t.handed c.number line).filter
      fun x => (x, .failed .write) ∉ tries).Pairwise (· < ·) :=
    (List.pairwise_lt_range.filter _).filter _
  refine handed.eq_of_mem_iff (filed.ascending_begun here line) fun x => ?_
  simp only [List.mem_filter, Traffic.handed, carried, List.mem_range, decide_eq_true_eq,
    List.mem_append, mem_queue here, mem_begun here]
  constructor
  · rintro ⟨⟨known, origin, kind⟩, notRefused⟩
    rcases filed.place_of_handed recorded served here known origin notRefused with
      onWire | begun | queued
    · exact .inl (.inl ⟨onWire, origin, kind⟩)
    · exact .inl (.inr ⟨begun, kind⟩)
    · exact .inr (kind ▸ queued)
  · rintro ((⟨onWire, origin, kind⟩ | ⟨begun, kind⟩) | queued)
    · obtain ⟨f, tried, notRefused⟩ := recorded.mem_wire.mp onWire
      exact ⟨⟨filed.known x onWire, origin, kind⟩,
        fun refused => notRefused (recorded.unique tried refused)⟩
    · obtain ⟨ticket, apart⟩ := WriterStage.ticket?_of_begun? begun
      have waits : x ∈ t.waiting := by simp [Traffic.waiting, here, Connection.waiting, ticket]
      obtain ⟨known, -, origin⟩ := filed.origin?_of_waiting here waits
      exact ⟨⟨known, origin, kind⟩, recorded.not_tried_of_ticket filed here ticket apart _⟩
    · have waits := mem_waiting_of_queue ((mem_queue here).mpr queued)
      obtain ⟨known, -, origin⟩ := filed.origin?_of_waiting here waits
      exact ⟨⟨known, origin, filed.sorted line x ((mem_queue here).mpr queued)⟩,
        recorded.not_tried_of_queued filed here queued _⟩

/-! ## One payload after the other -/

/-- What the writer has begun stays with it until it is tried or the connection ends. -/
theorem Move.begun_kept (h : Move t d u) (nothing : d.attempt? = none) {n x : Nat}
    (older : n < t.opened)
    (begun : ∀ c, t.connection = some c → c.number = n → c.writer.begun? = some x) :
    ∀ c, u.connection = some c → c.number = n → c.writer.begun? = some x := by
  have same {c c' : Connection} (here : t.connection = some c) (there : u.connection = some c')
      (number : c'.number = c.number) (writer : c'.writer = c.writer) :
      ∀ c, u.connection = some c → c.number = n → c.writer.begun? = some x := by
    intro c₁ there' own
    obtain rfl := Option.some.inj (there.symm.trans there')
    rw [writer]
    exact begun c here (number ▸ own)
  cases h with
  | send | refuseLine | refuseRealtime | spoilLine | spoilRealtime =>
    exact absurd nothing (by simp [Deed.attempt?])
  | post _ _ here =>
    exact same here rfl (Connection.enqueue_number ..) (Connection.enqueue_writer ..)
  | device _ here => exact same here rfl (Connection.driven_number ..) (Connection.driven_writer ..)
  | settle here | chore here | read here | timeout here | poll _ here | clear here =>
    exact same here rfl rfl rfl
  | close => exact fun c there => absurd there (by simp)
  | «open» port closed =>
    intro c there own
    obtain rfl := Option.some.inj there
    exact absurd own (Nat.ne_of_gt older)
  | takeRealtime here stage | takeLine here stage | giveUp here stage =>
    intro c there own
    obtain rfl := Option.some.inj there
    exact absurd (begun _ here own) (by simp [stage, WriterStage.begun?])
  | place here stage =>
    intro c there own
    obtain rfl := Option.some.inj there
    have before := begun _ here own
    rw [stage] at before
    exact before

theorem Moves.begun_kept (h : Moves t ds u) (nothing : ds.filterMap Deed.attempt? = []) {n x : Nat}
    (older : n < t.opened)
    (begun : ∀ c, t.connection = some c → c.number = n → c.writer.begun? = some x) :
    ∀ c, u.connection = some c → c.number = n → c.writer.begun? = some x := by
  induction h with
  | nil => exact begun
  | cons first _ ih =>
    have none := List.filterMap_eq_nil_iff.mp nothing
    refine ih (List.filterMap_eq_nil_iff.mpr fun d hd => none d (List.mem_cons_of_mem _ hd))
      (Nat.lt_of_lt_of_le older first.opened_le) ?_
    exact first.begun_kept (none _ List.mem_cons_self) older begun

/-- **The writer begins a line** only if no realtime command waits. -/
theorem Move.begins (h : Move t d u) (filed : t.Filed) {x : Nat} (begun : x ∈ u.begun true) :
    x ∈ t.begun true ∨ (d.byWriter = true ∧
      ∃ c, t.connection = some c ∧ c.realtime = [] ∧ c.lines.head? = some x) := by
  obtain ⟨atWriter, line⟩ := List.mem_filter.mp begun
  obtain ⟨c', there, stage⟩ := Option.bind_eq_some_iff.mp (Option.mem_toList.mp atWriter)
  have kept {c : Connection} (here : t.connection = some c) (before : c.writer.begun? = some x) :
      x ∈ t.begun true := by
    have ticket := (WriterStage.ticket?_of_begun? before).1
    have known := (filed.delivery?_of_ticket here ticket).1
    rw [decide_eq_true_eq, isLine_of_kept h.origins_kept known] at line
    simp [Traffic.begun, here, before, line]
  cases h with
  | post _ _ here =>
    obtain rfl := Option.some.inj there
    exact .inl (kept here (by simpa using stage))
  | device _ here =>
    obtain rfl := Option.some.inj there
    exact .inl (kept here (by simpa using stage))
  | settle here | chore here | read here | timeout here | poll _ here | clear here =>
    obtain rfl := Option.some.inj there
    exact .inl (kept here stage)
  | place here at_ =>
    obtain rfl := Option.some.inj there
    exact .inl (kept here (by rw [at_]; exact stage))
  | takeLine here idle none first =>
    obtain rfl := Option.some.inj there
    obtain rfl := Option.some.inj stage
    exact .inr ⟨rfl, _, here, none, by rw [first]; rfl⟩
  | @takeRealtime c z rest here idle first =>
    obtain rfl := Option.some.inj there
    have same : z = x := Option.some.inj stage
    have realtime := filed.sorted false z (by simp [queue, here, Connection.queue, first])
    exact absurd ((of_decide_eq_true line).symm.trans (same ▸ realtime)) (by simp)
  | send | refuseRealtime | spoilRealtime | giveUp | refuseLine | spoilLine =>
    obtain rfl := Option.some.inj there
    exact absurd stage (by simp [WriterStage.begun?])
  | close => exact absurd there (by simp)
  | «open» =>
    obtain rfl := Option.some.inj there
    exact absurd stage (by simp [Connection.fresh, WriterStage.begun?])

end Traffic

namespace Session

open Traffic

/-! ## Runs -/

/-- **The writer begins a line** only if no realtime command waits. -/
theorem next_begins {s : Session} (filed : s.link.traffic.Filed) {e : Event} {x : Nat}
    (begun : x ∈ (s.next e).link.traffic.begun true) (new : x ∉ s.link.traffic.begun true) :
    ∃ c, s.link.connection = some c ∧ c.realtime = [] ∧ c.lines.head? = some x := by
  by_cases writer : e = .act .writer
  · rcases next_makes s (e := e) (by simp [writer]) with same | ⟨d, move, -⟩
    · exact absurd (same ▸ begun) new
    · rcases move.begins filed begun with before | ⟨-, first⟩
      · exact absurd before new
      · exact first
  · -- nobody else begins anything
    obtain ⟨ds, moves, does⟩ := next_trades s e
    have others : ∀ d ∈ ds, d.byWriter = false := by
      intro d hd
      cases does d hd with
      | write => exact absurd rfl writer
      | _ => rfl
    generalize (s.next e).link.traffic = u at moves begun
    have before : x ∈ s.link.traffic.begun true := by
      clear new does
      generalize s.link.traffic = t at moves filed
      induction moves with
      | nil => exact begun
      | @cons t v u d ds first _ ih =>
        have others' := fun d hd => others d (List.mem_cons_of_mem _ hd)
        have later := ih others' begun (first.filed filed)
        rcases first.begins filed later with before | ⟨own, -⟩
        · exact before
        · exact absurd ((others d List.mem_cons_self).symm.trans own) (by simp)
    exact absurd before new

theorem served_after (timeout : Option Nat) (es : List Event) :
    ((initial timeout).after es).link.traffic.Served := by
  induction es using List.reverseRecOn with
  | nil => constructor <;> simp [initial, Link.initial, Link.traffic]
  | append_singleton es e ih =>
    obtain ⟨ds, moves, -⟩ := next_trades ((initial timeout).after es) e
    rw [after_append]
    have both : ((initial timeout).after es).link.traffic.Filed ∧
        ((initial timeout).after es).link.traffic.Served := ⟨filed_after timeout es, ih⟩
    refine (moves.induction (P := fun t => t.Filed ∧ t.Served) both ?_).2
    exact fun move before => ⟨move.filed before.1, move.served before.1 before.2⟩

end Session

end Cnc
