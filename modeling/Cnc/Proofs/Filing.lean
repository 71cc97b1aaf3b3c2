import Cnc.Proofs.Tickets

/-!
# First in, first out

The *course* of the lines is the sequence of their tickets on the wire, at
the writer, and in the queue, and likewise for the realtime commands. A
course is ascending after every run (`Traffic.Filed.ascending`), because it
only ever loses tickets, or gets a new one at its end (`Traffic.Move.course`).
That is all there is to first in, first out: lines go over the wire in the
order in which they were handed over, each at most once, and so do realtime
commands.

A post waits – at the writer or in a queue of the open connection – exactly
as long as it is not known what became of it (`Traffic.Filed.mem_waiting`).
-/

namespace Cnc

namespace Traffic

variable {t u v : Traffic} {d : Deed} {ds : List Deed}

/-- **The course of the lines, or of the realtime commands**: what went over the wire, what is at
the writer, and what waits in the queue. -/
def course (t : Traffic) (line : Bool) : List Nat :=
  (t.wire ++ t.unsent).filter (t.isLine · == line) ++ t.queue line

/-- **Every ticket is where it belongs.** -/
structure Filed (t : Traffic) : Prop where
  /-- What went over the wire was posted. -/
  known : ∀ x ∈ t.wire, x < t.posts.length
  /-- A payload waits as long as it is not known what became of it. -/
  mem_waiting : ∀ x, x ∈ t.waiting ↔ ∃ p, t.posts[x]? = some p ∧ p.delivery = none
  /-- No payload waits in two places. -/
  distinct : t.waiting.Nodup
  /-- What waits was handed to the open connection. -/
  own : ∀ c, t.connection = some c → ∀ x ∈ c.waiting, (t.origin? x).map (·.1) = some c.number
  /-- The queues hold lines and realtime commands. -/
  sorted : ∀ line, ∀ x ∈ t.queue line, t.isLine x = line
  /-- Only a line is taken without being written at once, and only a line has a place to give up. -/
  line : ∀ c x, t.connection = some c → (c.writer = .taken x ∨ ∃ f, c.writer = .failed x f) →
    t.isLine x = true
  /-- Connections are numbered in the order in which they are opened. -/
  newest : ∀ c, t.connection = some c → c.number < t.opened
  past : ∀ o ∈ t.origins, o.1 < t.opened
  /-- What counts as sent went over the wire. -/
  sent : ∀ x, t.delivery? x = some .sent → x ∈ t.wire
  /-- What the device did not take went not over the wire. -/
  refused : ∀ x, t.delivery? x = some (.failed .write) → x ∉ t.wire
  /-- Tickets are on their course in ascending order. -/
  ascending : ∀ line, (t.course line).Pairwise (· < ·)

/-- What is not known to be delivered waits. -/
theorem Filed.waiting_of_undelivered (filed : t.Filed) {x : Nat} (known : x < t.posts.length)
    (undelivered : t.delivery? x = none) : x ∈ t.waiting := by
  refine (filed.mem_waiting x).mpr ⟨t.posts[x], by simp [known], ?_⟩
  simpa [Traffic.delivery?, known] using undelivered

theorem Filed.unsent_known (filed : t.Filed) {x : Nat} (h : x ∈ t.wire ++ t.unsent) :
    x < t.posts.length := by
  rcases List.mem_append.mp h with h | h
  · exact filed.known x h
  · exact Undelivered.known ((filed.mem_waiting x).mp (mem_waiting_of_unsent h))

theorem Filed.queue_known (filed : t.Filed) {x : Nat} {line : Bool} (h : x ∈ t.queue line) :
    x < t.posts.length :=
  Undelivered.known ((filed.mem_waiting x).mp (mem_waiting_of_queue h))

/-- What is at the writer and not sent is not on the wire. -/
theorem Filed.not_mem_wire (filed : t.Filed) {x : Nat} (h : x ∈ t.unsent) : x ∉ t.wire := by
  intro onWire
  have ascending := filed.ascending (t.isLine x)
  rw [Traffic.course, List.filter_append] at ascending
  have before := (List.pairwise_append.mp (List.pairwise_append.mp ascending).1).2.2
  have less := before x (by simp [onWire]) x (by simp [h])
  exact Nat.lt_irrefl x less

/-- **What a move does to a course.** It loses tickets, or gets a new one at its end. -/
theorem Move.course (h : Move t d u) (filed : t.Filed) (line : Bool) :
    (u.course line).Sublist (t.course line ++ d.ticket t) := by
  have sorted := filed.sorted
  -- no ticket on a course changes its kind
  have kinds : (t.wire ++ t.unsent).filter (u.isLine · == line)
      = (t.wire ++ t.unsent).filter (t.isLine · == line) :=
    List.filter_congr fun x hx => by
      rw [isLine_of_kept h.origins_kept (filed.unsent_known hx)]
  rcases h.origins with ⟨same, notPost⟩ | ⟨_, a, p, rfl, -, -⟩
  · have isLine := isLine_of_origins same
    simp only [Traffic.course, isLine]
    cases h with
    | post a p => exact absurd rfl (notPost a p)
    | @takeRealtime c x rest here idle first =>
      have realtime : t.isLine x = false :=
        sorted false x (by simp [queue, here, Connection.queue, first])
      cases line <;>
        simp [unsent, queue, here, idle, WriterStage.unsent?, Connection.queue, first, realtime,
          Deed.ticket]
    | @takeLine c x rest here idle none first =>
      have isLine : t.isLine x = true :=
        sorted true x (by simp [queue, here, Connection.queue, first])
      cases line <;>
        simp [unsent, queue, here, idle, WriterStage.unsent?, Connection.queue, first, isLine,
          Deed.ticket]
    | place here stage | send here stage | refuseLine here stage | spoilLine here stage
    | spoilRealtime here stage =>
      simp [unsent, queue, here, stage, WriterStage.unsent?, Connection.queue, Deed.ticket]
    | refuseRealtime here stage =>
      simp [unsent, queue, here, stage, WriterStage.unsent?, Connection.queue, Deed.ticket]
    | @giveUp c x f here stage =>
      cases f <;>
        simp [unsent, queue, here, stage, WriterStage.unsent?, Connection.queue, Deed.ticket]
    | read here | device _ here | settle here | chore here | timeout here | poll _ here | clear here
    | close here =>
      simp [unsent, queue, here, Connection.queue, Deed.ticket]
    | «open» port closed =>
      cases line <;>
        simp [unsent, queue, closed, Connection.queue, Connection.fresh, WriterStage.unsent?,
          Deed.ticket]
  · cases h with
    | @post c a p here =>
      have queued : ((c.enqueue p t.posts.length).queue line).Sublist
          (c.queue line ++ [t.posts.length]) := by
        unfold Connection.enqueue
        split
        · cases line
          · exact List.sublist_append_left _ _
          · exact List.Sublist.refl _
        · cases line
          · exact List.Sublist.refl _
          · exact List.sublist_append_left _ _
      simp only [Traffic.course, unsent, here, Option.bind_some, queue, Option.map_some,
        Option.getD_some, Connection.enqueue_writer, Deed.ticket, List.append_assoc]
        at kinds queued ⊢
      rw [kinds]
      exact (List.Sublist.refl _).append queued

/-- **Every move keeps every ticket where it belongs.** -/
theorem Move.filed (h : Move t d u) (filed : t.Filed) : u.Filed := by
  have grow := length_le_of_kept h.origins_kept
  have unsent_known {x : Nat} (hx : x ∈ t.unsent) : x < t.posts.length :=
    filed.unsent_known (List.mem_append_right _ hx)
  have old_or_new : (t.waiting ++ d.ticket t).Nodup := by
    refine List.nodup_append.mpr ⟨filed.distinct, ?_, ?_⟩
    · cases d <;> simp [Deed.ticket]
    · rintro x hx _ hy rfl
      have := Undelivered.known ((filed.mem_waiting x).mp hx)
      have := (Deed.mem_ticket hy).1
      omega
  obtain ⟨done, perm, undelivered⟩ := h.waiting
  have apart : (u.waiting ++ done).Nodup := perm.nodup_iff.mpr old_or_new
  have mem_waiting (x : Nat) : x ∈ u.waiting ↔ u.Undelivered x := by
    have mem := perm.mem_iff (a := x)
    have clear := (List.nodup_append.mp apart).2.2 x
    have before := filed.mem_waiting x
    rw [undelivered, ← show _ ↔ t.Undelivered x from before]
    rw [List.mem_append, List.mem_append] at mem
    constructor
    · intro hx
      exact ⟨mem.mp (.inl hx), fun hd => clear hx x hd rfl⟩
    · rintro ⟨hx, hd⟩
      exact (mem.mpr hx).resolve_right hd
  refine ⟨?known, mem_waiting, (List.nodup_append.mp apart).1, ?own, ?sorted, ?line, ?newest, ?past,
    ?sent, ?refused, ?ascending⟩
  case known =>
    intro x hx
    rcases h.wire with same | ⟨y, writing, one, -⟩
    · exact Nat.lt_of_lt_of_le (filed.known x (same ▸ hx)) grow
    · rw [one] at hx
      rcases List.mem_append.mp hx with hx | hx
      · exact Nat.lt_of_lt_of_le (filed.known x hx) grow
      · exact Nat.lt_of_lt_of_le (unsent_known (writing ▸ hx)) grow
  case own =>
    intro c' there x hx
    have waits : x ∈ u.waiting := by simpa [Traffic.waiting, there] using hx
    have before := perm.subset (List.mem_append_left _ waits)
    rcases h.connected there with ⟨c, here, number, -⟩ | ⟨-, new, -⟩
    · rcases List.mem_append.mp before with old | new
      · have known := Undelivered.known ((filed.mem_waiting x).mp old)
        rw [origin?_of_kept h.origins_kept known, number]
        exact filed.own c here x (by simpa [Traffic.waiting, here] using old)
      · obtain ⟨rfl, a, p, rfl⟩ := Deed.mem_ticket new
        rcases h.origins with ⟨-, notPost⟩ | ⟨c₀, a', p', -, here', added⟩
        · exact absurd rfl (notPost a p)
        · obtain rfl := Option.some.inj (here.symm.trans here')
          rw [← getElem?_origins, added, ← length_origins]
          simp [number]
    · rw [new, waiting_fresh] at hx
      exact absurd hx (by simp)
  case sorted =>
    intro line x hx
    rcases h.mem_queue hx with old | ⟨-, isLine⟩
    · rw [isLine_of_kept h.origins_kept (filed.queue_known old)]
      exact filed.sorted line x old
    · exact isLine
  case line =>
    intro c' x there held
    rcases h.held there held with ⟨c, here, before⟩ | first | ⟨writing, isLine⟩
    · have waits : x ∈ t.waiting := by
        rcases before with stage | ⟨f, stage⟩ <;>
          simp [Traffic.waiting, here, Connection.waiting, stage, WriterStage.ticket?]
      rw [isLine_of_kept h.origins_kept (Undelivered.known ((filed.mem_waiting x).mp waits))]
      exact filed.line c x here before
    · rw [isLine_of_kept h.origins_kept (filed.queue_known first)]
      exact filed.sorted true x first
    · rw [isLine_of_kept h.origins_kept (unsent_known (by simp [writing]))]
      exact isLine
  case newest =>
    intro c' there
    rcases h.connected there with ⟨c, here, number, opened⟩ | ⟨-, new, opened⟩
    · rw [number, opened]
      exact filed.newest c here
    · rw [opened, new]
      exact Nat.lt_succ_self _
  case past =>
    intro o ho
    rcases h.origins with ⟨same, -⟩ | ⟨c, a, p, -, here, added⟩
    · exact Nat.lt_of_lt_of_le (filed.past o (same ▸ ho)) h.opened_le
    · rw [added] at ho
      rcases List.mem_append.mp ho with ho | ho
      · exact Nat.lt_of_lt_of_le (filed.past o ho) h.opened_le
      · rw [List.mem_singleton.mp ho]
        exact Nat.lt_of_lt_of_le (filed.newest c here) h.opened_le
  case sent =>
    intro x told
    rcases h.delivered told with before | ⟨-, ⟨-, rfl⟩ | ⟨w, other, -⟩ | ⟨other, -⟩⟩
    · exact h.wire_kept.subset (filed.sent x before)
    · cases h
      simp
    · exact absurd other (by simp)
    · exact absurd other (by simp)
  case refused =>
    intro x told onWire
    rcases h.delivered told with before | ⟨-, ⟨other, -⟩ | ⟨w, hw, byWriter, atWriter⟩ | ⟨other, -⟩⟩
    · -- what was refused before does not wait, so it does not go over the wire now
      have notBefore := filed.refused x before
      rcases h.wire with same | ⟨y, writing, one, -⟩
      · exact notBefore (same ▸ onWire)
      · rw [one] at onWire
        obtain rfl := List.mem_singleton.mp ((List.mem_append.mp onWire).resolve_left notBefore)
        obtain ⟨p, found, open_⟩ :=
          (filed.mem_waiting x).mp (mem_waiting_of_unsent (by simp [writing]))
        simp [Traffic.delivery?, found, open_] at before
    · exact absurd other (by simp)
    · -- what is refused now does not go over the wire now
      obtain rfl := (Delivery.failed.inj hw)
      have notBefore := filed.not_mem_wire (atWriter rfl)
      rcases h.wire with same | ⟨y, -, -, act⟩
      · exact notBefore (same ▸ onWire)
      · rcases act with rfl | rfl <;> simp at byWriter
    · exact absurd other (by simp)
  case ascending =>
    intro line
    refine List.Pairwise.sublist (h.course filed line) ?_
    refine List.pairwise_append.mpr ⟨filed.ascending line, ?_, ?_⟩
    · cases d <;> simp [Deed.ticket]
    · intro x hx y hy
      obtain ⟨rfl, -⟩ := Deed.mem_ticket hy
      rcases List.mem_append.mp hx with hx | hx
      · exact filed.unsent_known (List.mem_of_mem_filter hx)
      · exact filed.queue_known hx

/-! ## Runs -/

/-- What became of a payload never changes again. -/
theorem Move.told (h : Move t d u) (filed : t.Filed) {x : Nat} {f : Delivery}
    (told : t.delivery? x = some f) : u.delivery? x = some f := by
  have settled : ¬ t.Undelivered x := by
    rintro ⟨p, found, open_⟩
    simp [Traffic.delivery?, found, open_] at told
  obtain ⟨p, found, -⟩ := Option.bind_eq_some_iff.mp told
  have known : x < t.posts.length := (List.getElem?_eq_some_iff.mp found).1
  obtain ⟨done, -, undelivered⟩ := h.waiting
  have there : u.delivery? x ≠ none := by
    intro none
    have inside := Nat.lt_of_lt_of_le known (length_le_of_kept h.origins_kept)
    have still : u.Undelivered x := ⟨u.posts[x], by simp [inside], by
      simpa [Traffic.delivery?, inside] using none⟩
    rcases ((undelivered x).mp still).1 with before | new
    · exact settled before
    · exact Nat.ne_of_lt known (Deed.mem_ticket new).1
  obtain ⟨g, hg⟩ := Option.ne_none_iff_exists'.mp there
  rcases h.delivered hg with before | ⟨waits, -⟩
  · rw [hg, ← before, told]
  · exact absurd ((filed.mem_waiting x).mp waits) settled

/-- **How a later traffic differs from an earlier one.** What is known stays, and every course only
loses tickets and gets new ones at its end. -/
structure Onward (t u : Traffic) : Prop where
  wire : t.wire <+: u.wire
  origins : t.origins <+: u.origins
  opened : t.opened ≤ u.opened
  told : ∀ x f, t.delivery? x = some f → u.delivery? x = some f
  course : ∀ line, ∃ new, (u.course line).Sublist (t.course line ++ new)
    ∧ ∀ x ∈ new, t.posts.length ≤ x

theorem Onward.refl (t : Traffic) : t.Onward t where
  wire := List.prefix_rfl
  origins := List.prefix_rfl
  opened := Nat.le_refl _
  told _ _ h := h
  course line := ⟨[], by simp, by simp⟩

theorem Onward.trans (h : t.Onward u) (k : u.Onward v) : t.Onward v where
  wire := h.wire.trans k.wire
  origins := h.origins.trans k.origins
  opened := Nat.le_trans h.opened k.opened
  told x f known := k.told x f (h.told x f known)
  course line := by
    obtain ⟨xs, first, new⟩ := h.course line
    obtain ⟨ys, second, newer⟩ := k.course line
    refine ⟨xs ++ ys, ?_, ?_⟩
    · rw [← List.append_assoc]
      exact second.trans (first.append (List.Sublist.refl ys))
    · intro x hx
      rcases List.mem_append.mp hx with hx | hx
      · exact new x hx
      · exact Nat.le_trans (length_le_of_kept h.origins) (newer x hx)

theorem Move.onward (h : Move t d u) (filed : t.Filed) : t.Onward u where
  wire := h.wire_kept
  origins := h.origins_kept
  opened := h.opened_le
  told _ _ known := h.told filed known
  course line := by
    refine ⟨d.ticket t, h.course filed line, ?_⟩
    intro x hx
    exact Nat.le_of_eq (Deed.mem_ticket hx).1.symm

theorem Moves.onward (h : Moves t ds u) (filed : t.Filed) : u.Filed ∧ t.Onward u := by
  induction h with
  | nil t => exact ⟨filed, .refl t⟩
  | cons first _ ih =>
    obtain ⟨there, onward⟩ := ih (first.filed filed)
    exact ⟨there, (first.onward filed).trans onward⟩

end Traffic

namespace Session

/-- In a session that has done nothing, every ticket is where it belongs. -/
theorem filed_initial (timeout : Option Nat) : (initial timeout).link.traffic.Filed := by
  constructor <;>
    simp [initial, Link.initial, Link.traffic, Traffic.waiting, Traffic.queue, Traffic.origins,
      Traffic.delivery?, Traffic.course, Traffic.unsent]

/-- **Every run goes onward**, and leaves every ticket where it belongs. -/
theorem onward_after {s : Session} (filed : s.link.traffic.Filed) (es : List Event) :
    (s.after es).link.traffic.Filed ∧ s.link.traffic.Onward (s.after es).link.traffic := by
  induction es generalizing s with
  | nil => exact ⟨filed, .refl _⟩
  | cons e es ih =>
    obtain ⟨ds, moves, -⟩ := next_trades s e
    obtain ⟨there, onward⟩ := moves.onward filed
    obtain ⟨last, further⟩ := ih there
    exact ⟨last, onward.trans further⟩

/-- Every event goes onward. -/
theorem onward_next {s : Session} (filed : s.link.traffic.Filed) (e : Event) :
    (s.next e).link.traffic.Filed ∧ s.link.traffic.Onward (s.next e).link.traffic :=
  onward_after filed [e]

/-- In every session that can be reached, every ticket is where it belongs. -/
theorem filed_after (timeout : Option Nat) (es : List Event) :
    ((initial timeout).after es).link.traffic.Filed :=
  (onward_after (filed_initial timeout) es).1

end Session

end Cnc
