import Cnc.Proofs.Pairing
import Cnc.Proofs.Reachable
import Cnc.Proofs.Tries

/-!
# The slot of a line that fails

A line takes its slot, behind all others, before it is written. If the write
or the flush fails, the writer removes the last slot without looking whose it
is. Between the two anything may happen to the slots: the reader gives away
what the device answers, also answers that nobody asked for, and a soft reset
clears them all.

The slot that is removed is the line's own if that is still there, and if it
is not then there is none to be removed (`Session.gives_up_own_slot`). Nothing
is put behind the slot of a line while the line is at the writer, because only
the writer makes slots and it makes none then; so until the writer goes on, the
slots only go away from the front (`Session.slots_while_held`), and the line's
own goes last.
-/

namespace Cnc

namespace Traffic

variable {t u : Traffic} {d : Deed} {ds : List Deed} {c c' : Connection} {n x : Nat}
  {f : WriteFault} {slots : List Nat}

/-! ## While a line is at the writer -/

/-- **The writer of the connection `n` has placed `x` and is not done with it**, and the slots are
what is left of earlier ones. -/
def HoldsAmong (t : Traffic) (n x : Nat) (slots : List Nat) : Prop :=
  ∃ c, t.connection = some c ∧ c.number = n ∧ c.writer.holder? = some x ∧ c.slots <:+ slots

/-- **Every move takes slots from the front**, as long as the writer is not done with what it has
placed; when it is done, it is known what became of that. -/
theorem Move.holdsAmong (h : Move t d u) (filed : t.Filed) (holds : t.HoldsAmong n x slots) :
    (∃ g, u.delivery? x = some g) ∨ u.HoldsAmong n x slots := by
  obtain ⟨c, here, number, held, left⟩ := holds
  have known := (filed.delivery?_of_ticket here (WriterStage.ticket?_of_holder? held)).1
  have still {c' : Connection} (there : u.connection = some c') (same : c'.number = c.number)
      (writer : c'.writer.holder? = some x) (fewer : c'.slots <:+ c.slots) :
      (∃ g, u.delivery? x = some g) ∨ u.HoldsAmong n x slots :=
    .inr ⟨c', there, same.trans number, writer, fewer.trans left⟩
  have unique {c' : Connection} (here' : t.connection = some c') : c' = c :=
    Option.some.inj (here'.symm.trans here)
  cases h with
  | post _ _ here' =>
    obtain rfl := unique here'
    exact still rfl (by simp) (by simpa using held) (by simp)
  | device _ here' =>
    obtain rfl := unique here'
    exact still rfl (by simp) (by simpa using held) (by simp)
  | poll _ here' | chore here' | timeout here' | read here' =>
    obtain rfl := unique here'
    exact still rfl rfl held List.suffix_rfl
  | settle here' =>
    obtain rfl := unique here'
    exact still rfl rfl held (List.tail_suffix _)
  | clear here' =>
    obtain rfl := unique here'
    exact still rfl rfl held List.nil_suffix
  | takeRealtime here' stage | takeLine here' stage | place here' stage =>
    obtain rfl := unique here'
    exact absurd held (by simp [stage, WriterStage.holder?])
  | refuseLine here' stage | spoilLine here' stage =>
    obtain rfl := unique here'
    exact still rfl rfl (by simpa [stage, WriterStage.holder?] using held) List.suffix_rfl
  | send here' stage | refuseRealtime here' stage | spoilRealtime here' stage =>
    obtain rfl := unique here'
    obtain rfl : _ = x := by simpa [stage, WriterStage.holder?] using held
    exact .inl ⟨_, delivery?_markDelivered known _⟩
  | giveUp here' stage =>
    obtain rfl := unique here'
    obtain rfl : _ = x := by simpa [stage, WriterStage.holder?] using held
    exact .inl ⟨_, delivery?_markDelivered (by simpa [mark] using known) _⟩
  | @close c₁ here' =>
    obtain rfl := unique here'
    have waits : x ∈ c₁.waiting := by
      simp [Connection.waiting, WriterStage.ticket?_of_holder? held]
    exact .inl ⟨.lost, by simp [Traffic.delivery?, getElem?_mark, known, waits]⟩
  | «open» port closed => exact absurd (closed.symm.trans here) (by simp)

/-! ## The slot at the back -/

/-- A line at the writer has its slot as long as it is not answered. -/
theorem Slotted.mem_slots_iff (slotted : t.Slotted) (here : t.connection = some c)
    (held : c.writer.holder? = some x) (line : t.isLine x = true) :
    x ∈ c.slots ↔ t.answer? x = none := by
  constructor
  · intro slot
    have own : x ∈ t.slots := by simpa [Traffic.slots, here] using slot
    exact slotted.unanswered_of_slots own
  · intro unanswered
    have last := slotted.getLast? here held line
    rw [Traffic.unanswered, unanswered] at last
    exact List.mem_of_getLast? last

/-- **The slots without the last one** are those without the line's own: if it has one, it is the
last, and if it has none, there are none. -/
theorem Slotted.dropLast_slots (slotted : t.Slotted) (filed : t.Filed)
    (here : t.connection = some c) (held : c.writer.holder? = some x) (line : t.isLine x = true) :
    (c.slots = c.slots.dropLast ++ if x ∈ c.slots then [x] else []) ∧ x ∉ c.slots.dropLast := by
  have last := slotted.getLast? here held line
  have own := slotted.mem_slots_iff here held line
  cases answer : t.answer? x with
  | some a =>
    rw [Traffic.unanswered, answer] at last
    have none : c.slots = [] := List.getLast?_eq_none_iff.mp last
    simp [none]
  | none =>
    rw [Traffic.unanswered, answer] at last
    obtain ⟨others, parts⟩ := List.getLast?_eq_some_iff.mp last
    have apart : c.slots.Nodup := by
      have ascending := filed.placed_ascending.filter t.unanswered
      rw [← slotted.slots, Traffic.slots, here] at ascending
      exact ascending.imp Nat.ne_of_lt
    rw [parts, List.nodup_append] at apart
    rw [if_pos (own.mpr answer), parts, List.dropLast_concat]
    exact ⟨rfl, fun inside => apart.2.2 x inside x (List.mem_singleton_self x) rfl⟩

/-- **What giving up a place answers**: the line itself, if it has a slot, and no other. -/
theorem Move.answer?_giveUp (h : Move t (.giveUp x) u) (slotted : t.Slotted) (filed : t.Filed)
    (here : t.connection = some c) (held : c.writer.holder? = some x) (line : t.isLine x = true)
    (y : Nat) :
    u.answer? y = if y = x ∧ x ∈ c.slots then some .lost else t.answer? y := by
  have known := (filed.delivery?_of_ticket here (WriterStage.ticket?_of_holder? held)).1
  have answered : y ∈ Deed.answered (.giveUp x) t ↔ y = x ∧ x ∈ c.slots := by
    simp only [Deed.answered, Traffic.slots, here, Option.map_some, Option.getD_some,
      slotted.getLast? here held line, slotted.mem_slots_iff here held line, Traffic.unanswered,
      Option.isNone_iff_eq_none]
    split <;> simp_all
  rw [h.answer?]
  by_cases own : y = x ∧ x ∈ c.slots
  · rw [if_pos own, if_pos ⟨answered.mpr own, own.1 ▸ known⟩]
    rfl
  · rw [if_neg own, if_neg fun both => own (answered.mp both.1)]

/-- **Nothing but giving up its slot** takes a failed line from the writer of an open connection. -/
theorem Move.failed_kept (h : Move t d u) (here : t.connection = some c)
    (failed : c.writer = .failed x f) (there : u.connection = some c') :
    c'.writer = .failed x f ∨ d = .giveUp x ∧ c'.writer = .idle ∧ c'.slots = c.slots.dropLast := by
  have unique {c₁ : Connection} (here' : t.connection = some c₁) : c₁ = c :=
    Option.some.inj (here'.symm.trans here)
  cases h with
  | post _ _ here' | device _ here' =>
    obtain rfl := unique here'
    obtain rfl := Option.some.inj there
    exact .inl (by simpa using failed)
  | poll _ here' | chore here' | timeout here' | read here' | settle here' | clear here' =>
    obtain rfl := unique here'
    obtain rfl := Option.some.inj there
    exact .inl failed
  | giveUp here' stage =>
    obtain rfl := unique here'
    obtain rfl := Option.some.inj there
    obtain ⟨rfl, -⟩ := WriterStage.failed.inj (stage.symm.trans failed)
    exact .inr ⟨rfl, rfl, rfl⟩
  | takeRealtime here' stage | takeLine here' stage | place here' stage | send here' stage
  | refuseLine here' stage | refuseRealtime here' stage | spoilLine here' stage
  | spoilRealtime here' stage =>
    obtain rfl := unique here'
    exact absurd (stage.symm.trans failed) (by simp)
  | close => exact absurd there (by simp)
  | «open» port closed => exact absurd (closed.symm.trans here) (by simp)

/-- Handing something over and asking for the status leave the writer where it is. -/
theorem Moves.writer_kept (h : Moves t ds u) (here : t.connection = some c)
    (quiet : ∀ d ∈ ds, (∃ a p, d = .post a p) ∨ d = .poll) :
    ∃ c', u.connection = some c' ∧ c'.writer = c.writer := by
  induction h generalizing c with
  | nil => exact ⟨c, here, rfl⟩
  | @cons t v u d ds first _ ih =>
    obtain ⟨c₁, next, same⟩ : ∃ c₁, v.connection = some c₁ ∧ c₁.writer = c.writer := by
      rcases quiet d List.mem_cons_self with ⟨a, p, rfl⟩ | rfl
      · cases first with
        | post _ _ here' =>
          obtain rfl := Option.some.inj (here'.symm.trans here)
          exact ⟨_, rfl, Connection.enqueue_writer ..⟩
      · cases first with
        | poll _ here' =>
          obtain rfl := Option.some.inj (here'.symm.trans here)
          exact ⟨_, rfl, rfl⟩
    obtain ⟨c', there, kept⟩ := ih next fun d hd => quiet d (List.mem_cons_of_mem _ hd)
    exact ⟨c', there, kept.trans same⟩

end Traffic

namespace Session

open Traffic

variable {s : Session} {c c' : Connection} {n x : Nat} {f : WriteFault} {slots : List Nat}

/-! ## Runs -/

/-- **While the writer holds a line**, slots only go away from the front, whatever happens; it holds
the line until it is known what became of it. -/
theorem slots_while_held (filed : s.link.traffic.Filed)
    (holds : s.link.traffic.HoldsAmong n x slots) (es : List Event) :
    (∃ g, (s.after es).link.delivery? x = some g) ∨
      (s.after es).link.traffic.HoldsAmong n x slots := by
  have kept {t u : Traffic} {d : Deed} (move : Move t d u) (before : t.Filed ∧
      ((∃ g, t.delivery? x = some g) ∨ t.HoldsAmong n x slots)) :
      u.Filed ∧ ((∃ g, u.delivery? x = some g) ∨ u.HoldsAmong n x slots) := by
    refine ⟨move.filed before.1, ?_⟩
    rcases before.2 with ⟨g, told⟩ | holds
    · exact .inl ⟨g, move.told before.1 told⟩
    · exact move.holdsAmong before.1 holds
  refine (after_induction (P := fun s => s.link.traffic.Filed ∧
    ((∃ g, s.link.traffic.delivery? x = some g) ∨ s.link.traffic.HoldsAmong n x slots))
    ⟨filed, .inr holds⟩ (fun t e before => ?_) es).2
  obtain ⟨ds, moves, -⟩ := next_trades t e
  exact moves.induction before kept

/-- **A failed line stays at the writer** until a turn of the writer in which its slot is given
up. -/
theorem next_failed (s : Session) (e : Event) (here : s.link.connection = some c)
    (failed : c.writer = .failed x f) (there : (s.next e).link.connection = some c') :
    c'.writer = .failed x f ∨ e = .act .writer ∧ c'.writer = .idle ∧
      c'.slots = c.slots.dropLast ∧ Move s.link.traffic (.giveUp x) (s.next e).link.traffic := by
  by_cases poller : ∀ n, e ≠ .act (.poller n)
  · rcases next_makes s poller with same | ⟨d, move, does⟩
    · have connection : (s.next e).link.connection = s.link.connection :=
        congrArg Traffic.connection same
      obtain rfl := Option.some.inj (there.symm.trans (connection.trans here))
      exact .inl failed
    · rcases move.failed_kept here failed there with stays | ⟨rfl, idle, fewer⟩
      · exact .inl stays
      · cases does
        exact .inr ⟨rfl, idle, fewer, move⟩
  · obtain ⟨n, rfl⟩ := not_forall_not.mp poller
    obtain ⟨ds, moves, quiet⟩ := poller_trades s n
    obtain ⟨c₁, there', same⟩ := moves.writer_kept here quiet
    obtain rfl := Option.some.inj (there.symm.trans there')
    exact .inl (same.trans failed)

/-- **The writer gives up the slot of the failed line `x`** in its turn, and goes on. -/
structure GivesUp (s : Session) (e : Event) (c c' : Connection) (x : Nat) : Prop where
  turn : e = .act .writer
  idle : c'.writer = .idle
  /-- What is removed from the back is the slot of the line, if it has one. -/
  slots : c.slots = c'.slots ++ if x ∈ c.slots then [x] else []
  gone : x ∉ c'.slots
  /-- Nobody else loses an answer. -/
  answers : ∀ y, (s.next e).link.answer? y
    = if y = x ∧ x ∈ c.slots then some .lost else s.link.answer? y

/-- **A failed write removes only its own slot.** Take any run in which a line has its slot, and any
run from there to where its write or flush has failed. Meanwhile the slots only went away from the
front, so the line's own is still there exactly if it is not answered. The session cannot come to
rest before the writer has had its turn, and whatever happens next, the line stays at the writer or
the writer removes from the back its slot if it is still there, and otherwise nothing. -/
theorem gives_up_own_slot (timeout : Option Nat) (es fs : List Event)
    (before : ((initial timeout).after es).link.connection = some c)
    (placed : c.writer.holder? = some x)
    (here : (((initial timeout).after es).after fs).link.connection = some c')
    (failed : c'.writer = .failed x f) :
    let s := ((initial timeout).after es).after fs
    c'.number = c.number ∧ c'.slots <:+ c.slots ∧
      (x ∈ c'.slots ↔ s.link.answer? x = none) ∧
      ¬ s.Quiescent ∧
      ∀ e c'', (s.next e).link.connection = some c'' →
        c''.writer = .failed x f ∨ s.GivesUp e c' c'' x := by
  intro s
  have start := Reachable.of_run timeout es
  have reachable : s.Reachable := start.after fs
  have held : c'.writer.holder? = some x := by rw [failed]; rfl
  have line : s.link.traffic.isLine x = true := reachable.filed.line c' x here (.inr ⟨f, failed⟩)
  have slotted := reachable.slotted
  -- what is at the writer is not delivered, so it has been there all the time
  have undelivered := (reachable.filed.delivery?_of_ticket here
    (WriterStage.ticket?_of_holder? held)).2
  obtain ⟨c₁, here', number, -, left⟩ : s.link.traffic.HoldsAmong c.number x c.slots :=
    (slots_while_held start.filed ⟨c, before, rfl, placed, List.suffix_rfl⟩ fs).resolve_left
      fun ⟨g, told⟩ => absurd (undelivered.symm.trans told) (by simp)
  obtain rfl := Option.some.inj (here'.symm.trans here)
  refine ⟨number, left, slotted.mem_slots_iff here held line, fun rest => ?busy,
    fun e c'' there => ?next⟩
  case busy =>
    have waits := reachable.quiescent_iff.mp rest .writer
    rw [Waits, here] at waits
    simp [failed] at waits
  case next =>
    rcases next_failed s e here failed there with stays | ⟨turn, idle, fewer, move⟩
    · exact .inl stays
    · obtain ⟨parts, apart⟩ := slotted.dropLast_slots reachable.filed here held line
      exact .inr ⟨turn, idle, fewer ▸ parts, fewer ▸ apart,
        move.answer?_giveUp slotted reachable.filed here held line⟩

/-- A line is sent, and the next one has its slot and is being written. -/
def secondLine : List Event :=
  Event.swift 0 (.connect "/dev/mock0" none) ++ Event.swift 1 (.writeAcked "G0 X1") ++
    List.replicate 3 (.act .writer) ++ Event.swift 2 (.writeAcked "G0 X2") ++
    List.replicate 2 (.act .writer)

/-- The device refuses the line, but says that it is fine with a number of lines before the writer
has its turn. -/
def contestedLine (answers : Nat) : List Event :=
  .device 3 (.failWrites 1) :: .act .writer ::
    .device 4 (.send (List.replicate answers "ok\n".toUTF8.toList).flatten) ::
    List.replicate (2 + 4 * answers) (.act .reader)

/-- After one answer the refused line gives up its slot; after two, of which the second is nobody's,
it has none to give up. -/
theorem gives_up_own_slot_contestedLine :
    let s (answers : Nat) := ((initial none).after secondLine).after (contestedLine answers)
    (∃ c c', (s 1).link.connection = some c ∧ c.slots = [1] ∧
      ((s 1).next (.act .writer)).link.connection = some c' ∧ c'.slots = [] ∧
      (s 1).GivesUp (.act .writer) c c' 1) ∧
    ∃ c c', (s 2).link.connection = some c ∧ c.slots = [] ∧
      ((s 2).next (.act .writer)).link.connection = some c' ∧ c'.slots = [] ∧
      (s 2).GivesUp (.act .writer) c c' 1 := by
  intro s
  have first : ((initial none).after secondLine).link.connection.map (·.writer)
      = some (.writing 1) := by decide +kernel
  obtain ⟨c₀, before, writing⟩ := Option.map_eq_some_iff.mp first
  have gives {answers : Nat} {rest : List Nat}
      (now : (s answers).link.connection.map (fun c => (c.writer, c.slots))
        = some (.failed 1 .write, rest))
      (later : ((s answers).next (.act .writer)).link.connection.map (fun c => (c.writer, c.slots))
        = some (.idle, [])) :
      ∃ c c', (s answers).link.connection = some c ∧ c.slots = rest ∧
        ((s answers).next (.act .writer)).link.connection = some c' ∧ c'.slots = [] ∧
        (s answers).GivesUp (.act .writer) c c' 1 := by
    obtain ⟨c, here, stage⟩ := Option.map_eq_some_iff.mp now
    obtain ⟨c', there, done⟩ := Option.map_eq_some_iff.mp later
    obtain ⟨failed, slots⟩ := Prod.mk.inj stage
    obtain ⟨idle, none⟩ := Prod.mk.inj done
    have next := (gives_up_own_slot _ secondLine (contestedLine answers) before
      (by rw [writing]; rfl) here failed).2.2.2.2 (.act .writer) c' there
    exact ⟨c, c', here, slots, there, none, next.resolve_left fun stays => by simp [idle] at stays⟩
  exact ⟨gives (by decide +kernel) (by decide +kernel),
    gives (by decide +kernel) (by decide +kernel)⟩

end Session

end Cnc
