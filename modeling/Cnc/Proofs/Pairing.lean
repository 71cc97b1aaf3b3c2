import Cnc.Proofs.Slots

/-!
# Answers in order

From a moment at which no answer is expected, the lines that go over the wire
and the answers that are given away are two sequences. As long as nothing but
answers and failed writes takes slots away, and there are never more answers
than lines, the two are paired by position: the answers given so far are those
to the first lines, and the slots are those of the other lines, followed by
the slot of the line that is being written (`Traffic.Paired`).
-/

namespace Cnc

/-- The answer that a deed gives away. -/
def Traffic.Deed.ack? : Deed → Option Ack
  | .settle a => some a
  | _ => none

namespace Traffic

variable {t₀ t u v : Traffic} {d : Deed} {ds : List Deed} {given : List Ack}

/-- The lines that went over the wire since an earlier moment. -/
def receivedSince (t₀ t : Traffic) : List Nat := (t.wire.drop t₀.wire.length).filter t.isLine

/-- No answer is expected, and no line is about to get one. -/
structure Quiet (t : Traffic) : Prop where
  slots : t.slots = []
  free : t.placing = []
  steady : t.Steady

/-- Whether a deed leaves the connection and its slots to the answers and the writer, and the
device takes a payload whole or not at all. -/
def Deed.orderly : Deed → Bool
  | .clear | .close | .open => false
  | .device (.failFlushes n) => n = 0
  | _ => true

theorem Deed.whole_of_orderly (orderly : d.orderly = true) {n : Nat}
    (device : d = .device (.failFlushes n)) : n = 0 := by
  subst device
  simpa [Deed.orderly] using orderly

/-- **The answers since `t₀` are paired with the lines since `t₀`.** -/
structure Paired (t₀ t : Traffic) (given : List Ack) : Prop where
  enough : given.length ≤ (t₀.receivedSince t).length
  slots : t.slots = (t₀.receivedSince t).drop given.length ++ t.placing
  answers : ∀ (j x : Nat), (t₀.receivedSince t)[j]? = some x →
    t.answer? x = (given[j]?).map .ack
  /-- No other line has been answered since. -/
  only : ∀ x a, t.answer? x = some (.ack a) →
    t₀.answer? x = some (.ack a) ∨ x ∈ t₀.receivedSince t
  steady : t.Steady

/-- Nothing was sent and nothing answered since this very moment. -/
theorem Quiet.paired (quiet : t.Quiet) : t.Paired t [] := by
  have nothing : t.receivedSince t = [] := by simp [receivedSince]
  exact ⟨by simp, by simp [nothing, quiet.slots, quiet.free], by simp [nothing],
    fun x a told => .inl told, quiet.steady⟩

theorem receivedSince_ascending (filed : t.Filed) (t₀ : Traffic) :
    (t₀.receivedSince t).Pairwise (· < ·) := by
  have ascending := filed.placed_ascending
  refine ascending.sublist ?_
  exact ((List.drop_sublist _ _).filter _).trans (List.sublist_append_left _ _)

theorem receivedSince_eq (h : Move t d u) (filed : t.Filed) (same : u.wire = t.wire) :
    t₀.receivedSince u = t₀.receivedSince t := by
  unfold receivedSince
  rw [same]
  refine List.filter_congr fun x hx => ?_
  rw [isLine_of_kept h.origins_kept (filed.known x (List.mem_of_mem_drop hx))]

/-- The lines since `t₀` when one more payload has gone over the wire. -/
theorem receivedSince_append (since : t₀.wire <+: t.wire) {x : Nat} (isLine : u.isLine = t.isLine)
    (one : u.wire = t.wire ++ [x]) :
    t₀.receivedSince u = t₀.receivedSince t ++ [x].filter t.isLine := by
  unfold receivedSince
  rw [one, isLine, List.drop_append_of_le_length since.length_le, List.filter_append]

theorem Slotted.unanswered_of_slots (slotted : t.Slotted) {x : Nat} (h : x ∈ t.slots) :
    t.answer? x = none := by
  rw [slotted.slots, List.mem_filter, Traffic.unanswered, Option.isNone_iff_eq_none] at h
  exact h.2

/-- A payload goes over the wire. -/
theorem Paired.send {x : Nat} (paired : t₀.Paired t given) (h : Move t (.send x) u)
    (slotted : t.Slotted) (since : t₀.wire <+: t.wire) : t₀.Paired u given := by
  have isLine := isLine_of_origins (h.origins.resolve_right (by simp)).1
  have answers := h.answer?_eq rfl
  have received : t₀.receivedSince u = t₀.receivedSince t ++ t.placing := by
    cases h with
    | send here writing =>
      rw [receivedSince_append since isLine rfl]
      simp [Traffic.placing, here, writing, WriterStage.placed?]
  have slots : u.slots = t.slots ∧ u.placing = [] := by
    cases h with
    | send here => simp [Traffic.slots, Traffic.placing, here, WriterStage.placed?]
  refine ⟨?enough, ?slots, ?answers, ?only, h.steady paired.steady (by simp)⟩
  case enough =>
    rw [received, List.length_append]
    exact Nat.le_add_right_of_le paired.enough
  case slots =>
    rw [received, slots.1, slots.2, List.append_nil, paired.slots,
      List.drop_append_of_le_length paired.enough]
  case answers =>
    intro j y hy
    rw [answers]
    rw [received] at hy
    by_cases before : j < (t₀.receivedSince t).length
    · rw [List.getElem?_append_left before] at hy
      exact paired.answers j y hy
    · -- the line that was just sent has its slot, so it is not answered yet
      rw [List.getElem?_append_right (by omega)] at hy
      have slot : y ∈ t.slots := by
        rw [paired.slots]
        exact List.mem_append_right _ (List.mem_of_getElem? hy)
      have later : given[j]? = none :=
        List.getElem?_eq_none (by have := paired.enough; omega)
      rw [slotted.unanswered_of_slots slot, later]
      rfl
  case only =>
    intro y a told
    rw [received]
    rw [answers] at told
    exact (paired.only y a told).imp_right (List.mem_append_left _)

/-- An answer is given away. -/
theorem Paired.settle {a : Ack} (paired : t₀.Paired t given) (h : Move t (.settle a) u)
    (filed : t.Filed) (enough : given.length < (t₀.receivedSince t).length) :
    t₀.Paired u (given ++ [a]) := by
  have received : t₀.receivedSince u = t₀.receivedSince t :=
    receivedSince_eq h filed (by cases h; rfl)
  have placing : u.placing = t.placing := by
    have isLine := isLine_of_origins (h.origins.resolve_right (by simp)).1
    cases h with
    | settle here => simp [Traffic.placing, isLine, here]
  -- the line that gets the answer
  obtain ⟨x, hx⟩ : ∃ x, (t₀.receivedSince t)[given.length]? = some x :=
    ⟨_, List.getElem?_eq_getElem enough⟩
  have first : (t₀.receivedSince t).drop given.length
      = x :: (t₀.receivedSince t).drop (given.length + 1) := by
    rw [List.drop_eq_getElem_cons enough]
    rw [List.getElem?_eq_getElem enough] at hx
    rw [Option.some.inj hx]
  have slots : t.slots = x :: ((t₀.receivedSince t).drop (given.length + 1) ++ t.placing) := by
    rw [paired.slots, first, List.cons_append]
  have answered (y : Nat) : u.answer? y = if y = x then some (.ack a) else t.answer? y := by
    have known : x < t.posts.length := by
      have onWire : x ∈ t.wire :=
        List.mem_of_mem_drop (List.mem_of_mem_filter (List.mem_of_getElem? hx))
      exact filed.known x onWire
    rw [h.answer?, Deed.answered, slots]
    by_cases same : y = x <;> simp [same, known, Deed.answer]
  refine ⟨?enough, ?slots, ?answers, ?only, h.steady paired.steady (by simp)⟩
  case enough =>
    rw [received, List.length_append]
    exact enough
  case slots =>
    rw [received, placing, List.length_append]
    cases h with
    | settle here =>
      have tail := congrArg List.tail slots
      simpa [Traffic.slots, here] using tail
  case answers =>
    intro j y hy
    rw [received] at hy
    rw [answered]
    by_cases same : j = given.length
    · subst same
      obtain rfl := Option.some.inj (hy.symm.trans hx)
      simp
    · have other : y ≠ x := by
        rintro rfl
        have nodup : (t₀.receivedSince t).Nodup :=
          (receivedSince_ascending filed t₀).imp Nat.ne_of_lt
        have inside := (List.getElem?_eq_some_iff.mp hy).1
        exact same ((List.getElem?_inj inside nodup).mp (hy.trans hx.symm))
      rw [if_neg other, paired.answers j y hy]
      by_cases before : j < given.length
      · rw [List.getElem?_append_left before]
      · rw [List.getElem?_eq_none (by omega), List.getElem?_eq_none (by simp; omega)]
  case only =>
    intro y b told
    rw [received]
    rw [answered] at told
    by_cases same : y = x
    · rw [same]
      exact .inr (List.mem_of_getElem? hx)
    · exact paired.only y b (by rwa [if_neg same] at told)

/-- A line gets its place. -/
theorem Paired.place {x : Nat} (paired : t₀.Paired t given) (h : Move t (.place x) u)
    (filed : t.Filed) : t₀.Paired u given := by
  have received : t₀.receivedSince u = t₀.receivedSince t :=
    receivedSince_eq h filed (by cases h; rfl)
  have answers := h.answer?_eq rfl
  have isLine := isLine_of_origins (h.origins.resolve_right (by simp)).1
  have slots : u.slots = t.slots ++ [x] ∧ t.placing = [] ∧ u.placing = [x] := by
    cases h with
    | place here taken =>
      have line : t.isLine x = true := filed.line _ x here (.inl taken)
      simp [Traffic.slots, Traffic.placing, isLine, here, taken, WriterStage.placed?, line]
  refine ⟨?_, ?_, ?_, ?_, h.steady paired.steady (by simp)⟩
  · rw [received]
    exact paired.enough
  · rw [slots.1, slots.2.2, received, paired.slots, slots.2.1, List.append_nil]
  · intro j y
    rw [received, answers]
    exact paired.answers j y
  · intro y a
    rw [received, answers]
    exact paired.only y a

/-- The place of a line that was not sent is given up. -/
theorem Paired.giveUp {x : Nat} (paired : t₀.Paired t given) (h : Move t (.giveUp x) u)
    (filed : t.Filed) : t₀.Paired u given := by
  have received : t₀.receivedSince u = t₀.receivedSince t :=
    receivedSince_eq h filed (by cases h; rfl)
  obtain ⟨c, here, failed⟩ : ∃ c, t.connection = some c ∧ c.writer = .failed x .write := by
    cases h with
    | @giveUp c _ f here failed =>
      cases f with
      | write => exact ⟨c, here, failed⟩
      | flush => exact absurd failed ((paired.steady c here).2 x)
  have placing : t.placing = [x] := by
    have line : t.isLine x = true := filed.line c x here (.inr ⟨_, failed⟩)
    simp [Traffic.placing, here, failed, WriterStage.placed?, line]
  have unsent : x ∉ t.wire :=
    filed.not_mem_wire (mem_unsent_of_placing (by simp [placing]))
  have slots : u.slots = t.slots.dropLast ∧ u.placing = [] := by
    cases h with
    | giveUp here => simp [Traffic.slots, Traffic.placing, here, WriterStage.placed?]
  have answers (y : Nat) (other : y ≠ x) : u.answer? y = t.answer? y := by
    have last : t.slots.getLast? = some x := by
      rw [paired.slots, placing, List.getLast?_concat]
    rw [h.answer?, Deed.answered, last]
    simp [other]
  have apart {y : Nat} (hy : y ∈ t₀.receivedSince t) : y ≠ x := fun same =>
    unsent (same ▸ List.mem_of_mem_drop (List.mem_of_mem_filter hy))
  refine ⟨?enough, ?slots, ?answers, ?only, h.steady paired.steady (by simp)⟩
  case enough =>
    rw [received]
    exact paired.enough
  case slots =>
    rw [received, slots.1, slots.2, paired.slots, placing, List.dropLast_concat, List.append_nil]
  case answers =>
    intro j y hy
    rw [received] at hy
    rw [answers y (apart (List.mem_of_getElem? hy))]
    exact paired.answers j y hy
  case only =>
    intro y a told
    rw [received]
    by_cases same : y = x
    · subst same
      have lost : u.answer? y = some .lost := by
        have last : t.slots.getLast? = some y := by
          rw [paired.slots, placing, List.getLast?_concat]
        have known : y < t.posts.length :=
          filed.placed_known (by simp [Traffic.placed, placing])
        rw [h.answer?, Deed.answered, last]
        simp [known, Deed.answer]
      rw [lost] at told
      exact absurd told (by simp)
    · exact paired.only y a (by rwa [answers y same] at told)

/-- A move that does nothing to the lines and their slots. -/
theorem Paired.silent (paired : t₀.Paired t given) (h : Move t d u) (filed : t.Filed)
    (orderly : d.orderly = true) (wire : u.wire = t.wire) (placed : u.placed = t.placed)
    (slots : u.slots = t.slots) (silent : d.answered t = []) : t₀.Paired u given := by
  have since : t₀.receivedSince u = t₀.receivedSince t := receivedSince_eq h filed wire
  have answers := h.answer?_eq silent
  have placing : u.placing = t.placing := by
    unfold Traffic.placed at placed
    rw [h.received_eq filed wire] at placed
    exact List.append_cancel_left placed
  refine ⟨?_, ?_, ?_, ?_, h.steady paired.steady fun n => d.whole_of_orderly orderly⟩
  · rw [since]
    exact paired.enough
  · rw [slots, since, placing]
    exact paired.slots
  · intro j x
    rw [since, answers]
    exact paired.answers j x
  · intro x a
    rw [since, answers]
    exact paired.only x a

/-- **Every orderly move keeps the pairing**, as long as the answers do not outnumber the lines. -/
theorem Paired.move (paired : t₀.Paired t given) (h : Move t d u) (filed : t.Filed)
    (slotted : t.Slotted) (since : t₀.wire <+: t.wire) (orderly : d.orderly = true)
    (enough : (given ++ d.ack?.toList).length ≤ (t₀.receivedSince u).length) :
    t₀.Paired u (given ++ d.ack?.toList) := by
  have move := h
  have nothing (quiet : d.ack? = none) : given ++ d.ack?.toList = given := by simp [quiet]
  have placed_eq := h.placed_eq filed
  have steady := paired.steady
  cases h with
  | send =>
    rw [nothing rfl]
    exact paired.send move slotted since
  | place =>
    rw [nothing rfl]
    exact paired.place move filed
  | giveUp =>
    rw [nothing rfl]
    exact paired.giveUp move filed
  | @settle c a rest here first =>
    refine paired.settle move filed ?_
    rw [receivedSince_eq move filed rfl, List.length_append] at enough
    exact enough
  | spoilLine here writing free fault | spoilRealtime here writing free fault =>
    exact absurd (steady _ here).1 (Nat.ne_of_gt fault)
  | clear | close | «open» => exact absurd orderly (by simp [Deed.orderly])
  | device _ here | poll _ here | post _ _ here =>
    rw [nothing rfl]
    exact paired.silent move filed orderly rfl (placed_eq (by simp) (by simp) (by simp))
      (by simp [Traffic.slots, here]) rfl
  | _ here =>
    rw [nothing rfl]
    exact paired.silent move filed orderly rfl (placed_eq (by simp) (by simp) (by simp))
      (by simp [Traffic.slots, here]) rfl

end Traffic

end Cnc
