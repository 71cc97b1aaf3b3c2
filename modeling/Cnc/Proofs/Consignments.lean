import Cnc.Proofs.Slots
import Cnc.Proofs.Control

/-!
# The lines of jobs on their way

The streaming task hands over one line at a time: of each job, also of one
that was stopped, at most one line is on its way (`Traffic.Consigned.one`),
and that is the line after those that went over the wire
(`Traffic.Consigned.next`). This is why the lines of a job go over the wire
in their order, each at most once, although a line that could not be written
is handed over again.

What the streaming task waits for tells how far its job has got
(`Traffic.Stands`).
-/

namespace Cnc

namespace Traffic

variable {t u : Traffic} {d : Deed} {ds : List Deed} {a : Actor} {n cursor : Nat}
  {programs : List (List String)}

/-- The payloads of a sender that went over the wire, in order. -/
def sentBy (t : Traffic) (a : Actor) : List Nat := t.wire.filter fun x => t.sender? x = some a

/-- Whether a payload of a sender is on its way: it is not known yet what became of it. -/
def OnWay (t : Traffic) (a : Actor) (x : Nat) : Prop := t.sender? x = some a ∧ t.Undelivered x

/-- Whether a line was answered by the controller. -/
def Acked (t : Traffic) (x : Nat) : Prop := ∃ a, t.answer? x = some (.ack a)

/-! ## What a move does to the payloads of a sender -/

theorem mem_sentBy {x : Nat} : x ∈ t.sentBy a ↔ x ∈ t.wire ∧ t.sender? x = some a := by
  simp [sentBy]

theorem sender?_of_kept (h : t.origins <+: u.origins) {x : Nat} (known : x < t.posts.length) :
    u.sender? x = t.sender? x := by
  rw [sender?_eq, sender?_eq, origin?_of_kept h known]

theorem known_of_sender? {x : Nat} (h : t.sender? x = some a) : x < t.posts.length := by
  obtain ⟨p, found, -⟩ := Option.map_eq_some_iff.mp h
  exact (List.getElem?_eq_some_iff.mp found).1

/-- A move that posts nothing for a sender gives the sender no payload. -/
theorem Move.sender?_iff (h : Move t d u) (others : ∀ p, d ≠ .post a p) (x : Nat) :
    u.sender? x = some a ↔ t.sender? x = some a := by
  rcases h.origins with ⟨same, -⟩ | ⟨c, b, p, post, -, added⟩
  · rw [sender?_eq, sender?_eq, ← getElem?_origins, ← getElem?_origins, same]
  · by_cases known : x < t.posts.length
    · rw [sender?_of_kept h.origins_kept known]
    · have absent : t.origins[x]? = none :=
        List.getElem?_eq_none (by rw [length_origins]; omega)
      rw [sender?_eq, sender?_eq, ← getElem?_origins, ← getElem?_origins, added,
        List.getElem?_append_right (by rw [length_origins]; omega), absent]
      have other : b ≠ a := fun same => others p (same ▸ post)
      cases x - t.origins.length with
      | zero => simp [other]
      | succ m => simp

/-- A new payload was handed over by its sender. -/
theorem Moves.post_of_new (h : Moves t ds u) {x : Nat} (new : t.posts.length ≤ x)
    (sender : u.sender? x = some a) : ∃ p, .post a p ∈ ds := by
  induction h with
  | nil t =>
    have := known_of_sender? sender
    omega
  | @cons t v u d ds first rest ih =>
    by_cases later : v.posts.length ≤ x
    · obtain ⟨p, there⟩ := ih later sender
      exact ⟨p, List.mem_cons_of_mem _ there⟩
    · by_contra none
      have origins : v.origins <+: u.origins :=
        rest.induction (P := fun u => v.origins <+: u.origins) List.prefix_rfl
          fun move before => before.trans move.origins_kept
      rw [sender?_of_kept origins (by omega),
        first.sender?_iff fun p same => none ⟨p, by simp [same]⟩] at sender
      have := known_of_sender? sender
      omega

/-- What a sender has on its way it had on its way before. -/
theorem Move.onWay (h : Move t d u) (others : ∀ p, d ≠ .post a p) {x : Nat} (onWay : u.OnWay a x) :
    t.OnWay a x := by
  obtain ⟨sender, waits⟩ := onWay
  obtain ⟨done, -, undelivered⟩ := h.waiting
  refine ⟨(h.sender?_iff others x).mp sender, ?_⟩
  rcases ((undelivered x).mp waits).1 with before | new
  · exact before
  · obtain ⟨rfl, b, p, rfl⟩ := Deed.mem_ticket new
    have absent : t.sender? t.posts.length = none := by simp [Traffic.sender?]
    rw [h.sender?_iff others, absent] at sender
    exact absurd sender (by simp)

/-- A move that sends nothing leaves what each sender has sent. -/
theorem Move.sentBy_of_wire (h : Move t d u) (filed : t.Filed) (same : u.wire = t.wire) :
    u.sentBy a = t.sentBy a := by
  unfold Traffic.sentBy
  rw [same]
  exact List.filter_congr fun x hx => by
    rw [sender?_of_kept h.origins_kept (filed.known x hx)]

/-- What a sender has sent stays sent. -/
theorem Onward.sentBy (h : t.Onward u) (filed : t.Filed) (a : Actor) :
    t.sentBy a <+: u.sentBy a := by
  obtain ⟨new, wire⟩ := h.wire
  have same : (t.wire.filter fun x => u.sender? x = some a) = t.sentBy a :=
    List.filter_congr fun x hx => by rw [sender?_of_kept h.origins (filed.known x hx)]
  unfold Traffic.sentBy
  rw [← wire, List.filter_append, same]
  exact List.prefix_append _ _

/-- **What a sender has sent** stays the same, or a payload is added that was on its way. -/
theorem Move.sentBy (h : Move t d u) (filed : t.Filed) (steady : t.Steady) (a : Actor) :
    (u.sentBy a = t.sentBy a ∧ ∀ x, d = .send x → t.sender? x ≠ some a) ∨
      ∃ x, t.OnWay a x ∧ u.sentBy a = t.sentBy a ++ [x] ∧ u.delivery? x = some .sent := by
  rcases h.wire with same | ⟨x, atWriter, one, act⟩
  · refine .inl ⟨h.sentBy_of_wire filed same, ?_⟩
    rintro x rfl
    cases h with
    | send => exact absurd same (by simp)
  · have waits : t.Undelivered x :=
      (filed.mem_waiting x).mp (mem_waiting_of_unsent (by simp [atWriter]))
    have sender := sender?_of_kept h.origins_kept waits.known
    have grown : u.sentBy a = t.sentBy a ++ [x].filter fun x => t.sender? x = some a := by
      unfold Traffic.sentBy
      rw [one, List.filter_append]
      congr 1
      · exact List.filter_congr fun y hy => by
          rw [sender?_of_kept h.origins_kept (filed.known y hy)]
      · simp [List.filter_cons, sender]
    have sent : d = .send x := by
      refine act.resolve_right fun spoilt => ?_
      subst spoilt
      cases h with
      | spoilLine here _ _ fault | spoilRealtime here _ _ fault =>
        exact absurd (steady _ here).1 (Nat.ne_of_gt fault)
    subst sent
    by_cases own : t.sender? x = some a
    · refine .inr ⟨x, ⟨own, waits⟩, by rw [grown]; simp [own], ?_⟩
      cases h with
      | send =>
        rw [Traffic.delivery?, getElem?_mark, List.getElem?_eq_getElem waits.known]
        simp
    · refine .inl ⟨by rw [grown]; simp [own], ?_⟩
      intro y same
      obtain rfl : x = y := by simpa using same
      exact own

/-! ## The lines of jobs -/

/-- **The lines of jobs go their way in order.** The lines of the `n`-th job are the `n`-th of the
`programs`. -/
structure Consigned (t : Traffic) (programs : List (List String)) : Prop where
  /-- Jobs that were started hand over lines. -/
  known : ∀ x n, t.sender? x = some (.job n) → n < programs.length ∧ t.isLine x = true
  /-- No job hands a line over after a later job has. -/
  ascending : ∀ x y m n, x < y → t.sender? x = some (.job m) → t.sender? y = some (.job n) → m ≤ n
  /-- The lines that went over the wire are the first lines of the job. -/
  sent : ∀ (n k x : Nat), (t.sentBy (.job n))[k]? = some x →
    ∃ lines line, programs[n]? = some lines ∧ lines[k]? = some line ∧
      t.payload? x = some (.ofLine line)
  /-- At most one line of a job is on its way. -/
  one : ∀ n x y, t.OnWay (.job n) x → t.OnWay (.job n) y → x = y
  /-- The line that is on its way is the next one of the job. -/
  next : ∀ n x, t.OnWay (.job n) x → ∃ lines line, programs[n]? = some lines ∧
    lines[(t.sentBy (.job n)).length]? = some line ∧ t.payload? x = some (.ofLine line)

/-- What was handed over keeps its payload. -/
theorem payload?_of_kept (h : t.origins <+: u.origins) {x : Nat} (known : x < t.posts.length) :
    u.payload? x = t.payload? x := by
  rw [payload?_eq, payload?_eq, origin?_of_kept h known]

/-- **Moves that hand over no line of a job** keep the lines of jobs in order. -/
theorem Consigned.move (consigned : t.Consigned programs) (h : Move t d u) (filed : t.Filed)
    (steady : t.Steady) (others : ∀ n p, d ≠ .post (.job n) p) : u.Consigned programs where
  known x n sender := by
    have before := (h.sender?_iff (others n) x).mp sender
    rw [isLine_of_kept h.origins_kept (known_of_sender? before)]
    exact consigned.known x n before
  ascending x y m n less first second :=
    consigned.ascending x y m n less ((h.sender?_iff (others m) x).mp first)
      ((h.sender?_iff (others n) y).mp second)
  sent n k x found := by
    have sender := (mem_sentBy.mp (List.mem_of_getElem? found)).2
    have known := known_of_sender? ((h.sender?_iff (others n) x).mp sender)
    rw [payload?_of_kept h.origins_kept known]
    rcases h.sentBy filed steady (.job n) with ⟨same, -⟩ | ⟨y, onWay, added, -⟩
    · exact consigned.sent n k x (same ▸ found)
    · rw [added] at found
      by_cases before : k < (t.sentBy (.job n)).length
      · rw [List.getElem?_append_left before] at found
        exact consigned.sent n k x found
      · -- the line that was just sent is the next one
        rw [List.getElem?_append_right (by omega), List.getElem?_singleton] at found
        split at found
        · next last =>
          obtain rfl := Option.some.inj found
          obtain rfl : k = (t.sentBy (.job n)).length := by omega
          exact consigned.next n y onWay
        · exact absurd found (by simp)
  one n x y first second :=
    consigned.one n x y (h.onWay (others n) first) (h.onWay (others n) second)
  next n x onWay := by
    have before := h.onWay (others n) onWay
    rw [payload?_of_kept h.origins_kept before.2.known]
    rcases h.sentBy filed steady (.job n) with ⟨same, -⟩ | ⟨y, other, -, sent⟩
    · rw [same]
      exact consigned.next n x before
    · -- the only line that was on its way was sent
      obtain rfl := consigned.one n x y before other
      obtain ⟨p, found, waits⟩ := onWay.2
      simp [Traffic.delivery?, found, waits] at sent

/-- A new job has no line on its way. -/
theorem Consigned.launch (consigned : t.Consigned programs) (lines : List String) :
    t.Consigned (programs ++ [lines]) where
  known x n sender := by
    obtain ⟨known, isLine⟩ := consigned.known x n sender
    exact ⟨by rw [List.length_append]; exact Nat.lt_add_right _ known, isLine⟩
  ascending := consigned.ascending
  sent n k x found := by
    obtain ⟨own, line, program, rest⟩ := consigned.sent n k x found
    exact ⟨own, line, by rw [List.getElem?_append_left (List.getElem?_eq_some_iff.mp program).1,
      program], rest⟩
  one := consigned.one
  next n x onWay := by
    obtain ⟨own, line, program, rest⟩ := consigned.next n x onWay
    exact ⟨own, line, by rw [List.getElem?_append_left (List.getElem?_eq_some_iff.mp program).1,
      program], rest⟩

/-- **The last job hands over its next line**, when it has none on its way. -/
theorem Consigned.hand (consigned : t.Consigned programs) {line : String} {lines : List String}
    (h : Move t (.post (.job n) (.ofLine line)) u) (filed : t.Filed)
    (last : n + 1 = programs.length) (own : programs[n]? = some lines)
    (free : ∀ x, ¬ t.OnWay (.job n) x)
    (next : lines[(t.sentBy (.job n)).length]? = some line) :
    u.Consigned programs ∧ u.OnWay (.job n) t.posts.length ∧
      u.sentBy (.job n) = t.sentBy (.job n) := by
  have sentBy (m : Nat) : u.sentBy (.job m) = t.sentBy (.job m) :=
    h.sentBy_of_wire filed (by cases h; rfl)
  -- the new post, and what is known of the others
  have new : u.sender? t.posts.length = some (.job n) ∧
      u.payload? t.posts.length = some (.ofLine line) ∧ u.Undelivered t.posts.length := by
    cases h with
    | post => simp [Traffic.sender?, Traffic.payload?, Undelivered]
  have length : u.posts.length = t.posts.length + 1 := by
    cases h with
    | post => simp
  have sender {x m : Nat} (sender : u.sender? x = some (.job m)) :
      t.sender? x = some (.job m) ∨ (x = t.posts.length ∧ m = n) := by
    by_cases known : x < t.posts.length
    · exact .inl (by rwa [sender?_of_kept h.origins_kept known] at sender)
    · obtain rfl : x = t.posts.length := by
        have := known_of_sender? sender
        omega
      rw [new.1] at sender
      exact .inr ⟨rfl, by simpa using sender.symm⟩
  have onWay {x m : Nat} (onWay : u.OnWay (.job m) x) :
      t.OnWay (.job m) x ∨ (x = t.posts.length ∧ m = n) := by
    refine (sender onWay.1).imp_left fun before => ⟨before, ?_⟩
    obtain ⟨done, -, undelivered⟩ := h.waiting
    refine ((undelivered x).mp onWay.2).1.resolve_right fun ticket => ?_
    have := known_of_sender? before
    have := (Deed.mem_ticket ticket).1
    omega
  refine ⟨⟨?known, ?ascending, ?sent, ?one, ?next⟩, ⟨new.1, new.2.2⟩, sentBy n⟩
  case known =>
    intro x m own'
    rcases sender own' with before | ⟨rfl, rfl⟩
    · rw [isLine_of_kept h.origins_kept (known_of_sender? before)]
      exact consigned.known x m before
    · exact ⟨by omega, by simp [Traffic.isLine, new.2.1, Payload.ofLine, Payload.isLine]⟩
  case ascending =>
    intro x y m k less first second
    rcases sender first with before | ⟨rfl, rfl⟩
    · rcases sender second with before' | ⟨rfl, rfl⟩
      · exact consigned.ascending x y m k less before before'
      · have := (consigned.known x m before).1
        omega
    · have := known_of_sender? second
      omega
  case sent =>
    intro m k x found
    rw [sentBy] at found
    have known := filed.known x (mem_sentBy.mp (List.mem_of_getElem? found)).1
    rw [payload?_of_kept h.origins_kept known]
    exact consigned.sent m k x found
  case one =>
    intro m x y first second
    rcases onWay first with before | ⟨rfl, rfl⟩
    · rcases onWay second with before' | ⟨rfl, rfl⟩
      · exact consigned.one m x y before before'
      · exact absurd before (free x)
    · rcases onWay second with before' | ⟨rfl, -⟩
      · exact absurd before' (free y)
      · rfl
  case next =>
    intro m x way
    rw [sentBy]
    rcases onWay way with before | ⟨rfl, rfl⟩
    · rw [payload?_of_kept h.origins_kept before.2.known]
      exact consigned.next m x before
    · exact ⟨lines, line, own, next, new.2.1⟩

/-- **What went over the wire for a job** are its first lines, in order. -/
theorem Consigned.first_lines (consigned : t.Consigned programs) {lines : List String}
    (own : programs[n]? = some lines) :
    (t.sentBy (.job n)).map t.payload? <+: lines.map fun line => some (.ofLine line) := by
  rw [List.prefix_iff_getElem?]
  intro k inside
  rw [List.length_map] at inside
  obtain ⟨lines', line, own', found, payload⟩ :=
    consigned.sent n k _ (List.getElem?_eq_getElem inside)
  obtain rfl := Option.some.inj (own'.symm.trans own)
  rw [List.getElem_map, payload, List.getElem?_map, found, Option.map_some]

/-- The job that a payload belongs to. -/
def job? (t : Traffic) (x : Nat) : Option Nat :=
  match t.sender? x with
  | some (.job n) => some n
  | _ => none

theorem job?_eq_some {x : Nat} : t.job? x = some n ↔ t.sender? x = some (.job n) := by
  unfold job?
  split
  · next m sender => simp [sender]
  · next other => simpa using other n

/-- **No line of a job goes over the wire after one of a later job.** -/
theorem Consigned.ordered (consigned : t.Consigned programs) (filed : t.Filed) :
    (t.wire.filterMap t.job?).Pairwise (· ≤ ·) := by
  -- lines go over the wire in the order in which they were handed over
  have ascending : (t.wire.filter t.isLine).Pairwise (· < ·) := by
    have course := filed.ascending true
    rw [Traffic.course, List.filter_append, List.append_assoc] at course
    simpa using (List.pairwise_append.mp course).1
  rw [List.pairwise_filterMap]
  refine (List.pairwise_filter.mp ascending).imp fun {x y} less m hm k hk => ?_
  have first := job?_eq_some.mp hm
  have second := job?_eq_some.mp hk
  exact consigned.ascending x y m k
    (less (consigned.known x m first).2 (consigned.known y k second).2) first second

/-! ## How far a job has got -/

/-- **The first lines of a job are answered, and none is on its way.** -/
structure Rests (t : Traffic) (n cursor : Nat) : Prop where
  sent : (t.sentBy (.job n)).length = cursor
  acked : ∀ y ∈ t.sentBy (.job n), t.Acked y
  free : ∀ y, ¬ t.OnWay (.job n) y

/-- **The first lines of a job are answered, and the next one was sent.** -/
structure Expects (t : Traffic) (n cursor x : Nat) : Prop where
  parts : ∃ before, t.sentBy (.job n) = before ++ [x] ∧ before.length = cursor ∧
    ∀ y ∈ before, t.Acked y
  free : ∀ y, ¬ t.OnWay (.job n) y

/-- **How far the `n`-th job has got**, when its task waits for something. -/
inductive Stands (t : Traffic) (n cursor : Nat) : StreamStage → Prop
  | ready (rests : t.Rests n cursor) : Stands t n cursor .ready
  /-- The line at the cursor is on its way. -/
  | onWay {x : Nat} (sent : (t.sentBy (.job n)).length = cursor)
      (acked : ∀ y ∈ t.sentBy (.job n), t.Acked y) (onWay : t.OnWay (.job n) x) :
    Stands t n cursor (.sending x)
  /-- The line at the cursor was sent, and the task does not know it yet. -/
  | written {x : Nat} (expects : t.Expects n cursor x) (told : t.delivery? x = some .sent) :
    Stands t n cursor (.sending x)
  /-- The line at the cursor was not sent, and the task does not know it yet. -/
  | refused {x : Nat} {f : Delivery} (rests : t.Rests n cursor) (told : t.delivery? x = some f)
      (notSent : f ≠ .sent) : Stands t n cursor (.sending x)
  | awaiting {x : Nat} {deadline : Option Nat} (expects : t.Expects n cursor x) :
    Stands t n cursor (.awaiting x deadline)

/-- What was answered stays answered. -/
theorem Acked.move {x : Nat} (acked : t.Acked x) (h : Move t d u) (slotted : t.Slotted) :
    u.Acked x := by
  obtain ⟨a, told⟩ := acked
  exact ⟨a, h.answer_kept slotted told⟩

/-- A job without a line on its way sends nothing. -/
theorem Move.sentBy_of_free (h : Move t d u) (filed : t.Filed) (steady : t.Steady)
    (free : ∀ y, ¬ t.OnWay a y) : u.sentBy a = t.sentBy a := by
  rcases h.sentBy filed steady a with ⟨same, -⟩ | ⟨x, onWay, -⟩
  · exact same
  · exact absurd onWay (free x)

theorem Rests.move (rests : t.Rests n cursor) (h : Move t d u) (filed : t.Filed)
    (slotted : t.Slotted) (steady : t.Steady) (others : ∀ p, d ≠ .post (.job n) p) :
    u.Rests n cursor := by
  have same := h.sentBy_of_free filed steady rests.free
  refine ⟨by rw [same, rests.sent], fun y hy => ?_, fun y way => rests.free y (h.onWay others way)⟩
  exact (rests.acked y (same ▸ hy)).move h slotted

theorem Expects.move {x : Nat} (expects : t.Expects n cursor x) (h : Move t d u) (filed : t.Filed)
    (slotted : t.Slotted) (steady : t.Steady) (others : ∀ p, d ≠ .post (.job n) p) :
    u.Expects n cursor x := by
  obtain ⟨⟨before, parts, length, acked⟩, free⟩ := expects
  have same := h.sentBy_of_free filed steady free
  exact ⟨⟨before, by rw [same, parts], length, fun y hy => (acked y hy).move h slotted⟩,
    fun y way => free y (h.onWay others way)⟩

/-- **Moves that hand over no line of the job** keep how far it has got. -/
theorem Stands.move {stage : StreamStage} (stands : t.Stands n cursor stage) (h : Move t d u)
    (filed : t.Filed) (slotted : t.Slotted) (steady : t.Steady) (consigned : t.Consigned programs)
    (others : ∀ p, d ≠ .post (.job n) p) : u.Stands n cursor stage := by
  cases stands with
  | ready rests => exact .ready (rests.move h filed slotted steady others)
  | written expects told =>
    exact .written (expects.move h filed slotted steady others) (h.told filed told)
  | awaiting expects => exact .awaiting (expects.move h filed slotted steady others)
  | refused rests told notSent =>
    exact .refused (rests.move h filed slotted steady others) (h.told filed told) notSent
  | @onWay x sent acked way =>
    -- what is on its way afterwards is this line
    have only {y : Nat} (later : u.OnWay (.job n) y) : y = x :=
      consigned.one n y x (h.onWay others later) way
    rcases h.sentBy filed steady (.job n) with ⟨same, notSent⟩ | ⟨y, other, added, sent'⟩
    · have acked' : ∀ y ∈ u.sentBy (.job n), u.Acked y := fun y hy =>
        (acked y (same ▸ hy)).move h slotted
      by_cases waits : u.Undelivered x
      · exact .onWay (by rw [same, sent]) acked' ⟨(h.sender?_iff others x).mpr way.1, waits⟩
      · have known : x < u.posts.length :=
          Nat.lt_of_lt_of_le way.2.known (length_le_of_kept h.origins_kept)
        obtain ⟨f, told⟩ : ∃ f, u.delivery? x = some f := by
          refine Option.ne_none_iff_exists'.mp fun none => waits ⟨u.posts[x], by simp [known], ?_⟩
          simpa [Traffic.delivery?, known] using none
        refine .refused ⟨by rw [same, sent], acked', fun y later => ?_⟩ told ?_
        · exact waits (only later ▸ later.2)
        · rintro rfl
          rcases h.delivered told with before | ⟨-, ⟨-, act⟩ | ⟨w, other, -⟩ | ⟨other, -⟩⟩
          · obtain ⟨p, found, none⟩ := way.2
            simp [Traffic.delivery?, found, none] at before
          · exact notSent x act way.1
          · exact absurd other (by simp)
          · exact absurd other (by simp)
    · obtain rfl := consigned.one n y x other way
      have acked' : ∀ z ∈ t.sentBy (.job n), u.Acked z := fun z hz => (acked z hz).move h slotted
      refine .written ⟨⟨t.sentBy (.job n), added, sent, acked'⟩, ?_⟩ sent'
      intro z later
      obtain rfl := only later
      obtain ⟨p, found, none⟩ := later.2
      simp [Traffic.delivery?, found, none] at sent'

/-! ## Several moves -/

/-- **What is known of the jobs**: their lines go their way in order, and the job that is streamed
has got as far as its task says. -/
structure Tracked (t : Traffic) (programs : List (List String)) (task : Option StreamTask) :
    Prop where
  filed : t.Filed
  slotted : t.Slotted
  steady : t.Steady
  consigned : t.Consigned programs
  stands : ∀ k, task = some k → t.Stands k.job.number k.cursor k.stage

theorem Moves.tracked {task : Option StreamTask} (h : Moves t ds u)
    (tracked : t.Tracked programs task) (others : ∀ d ∈ ds, ∀ n p, d ≠ .post (.job n) p)
    (whole : ∀ d ∈ ds, ∀ n, d = .device (.failFlushes n) → n = 0) : u.Tracked programs task := by
  induction h with
  | nil => exact tracked
  | @cons t v u d ds first _ ih =>
    refine ih ?_ (fun d hd => others d (List.mem_cons_of_mem _ hd))
      (fun d hd => whole d (List.mem_cons_of_mem _ hd))
    obtain ⟨filed, slotted, steady, consigned, stands⟩ := tracked
    have own := others d List.mem_cons_self
    exact
      { filed := first.filed filed
        slotted := first.slotted filed slotted
        steady := first.steady steady (whole d List.mem_cons_self)
        consigned := consigned.move first filed steady own
        stands := fun k task => (stands k task).move first filed slotted steady consigned (own _) }

section Tracked

variable {task : Option StreamTask} {k : StreamTask}

/-- Another task, or another stage, whose job has got as far as it says. -/
theorem Tracked.retask (tracked : t.Tracked programs task) {task' : Option StreamTask}
    (stands : ∀ k, task' = some k → t.Stands k.job.number k.cursor k.stage) :
    t.Tracked programs task' :=
  { tracked with stands }

/-- A job that was started just now has handed nothing over. -/
theorem Tracked.launch (tracked : t.Tracked programs task) (lines : List String) :
    t.Tracked (programs ++ [lines]) (some ⟨⟨programs.length, lines⟩, 0, .ready⟩) where
  filed := tracked.filed
  slotted := tracked.slotted
  steady := tracked.steady
  consigned := tracked.consigned.launch lines
  stands := by
    rintro k same
    obtain rfl := Option.some.inj same
    have none (x : Nat) : t.sender? x ≠ some (.job programs.length) := fun sender =>
      absurd (tracked.consigned.known x _ sender).1 (Nat.lt_irrefl _)
    have nothing : t.sentBy (.job programs.length) = [] :=
      List.filter_eq_nil_iff.mpr fun x _ => by simp [none x]
    exact .ready ⟨by rw [nothing]; rfl, by rw [nothing]; simp, fun y way => none y way.1⟩

/-- The task hands the line at the cursor over. -/
theorem Tracked.hand (tracked : t.Tracked programs (some k)) {line : String}
    (h : Move t (.post (.job k.job.number) (.ofLine line)) u) (ready : k.stage = .ready)
    (last : k.job.number + 1 = programs.length) (own : programs[k.job.number]? = some k.job.lines)
    (next : k.job.lines[k.cursor]? = some line) :
    u.Tracked programs (some { k with stage := .sending t.posts.length }) := by
  obtain ⟨filed, slotted, steady, consigned, stands⟩ := tracked
  have rests : t.Rests k.job.number k.cursor := by
    have stands := stands k rfl
    rw [ready] at stands
    cases stands with
    | ready rests => exact rests
  obtain ⟨consigned', way, same⟩ := consigned.hand h filed last own rests.free
    (by rw [rests.sent]; exact next)
  exact
    { filed := h.filed filed
      slotted := h.slotted filed slotted
      steady := h.steady steady (by simp)
      consigned := consigned'
      stands := by
        rintro k' same'
        obtain rfl := Option.some.inj same'
        exact .onWay (by rw [same, rests.sent])
          (fun y hy => (rests.acked y (same ▸ hy)).move h slotted) way }

/-- The task finds out that the line at the cursor was sent. -/
theorem Tracked.sent (tracked : t.Tracked programs (some k)) {x : Nat} (deadline : Option Nat)
    (stage : k.stage = .sending x) (sent : t.delivery? x = some .sent) :
    t.Tracked programs (some { k with stage := .awaiting x deadline }) := by
  refine tracked.retask ?_
  rintro k' same
  obtain rfl := Option.some.inj same
  have stands := tracked.stands k rfl
  rw [stage] at stands
  cases stands with
  | onWay _ _ way =>
    obtain ⟨p, found, none⟩ := way.2
    simp [Traffic.delivery?, found, none] at sent
  | written expects told => exact .awaiting expects
  | refused rests told notSent => exact absurd (Option.some.inj (told.symm.trans sent)) notSent

/-- The task finds out that the line at the cursor was not sent. -/
theorem Tracked.retry (tracked : t.Tracked programs (some k)) {x : Nat} {f : WriteFault}
    (stage : k.stage = .sending x) (failed : t.delivery? x = some (.failed f)) :
    t.Tracked programs (some { k with stage := .ready }) := by
  refine tracked.retask ?_
  rintro k' same
  obtain rfl := Option.some.inj same
  have stands := tracked.stands k rfl
  rw [stage] at stands
  cases stands with
  | onWay _ _ way =>
    obtain ⟨p, found, none⟩ := way.2
    simp [Traffic.delivery?, found, none] at failed
  | written expects told => exact absurd (told.symm.trans failed) (by simp)
  | refused rests told notSent => exact .ready rests

/-- What is known when the task waits for an answer. -/
theorem Tracked.expects (tracked : t.Tracked programs (some k)) {x : Nat} {deadline : Option Nat}
    (stage : k.stage = .awaiting x deadline) : t.Expects k.job.number k.cursor x := by
  have stands := tracked.stands k rfl
  rw [stage] at stands
  cases stands with
  | awaiting expects => exact expects

/-- The task receives the answer to the line at the cursor. -/
theorem Tracked.advance (tracked : t.Tracked programs (some k)) {x : Nat} {deadline : Option Nat}
    (stage : k.stage = .awaiting x deadline) (acked : t.Acked x) :
    t.Tracked programs (some { k with cursor := k.cursor + 1, stage := .ready }) := by
  refine tracked.retask ?_
  rintro k' same
  obtain rfl := Option.some.inj same
  obtain ⟨⟨before, parts, length, answered⟩, free⟩ := tracked.expects stage
  refine .ready ⟨by rw [parts, List.length_append, length]; rfl, fun y hy => ?_, free⟩
  rw [parts, List.mem_append, List.mem_singleton] at hy
  rcases hy with hy | rfl
  · exact answered y hy
  · exact acked

/-- A line that was sent is one of the job's lines. -/
theorem Expects.lt_length {n cursor x : Nat} {lines : List String} (expects : t.Expects n cursor x)
    (consigned : t.Consigned programs) (own : programs[n]? = some lines) :
    cursor < lines.length := by
  obtain ⟨before, parts, length, -⟩ := expects.parts
  have last : (t.sentBy (.job n))[cursor]? = some x := by
    rw [parts, ← length, List.getElem?_concat_length]
  obtain ⟨lines', line, own', found, -⟩ := consigned.sent n cursor x last
  obtain rfl := Option.some.inj (own'.symm.trans own)
  exact (List.getElem?_eq_some_iff.mp found).1

end Tracked

end Traffic

end Cnc
