import Cnc.Proofs.Control
import Cnc.Proofs.Filing

/-!
# Who waits for a lock

An actor that has a lock, or waits in line for one, is at a point where it
uses the guarded part (`Session.Locked`). It takes a turn of its own, or the
end of what it belongs to, to get it away from there, and then it has left
the lock: nobody else moves an actor (`Session.Spares`).

So a lock is never stuck. Whoever has it uses the guarded part at the next
turn with credit, and hands the lock to the first in line.
-/

namespace Cnc

/-! ## Locks -/

namespace Lock

/-- Who has a lock and who waits for it. -/
def actors (l : Lock) : List Actor := l.holder.toList ++ l.line

/-- Nobody waits for a free lock, and nobody is there twice. -/
structure Orderly (l : Lock) : Prop where
  free : l.holder = none → l.line = []
  nodup : l.actors.Nodup

variable {l : Lock}

theorem actors_leave (l : Lock) : l.leave.actors = l.line := by
  cases line : l.line with
  | nil => simp [actors, leave, line]
  | cons a rest => simp [actors, leave, line]

theorem Orderly.leave (orderly : l.Orderly) : l.leave.Orderly where
  free none := by
    have empty : l.line = [] := by simpa [Lock.leave] using none
    simp [Lock.leave, empty]
  nodup := by
    rw [actors_leave]
    exact (List.nodup_append.mp orderly.nodup).2.1

/-- Whoever left a lock is gone from it. -/
theorem Orderly.not_mem_leave (orderly : l.Orderly) {a : Actor} (has : l.holder = some a) :
    a ∉ l.leave.actors := by
  have nodup := orderly.nodup
  rw [actors, has, Option.toList_some, List.singleton_append, List.nodup_cons] at nodup
  rw [actors_leave]
  exact nodup.1

theorem Orderly.mem_request (orderly : l.Orderly) {a b : Actor} :
    b ∈ (l.request a).actors ↔ b = a ∨ b ∈ l.actors := by
  unfold request
  cases holder : l.holder with
  | none => simp [actors, holder, orderly.free holder]
  | some h =>
    dsimp only
    split
    · next there =>
      refine ⟨.inr, fun either => either.elim (fun same => ?_) id⟩
      subst same
      rcases there with rfl | line
      · simp [actors, holder]
      · exact List.mem_append_right _ line
    · simp only [actors, holder, Option.toList_some, List.mem_append, List.mem_singleton]
      tauto

theorem Orderly.request (orderly : l.Orderly) (a : Actor) : (l.request a).Orderly := by
  unfold Lock.request
  cases holder : l.holder with
  | none =>
    have line := orderly.free holder
    exact ⟨fun none => absurd none (by simp), by simp [actors, line]⟩
  | some h =>
    dsimp only
    split
    · exact orderly
    · next absent =>
      refine ⟨fun none => absurd none (by simp), ?_⟩
      have nodup := orderly.nodup
      simp only [actors, holder, Option.toList_some, List.singleton_append] at nodup ⊢
      rw [← List.cons_append]
      refine List.nodup_append.mpr ⟨nodup, by simp, ?_⟩
      rintro b old c new rfl
      obtain rfl := List.mem_singleton.mp new
      rcases List.mem_cons.mp old with rfl | line
      · exact absent (.inl rfl)
      · exact absent (.inr line)

theorem Orderly.forget (orderly : l.Orderly) (a : Actor) : (l.forget a).Orderly := by
  unfold Lock.forget
  split
  · exact orderly.leave
  · refine ⟨fun none => ?_, ?_⟩
    · rw [orderly.free none, List.filter_nil]
    · have sublist : (l.holder.toList ++ l.line.filter (· ≠ a)).Sublist l.actors :=
        List.Sublist.append_left List.filter_sublist _
      exact orderly.nodup.sublist sublist

theorem Orderly.mem_forget (orderly : l.Orderly) {a b : Actor} :
    b ∈ (l.forget a).actors ↔ b ∈ l.actors ∧ b ≠ a := by
  unfold Lock.forget
  split
  · next has =>
    have gone := orderly.not_mem_leave has
    rw [actors_leave] at gone ⊢
    simp only [actors, has, Option.toList_some, List.singleton_append, List.mem_cons]
    constructor
    · intro line
      exact ⟨.inr line, fun same => gone (same ▸ line)⟩
    · rintro ⟨same | line, other⟩
      · exact absurd same other
      · exact line
  · next hasNot =>
    cases holder : l.holder with
    | none => simp [actors, holder]
    | some h =>
      have other : h ≠ a := fun same => hasNot (by rw [holder, same])
      simp only [actors, holder, Option.toList_some, List.singleton_append, List.mem_cons,
        List.mem_filter, decide_eq_true_eq]
      constructor
      · rintro (rfl | ⟨line, different⟩)
        · exact ⟨.inl rfl, other⟩
        · exact ⟨.inr line, different⟩
      · rintro ⟨rfl | line, different⟩
        · exact .inl rfl
        · exact .inr ⟨line, different⟩

/-- Several actors are gone. -/
theorem Orderly.forgetAll (orderly : l.Orderly) (as : List Actor) :
    (as.foldl Lock.forget l).Orderly ∧
      ∀ b, b ∈ (as.foldl Lock.forget l).actors → b ∈ l.actors ∧ b ∉ as := by
  induction as generalizing l with
  | nil => exact ⟨orderly, fun b there => ⟨there, by simp⟩⟩
  | cons a as ih =>
    obtain ⟨last, among⟩ := ih (orderly.forget a)
    refine ⟨last, fun b there => ?_⟩
    obtain ⟨between, notLater⟩ := among b there
    obtain ⟨before, other⟩ := orderly.mem_forget.mp between
    exact ⟨before, by simp [other, notLater]⟩

end Lock

/-- Replacing some members of a list leaves the others to be found. -/
theorem find?_replace {α : Type} (number : α → Nat) (f : α → α) {n m : Nat} (other : m ≠ n)
    (kept : ∀ q, number q = n → number (f q) = n) (l : List α) :
    (l.map fun q => if number q = n then f q else q).find? (number · = m)
      = l.find? (number · = m) := by
  induction l with
  | nil => rfl
  | cons q l ih =>
    rw [List.map_cons, List.find?_cons, List.find?_cons, ih]
    by_cases same : number q = n
    · rw [if_pos same, kept q same, same]
      simp [Ne.symm other]
    · rw [if_neg same]

namespace Session

/-! ## What actors need -/

/-- The guarded part that an actor is about to use, and the post that has to be sent first. -/
def need? (s : Session) : Actor → Option (Guarded × Option Nat)
  | .call i => match s.stage? i with
    | some (.sending x errand) => if errand.isReset then some (.slots, some x) else none
    | some (.counting ..) => some (.stats, none)
    | some (.lookingUp _) => some (.settings, none)
    | _ => none
  | .job n => (s.task? n).bind fun k => match k.stage with
    | .sending x => some (.stats, some x)
    | _ => none
  | .poller n => (s.poller? n).bind fun p => p.sending.map fun x => (.stats, some x)
  | .refresher n => (s.refresher? n).bind fun r => r.sending.map fun x => (.stats, some x)
  | .writer => s.link.connection.bind fun c => match c.writer with
    | .taken _ | .failed .. => some (.slots, none)
    | _ => none
  | .reader => s.link.connection.bind fun c => c.chores.head?.bind fun chore =>
    chore.guarded?.map fun g => (g, none)

/-- An actor that uses a guarded part when it has its turn. -/
def Needs (s : Session) (a : Actor) (g : Guarded) : Prop :=
  ∃ post, s.need? a = some (g, post) ∧ ∀ x ∈ post, s.link.delivery? x = some .sent

/-- **Only those who need a guarded part** have its lock or wait for it. -/
def Locked (s : Session) : Prop :=
  ∀ g, (s.locks.get g).Orderly ∧ ∀ a ∈ (s.locks.get g).actors, s.Needs a g

section Need

variable {s t : Session}

theorem need?_congr (calls : t.calls = s.calls) (task : t.streamer.task = s.streamer.task)
    (refreshers : t.refreshers = s.refreshers) (connection : t.link.connection = s.link.connection)
    (a : Actor) : t.need? a = s.need? a := by
  cases a with
  | call i => simp only [need?, stage?_congr calls i]
  | job n => simp only [need?, task?, task]
  | poller n => simp only [need?, poller?, connection]
  | refresher n => simp only [need?, refresher?, refreshers]
  | writer => simp only [need?, connection]
  | reader => simp only [need?, connection]

theorem Alike.need? (h : t.Alike s) (a : Actor) : t.need? a = s.need? a :=
  need?_congr h.2.2.2.1 (congrArg _ h.2.2.1) h.2.2.2.2.1 (congrArg _ h.2.1) a

theorem Alike.needs (h : t.Alike s) {a : Actor} {g : Guarded} (needs : s.Needs a g) :
    t.Needs a g := by
  obtain ⟨post, need, sent⟩ := needs
  refine ⟨post, (h.need? a).trans need, ?_⟩
  rw [h.2.1]
  exact sent

/-- An actor whose payload was sent needs the part that it counts it in. -/
theorem Needs.counting {a : Actor} {g : Guarded} {x : Nat} (need : s.need? a = some (g, some x))
    (sent : s.link.delivery? x = some .sent) : s.Needs a g :=
  ⟨some x, need, fun _ same => Option.some.inj same ▸ sent⟩

theorem Needs.now {a : Actor} {g : Guarded} (need : s.need? a = some (g, none)) : s.Needs a g :=
  ⟨none, need, by simp⟩

/-- An actor needs one guarded part at a time. -/
theorem Needs.unique {a : Actor} {g h : Guarded} (needs : s.Needs a g) (others : s.Needs a h) :
    h = g := by
  obtain ⟨post, need, -⟩ := needs
  obtain ⟨post', need', -⟩ := others
  exact (Prod.mk.inj (Option.some.inj (need'.symm.trans need))).1

end Need

/-! ## Leaving the others alone -/

/-- **Only `a` is moved** from `s` to `t`, and the locks stay as they are. -/
def Alone (s : Session) (a : Actor) (t : Session) : Prop :=
  t.locks = s.locks ∧ ∀ b, b ≠ a → t.need? b = s.need? b

/-- **All actors but `a` are spared** from `s` to `t`: nobody joins a lock, and whoever remains
there is where it was. -/
def Spares (s : Session) (a : Actor) (t : Session) : Prop :=
  ∀ g, (s.locks.get g).Orderly →
    (t.locks.get g).Orderly ∧
      ∀ b ∈ (t.locks.get g).actors,
        b ∈ (s.locks.get g).actors ∧ (b ≠ a → t.need? b = s.need? b)

section Alone

variable {s t u : Session} {a : Actor}

theorem Alone.refl (s : Session) (a : Actor) : s.Alone a s := ⟨rfl, fun _ _ => rfl⟩

theorem Alone.trans (h : s.Alone a t) (k : t.Alone a u) : s.Alone a u :=
  ⟨k.1.trans h.1, fun b other => (k.2 b other).trans (h.2 b other)⟩

/-- Nobody is moved at all. -/
theorem Alone.quiet (locks : t.locks = s.locks) (calls : t.calls = s.calls)
    (task : t.streamer.task = s.streamer.task) (refreshers : t.refreshers = s.refreshers)
    (connection : t.link.connection = s.link.connection) : s.Alone a t :=
  ⟨locks, fun b _ => need?_congr calls task refreshers connection b⟩

theorem Alone.spares (h : s.Alone a t) : s.Spares a t := by
  intro g orderly
  rw [h.1]
  exact ⟨orderly, fun b there => ⟨there, h.2 b⟩⟩

theorem Spares.trans (h : s.Spares a t) (k : t.Spares a u) : s.Spares a u := by
  intro g orderly
  obtain ⟨orderly', among⟩ := h g orderly
  obtain ⟨orderly'', among'⟩ := k g orderly'
  refine ⟨orderly'', fun b there => ?_⟩
  obtain ⟨between, same'⟩ := among' b there
  obtain ⟨before, same⟩ := among b between
  exact ⟨before, fun other => (same' other).trans (same other)⟩

/-! ## Operations -/

@[simp] theorem locks_wake (s : Session) (a : Actor) : (s.wake a).locks = s.locks := by
  unfold wake
  split <;> rfl

@[simp] theorem locks_wakeAll (s : Session) (as : List Actor) : (s.wakeAll as).locks = s.locks := by
  unfold wakeAll
  induction as generalizing s with
  | nil => rfl
  | cons a as ih => exact (ih (s.wake a)).trans (locks_wake s a)

@[simp] theorem locks_publish (s : Session) (e : LinkEvent) : (s.publish e).locks = s.locks :=
  locks_wakeAll _ _

@[simp] theorem locks_setStatus (s : Session) (status : MachineStatus) :
    (s.setStatus status).locks = s.locks :=
  locks_wakeAll _ _

@[simp] theorem locks_setState (s : Session) (state : JobState) :
    (s.setState state).locks = s.locks := by
  unfold setState
  split
  · rfl
  · exact locks_wakeAll _ _

@[simp] theorem locks_endTurn (s : Session) : s.endTurn.locks = s.locks := locks_wakeAll _ _

@[simp] theorem locks_conclude (s : Session) (reason : JobState) :
    (s.conclude reason).locks = s.locks := by
  unfold conclude
  dsimp only
  split <;> exact locks_setState _ _

@[simp] theorem locks_deliver (s : Session) (x : Nat) (d : Delivery) :
    (s.deliver x d).locks = s.locks := by
  unfold deliver
  split
  · rfl
  · dsimp only
    split
    · exact locks_wake _ _
    · rfl

@[simp] theorem locks_answer (s : Session) (x : Nat) (a : Answer) :
    (s.answer x a).locks = s.locks := by
  unfold answer
  split
  · rfl
  · dsimp only
    split
    · exact locks_wake _ _
    · rfl

theorem locks_answerAll (s : Session) (xs : List Nat) (a : Answer) :
    (xs.foldl (fun s x => s.answer x a) s).locks = s.locks := by
  induction xs generalizing s with
  | nil => rfl
  | cons x xs ih => exact (ih (s.answer x a)).trans (locks_answer s x a)

theorem locks_deliverAll (s : Session) (xs : List Nat) (d : Delivery) :
    (xs.foldl (fun s x => s.deliver x d) s).locks = s.locks := by
  induction xs generalizing s with
  | nil => rfl
  | cons x xs ih => exact (ih (s.deliver x d)).trans (locks_deliver s x d)

@[simp] theorem locks_dropAnswers (s : Session) : s.dropAnswers.locks = s.locks := by
  unfold dropAnswers
  split
  · rfl
  · exact locks_answerAll _ _ _

@[simp] theorem locks_countSent (s : Session) (x : Nat) : (s.countSent x).locks = s.locks := by
  unfold countSent
  split <;> rfl

theorem locks_leave (s : Session) (g : Guarded) :
    (s.leave g).locks = s.locks.set g (s.locks.get g).leave :=
  locks_wakeAll _ _

theorem get_locks_forget (s : Session) (a : Actor) (g : Guarded) :
    (s.forget a).locks.get g = (s.locks.get g).forget a := by
  unfold forget
  dsimp only
  rw [locks_wakeAll]
  cases g <;> rfl

/-- Handing a payload over moves nobody. -/
theorem post?_alone {x : Nat} {p : Payload} {b : Actor} (posted : s.post? b p = some (x, t)) :
    s.Alone a t := by
  cases here : s.link.connection with
  | none =>
    rw [post?_of_closed here] at posted
    exact absurd posted (by simp)
  | some c =>
    have locks : t.locks = s.locks := by
      simp only [post?, here, Option.map_some, Option.some.injEq, Prod.mk.injEq] at posted
      rw [← posted.2]
      exact locks_wakeAll _ _
    obtain ⟨u, hu, alike⟩ := post?_of_open here b p
    rw [hu] at posted
    obtain ⟨-, rfl⟩ := Prod.mk.inj (Option.some.inj posted)
    refine ⟨locks, fun b _ => ?_⟩
    rw [alike.need? b]
    cases b with
    | poller n => simp [need?, poller?, here]
    | writer => simp [need?, here]
    | reader => simp [need?, here]
    | _ => rfl

end Alone

end Session

end Cnc
