import Cnc.Proofs.Scheduling
import Cnc.Proofs.Traffic

/-!
# What the shared operations do

The operations that all actors share – publishing, changing a state, handing
a payload over, telling its sender what became of it, ending a connection –
also wake others. Apart from that each of them is an update of a few fields,
and the lemmas of this module say which: `Alike (s.operation) { s with … }`.
They are simplification rules, so what a turn does to the link, the job
streamer or the host calls is found by simplification.
-/

namespace Cnc.Session

/-! ## Events and states -/

/-- The same change to the link of two sessions that are alike. -/
theorem Alike.updateLink {s t : Session} (h : s.Alike t) (f : Link → Link) :
    Alike { s with link := f s.link } { t with link := f t.link } := by
  obtain ⟨h₁, h₂, h₃, h₄, h₅, h₆, h₇⟩ := h
  exact ⟨h₁, congrArg f h₂, h₃, h₄, h₅, h₆, h₇⟩

@[simp] theorem alike_publish (s : Session) (e : LinkEvent) :
    Alike (s.publish e) { s with link.events := s.link.events.publish e } :=
  alike_wakeAll _ _

@[simp] theorem alike_setStatus (s : Session) (status : MachineStatus) :
    Alike (s.setStatus status) { s with link.status := status } :=
  alike_wakeAll _ _

/-- The job events after the state of the job streamer was set. -/
def stateEvents (s : Session) (state : JobState) : EventBus JobEvent :=
  if s.streamer.state = state then s.streamer.events
  else s.streamer.events.publish (.state state)

@[simp] theorem alike_setState (s : Session) (state : JobState) :
    Alike (s.setState state)
      { s with streamer.state := state, streamer.events := s.stateEvents state } := by
  unfold setState stateEvents
  split
  · next same =>
    subst same
    exact ⟨rfl, rfl, rfl, rfl, rfl, rfl, rfl⟩
  · exact alike_wakeAll _ _

@[simp] theorem alike_endTurn (s : Session) :
    Alike s.endTurn { s with streamer.turns := s.streamer.turns.tail } :=
  alike_wakeAll _ _

/-- The job events after a job was concluded. -/
def concludeEvents (s : Session) (reason : JobState) : EventBus JobEvent :=
  (if reason = .idle then s else s.announce (.state reason)).stateEvents .idle

@[simp] theorem alike_conclude (s : Session) (reason : JobState) :
    Alike (s.conclude reason)
      { s with
        streamer.job := none
        streamer.progress := .none
        streamer.state := .idle
        streamer.events := s.concludeEvents reason } := by
  unfold conclude concludeEvents
  dsimp only
  split
  · exact alike_setState _ _
  · exact alike_setState _ _

/-! ## Posts -/

/-- A closed link takes no payload. -/
theorem post?_of_closed {s : Session} (closed : s.link.connection = none) (a : Actor)
    (p : Payload) : s.post? a p = none := by
  simp [post?, closed]

/-- **An open link takes every payload**, under the next ticket and at the end of its queue. -/
theorem post?_of_open {s : Session} {c : Connection} (here : s.link.connection = some c)
    (a : Actor) (p : Payload) :
    ∃ s' : Session, s.post? a p = some (s.link.posts.length, s') ∧
      Alike s'
        { s with
          link.posts := s.link.posts ++ [⟨c.number, a, p, none, none⟩]
          link.connection := some (c.enqueue p s.link.posts.length) } := by
  simp only [post?, here, Option.map_some]
  exact ⟨_, rfl, alike_wakeAll _ _⟩

@[simp] theorem alike_deliver (s : Session) (x : Nat) (d : Delivery) :
    Alike (s.deliver x d) { s with link.posts := markDelivered s.link.posts [x] d } := by
  unfold deliver
  split
  · next absent =>
    rw [markDelivered, mark_of_absent _ _ absent]
    exact ⟨rfl, rfl, rfl, rfl, rfl, rfl, rfl⟩
  · next p found =>
    rw [markDelivered, ← set_eq_mark (fun p => { p with delivery := some d }) _ found]
    dsimp only
    split
    · exact alike_wake _ _
    · exact ⟨rfl, rfl, rfl, rfl, rfl, rfl, rfl⟩

@[simp] theorem alike_answer (s : Session) (x : Nat) (a : Answer) :
    Alike (s.answer x a) { s with link.posts := markAnswered s.link.posts [x] a } := by
  unfold answer
  split
  · next absent =>
    rw [markAnswered, mark_of_absent _ _ absent]
    exact ⟨rfl, rfl, rfl, rfl, rfl, rfl, rfl⟩
  · next p found =>
    rw [markAnswered, ← set_eq_mark (fun p => { p with answer := some a }) _ found]
    dsimp only
    split
    · exact alike_wake _ _
    · exact ⟨rfl, rfl, rfl, rfl, rfl, rfl, rfl⟩

/-- Answering several posts in the same way. -/
theorem alike_answerAll (s : Session) (xs : List Nat) (a : Answer) :
    Alike (xs.foldl (fun s x => s.answer x a) s)
      { s with link.posts := markAnswered s.link.posts xs a } := by
  induction xs generalizing s with
  | nil =>
    rw [markAnswered, mark_nil]
    exact ⟨rfl, rfl, rfl, rfl, rfl, rfl, rfl⟩
  | cons x xs ih =>
    have step := ih (s.answer x a)
    have marked : markAnswered (s.answer x a).link.posts xs a
        = markAnswered s.link.posts (x :: xs) a := by
      rw [(alike_answer s x a).2.1]
      exact mark_mark (fun p => { p with answer := some a }) s.link.posts (fun _ => rfl) [x] xs
    rw [marked] at step
    exact step.trans (by simp [Alike])

theorem alike_deliverAll (s : Session) (xs : List Nat) (d : Delivery) :
    Alike (xs.foldl (fun s x => s.deliver x d) s)
      { s with link.posts := markDelivered s.link.posts xs d } := by
  induction xs generalizing s with
  | nil =>
    rw [markDelivered, mark_nil]
    exact ⟨rfl, rfl, rfl, rfl, rfl, rfl, rfl⟩
  | cons x xs ih =>
    have step := ih (s.deliver x d)
    have marked : markDelivered (s.deliver x d).link.posts xs d
        = markDelivered s.link.posts (x :: xs) d := by
      rw [(alike_deliver s x d).2.1]
      exact mark_mark (fun p => { p with delivery := some d }) s.link.posts (fun _ => rfl) [x] xs
    rw [marked] at step
    exact step.trans (by simp [Alike])

theorem alike_forgetAll (s : Session) (as : List Actor) : Alike (as.foldl forget s) s := by
  induction as generalizing s with
  | nil => exact ⟨rfl, rfl, rfl, rfl, rfl, rfl, rfl⟩
  | cons a as ih => exact (ih (s.forget a)).trans (alike_forget s a)

/-- **Giving up all answers.** -/
theorem alike_dropAnswers {s : Session} {c : Connection} (here : s.link.connection = some c) :
    Alike s.dropAnswers
      { s with
        link.posts := markAnswered s.link.posts c.slots .lost
        link.connection := some { c with slots := [] } } := by
  unfold dropAnswers
  rw [here]
  exact alike_answerAll _ _ _

/-- **Ending the connection.** -/
theorem alike_endConnection {s : Session} {c : Connection} (here : s.link.connection = some c) :
    Alike s.endConnection
      { s with
        link.posts := markDelivered (markAnswered s.link.posts c.slots .lost) c.waiting .lost
        link.connection := none
        link.status := .disconnected
        link.events := s.link.events.publish .disconnected } := by
  let closed : Session := { s with link.connection := none }
  have unanswered := alike_answerAll closed c.slots .lost
  have offline := (alike_setStatus _ .disconnected).trans
    (unanswered.updateLink fun l => { l with status := .disconnected })
  have told := (alike_publish _ .disconnected).trans
    (offline.updateLink fun l => { l with events := l.events.publish .disconnected })
  have left := (alike_forgetAll _ (Actor.reader :: .writer :: c.pollers.map fun p =>
    .poller p.number)).trans told
  have lost := (alike_deliverAll _ c.waiting .lost).trans
    (left.updateLink fun l => { l with posts := markDelivered l.posts c.waiting .lost })
  unfold endConnection
  rw [here]
  exact lost

end Cnc.Session
