import Cnc.Proofs.Reachable
import Cnc.Proofs.Transfers

/-!
# One writer

The link has one writer, and this is what its callers can rely on, in every
state that can be reached (`Session.single_writer`). Payloads go over the wire
whole and one after the other (`Session.WritesWhole`). Lines go over the wire
in the order in which they were handed over, and so do realtime commands; each
payload is tried once, and only those that are refused are left out
(`Session.WritesInOrder`). No line is begun while a realtime command waits
(`Session.RealtimeFirst`). A call that only sends reports what became of its
payload (`Session.ReportsTruly`).

A line is *begun* when the writer takes it from its queue. It may wait for its
place among the expected answers then, and for a device that takes no bytes;
a realtime command that is handed over meanwhile goes next.
-/

namespace Cnc

/-- The bytes of the payload with a ticket. -/
def Link.bytesOf (l : Link) (x : Nat) : List UInt8 := ((l.payload? x).map Payload.bytes).getD []

/-- The bytes that went over the wire. -/
def Link.transmitted (l : Link) : List UInt8 := l.wire.flatMap l.bytesOf

namespace Session

open Traffic

/-- **Payloads go over the wire whole**, one after the other. -/
structure WritesWhole (s : Session) : Prop where
  /-- An event brings no bytes to the wire, or all bytes of the payload that is tried. -/
  bytes : ∀ e, (s.next e).link.transmitted = s.link.transmitted ++
    (s.attempt? e).toList.flatMap fun p => if p.2 = .failed .write then [] else s.link.bytesOf p.1
  /-- What the writer has begun is the next to be tried, unless the connection ends. -/
  uninterrupted : ∀ c x, s.link.connection = some c → c.writer.begun? = some x → ∀ e,
    (∃ f, s.attempt? e = some (x, f)) ∨
      (s.attempt? e = none ∧ ∀ c', (s.next e).link.connection = some c' →
        c'.number = c.number → c'.writer.begun? = some x)

/-- **First in, first out**, after a run in which `tries` were made. -/
structure WritesInOrder (s : Session) (tries : List (Nat × Delivery)) : Prop where
  /-- The wire holds what was tried and not refused. -/
  wire : s.link.wire = (tries.filter (·.2 ≠ .failed .write)).map (·.1)
  /-- No payload is tried twice. -/
  once : (tries.map (·.1)).Nodup
  /-- What was handed to the open connection and not refused is what it has carried, what the
  writer has begun, and what waits in the queue. -/
  order : ∀ c, s.link.connection = some c → ∀ line,
    (s.link.traffic.handed c.number line).filter (fun x => (x, .failed .write) ∉ tries)
      = s.link.traffic.carried c.number line ++ s.link.traffic.begun line ++ c.queue line

/-- **Realtime commands go first.** -/
structure RealtimeFirst (s : Session) : Prop where
  /-- When a line is begun, no realtime command waits. -/
  begins : ∀ e x, x ∈ (s.next e).link.traffic.begun true → x ∉ s.link.traffic.begun true →
    ∃ c, s.link.connection = some c ∧ c.realtime = [] ∧ c.lines.head? = some x
  /-- The realtime commands that wait then, until the line is tried, were handed over after it. -/
  ahead : ∀ c x, s.link.connection = some c → x ∈ s.link.traffic.begun true →
    ∀ y ∈ c.realtime, x < y

/-- **What becomes of a payload is known truly**, whoever handed it over, after a run in which
`tries` were made. -/
structure DeliversTruly (s : Session) (tries : List (Nat × Delivery)) : Prop where
  /-- A payload counts as sent if it was written and flushed. -/
  sent : ∀ x, s.link.delivery? x = some .sent ↔ (x, .sent) ∈ tries
  /-- What counts as sent is on the wire. -/
  onWire : ∀ x, s.link.delivery? x = some .sent → x ∈ s.link.wire
  /-- What counts as failed has failed. -/
  failed : ∀ x w, s.link.delivery? x = some (.failed w) → (x, .failed w) ∈ tries
  /-- What has failed counts as failed, as long as the connection lasts, once the writer has given
  its place up. -/
  known : ∀ c x w, s.link.connection = some c → (x, .failed w) ∈ tries →
    (s.link.traffic.origin? x).map (·.1) = some c.number →
    s.link.delivery? x = some (.failed w) ∨ c.writer = .failed x w

/-- **What a call reports** about the payload with the ticket `x` of the connection `n`, when
`tries` were made. -/
structure Reports (t : Session) (tries : List (Nat × Delivery)) (c : Call) (n x : Nat)
    (r : Result) : Prop where
  /-- A call that returns no error has its payload on the wire. -/
  success : (∀ e, r ≠ .linkError e) → x ∈ t.link.wire
  /-- A call whose write or flush failed returns the error, as long as the connection lasts. -/
  failure : ∀ w, (x, .failed w) ∈ tries →
    (∃ c', t.link.connection = some c' ∧ c'.number = n) → r = .linkError (.transfer w.reason)
  /-- A call whose payload was written and flushed returns no error. -/
  flushed : (x, .sent) ∈ tries → ∀ e, r ≠ .linkError e
  /-- The error of a write or a flush is that of its own. -/
  error : ∀ reason, r = .linkError (.transfer reason) →
    ∃ w, (x, .failed w) ∈ tries ∧ reason = w.reason

/-- **Calls that only send report what became of their payload.** The call `i` begins, and as long
as it has not returned:

* an event makes it return at most once, on a closed link that it is closed, and else what became
  of the one payload that it has handed over;
* when nobody has anything to do, its payload was not tried, and the device takes no bytes. -/
def ReportsTruly (s : Session) : Prop :=
  ∀ (i : Nat) (c : Call) (p : Payload) (errand : Errand) (fs : List Event),
    c.transfer? = some (p, errand) → s.stage? i = none →
    let t := s.after (.call i c :: fs)
    let tries := s.tries (.call i c :: fs)
    t.resultsOf i = s.resultsOf i →
      (∀ e, (t.next e).resultsOf i = t.resultsOf i ∨
        ∃ r, (t.next e).resultsOf i = t.resultsOf i ++ [r] ∧
          ((t.link.connection = none ∧ r = .linkError .notConnected ∧
              ∀ y, s.link.posts.length ≤ y → t.link.traffic.sender? y ≠ some (.call i)) ∨
            ∃ n x, t.link.traffic.HandsOver s.link.posts.length i p n x ∧
              t.Reports tries c n x r)) ∧
      (t.Quiescent → ∃ n x c', t.link.traffic.HandsOver s.link.posts.length i p n x ∧
        (∀ f, (x, f) ∉ tries) ∧ t.link.connection = some c' ∧ c'.number = n ∧ c'.stalled = true)

variable {s : Session} {tries : List (Nat × Delivery)}

/-- What is tried was handed over. -/
theorem known_of_attempt? (filed : s.link.traffic.Filed) {e : Event} {x : Nat} {f : Delivery}
    (tried : s.attempt? e = some (x, f)) :
    ∃ c, s.link.connection = some c ∧ c.writer = .writing x ∧ x < s.link.posts.length := by
  unfold attempt? at tried
  split at tried
  · next c here =>
    split at tried
    · next y writing =>
      split at tried
      · exact absurd tried (by simp)
      · obtain ⟨rfl, -⟩ := Prod.mk.inj (Option.some.inj tried)
        exact ⟨c, here, writing, (filed.delivery?_of_ticket here (by rw [writing]; rfl)).1⟩
    · exact absurd tried (by simp)
  · exact absurd tried (by simp)

theorem bytesOf_next (filed : s.link.traffic.Filed) (e : Event) {x : Nat}
    (known : x < s.link.posts.length) : (s.next e).link.bytesOf x = s.link.bytesOf x := by
  have kept : (s.next e).link.traffic.payload? x = s.link.traffic.payload? x :=
    payload?_of_kept (onward_next filed e).2.origins known
  show (((s.next e).link.traffic.payload? x).map _).getD _ = _
  rw [kept]
  rfl

theorem writesWhole (filed : s.link.traffic.Filed) : s.WritesWhole := by
  constructor
  case bytes =>
    intro e
    obtain ⟨ds, moves, tries⟩ := next_tries s e
    have wire := moves.wire filed
    rw [tries] at wire
    have before :
        s.link.wire.flatMap (s.next e).link.bytesOf = s.link.wire.flatMap s.link.bytesOf :=
      List.flatMap_congr fun x hx => bytesOf_next filed e (filed.known x hx)
    show List.flatMap _ (s.next e).link.traffic.wire = _
    rw [wire, List.flatMap_append]
    refine congr (congrArg _ before) ?_
    cases tried : s.attempt? e with
    | none => rfl
    | some p =>
      obtain ⟨x, f⟩ := p
      obtain ⟨-, -, -, known⟩ := known_of_attempt? filed tried
      by_cases refused : f = .failed .write
      · simp [refused]
      · simp [refused, bytesOf_next filed e known]
  case uninterrupted =>
    intro c x here begun e
    obtain ⟨ds, moves, tries⟩ := next_tries s e
    cases tried : s.attempt? e with
    | some p =>
      obtain ⟨y, f⟩ := p
      obtain ⟨c', here', writing, -⟩ := known_of_attempt? filed tried
      obtain rfl := Option.some.inj (here.symm.trans here')
      have same : y = x := by simpa [writing, WriterStage.begun?] using begun
      exact .inl ⟨f, by rw [same]⟩
    | none =>
      refine .inr ⟨rfl, fun c' there number => ?_⟩
      refine moves.begun_kept (by rw [tries, tried]; rfl) (filed.newest c here) ?_ c' there number
      intro c₁ here₁ _
      obtain rfl := Option.some.inj (here.symm.trans here₁)
      exact begun

theorem writesInOrder (filed : s.link.traffic.Filed) (recorded : s.link.traffic.Recorded tries)
    (served : s.link.traffic.Served) : s.WritesInOrder tries where
  wire := recorded.wire
  once := recorded.once
  order c here line := by
    rw [filed.handed_eq recorded served here line]
    simp [Traffic.queue, Link.traffic, here]

theorem realtimeFirst (filed : s.link.traffic.Filed) (served : s.link.traffic.Served) :
    s.RealtimeFirst where
  begins e x begun new := next_begins filed begun new
  ahead c x here begun := by
    obtain ⟨atWriter, line⟩ := List.mem_filter.mp begun
    obtain ⟨c', here', stage⟩ := Option.bind_eq_some_iff.mp (Option.mem_toList.mp atWriter)
    obtain rfl := Option.some.inj (here.symm.trans here')
    exact served.ahead c x here (WriterStage.ticket?_of_begun? stage).1 (of_decide_eq_true line)

theorem deliversTruly (filed : s.link.traffic.Filed) (recorded : s.link.traffic.Recorded tries)
    (served : s.link.traffic.Served) : s.DeliversTruly tries where
  sent x := by
    refine ⟨fun told => recorded.delivered x .sent told (by simp), fun tried => ?_⟩
    cases recorded.tried x .sent tried with
    | told told => exact told
  onWire x told := filed.sent x told
  failed x w told := recorded.delivered x _ told (by simp)
  known c x w here tried origin := by
    cases recorded.tried x _ tried with
    | told told => exact .inl told
    | failing here' failed =>
      obtain rfl := Option.some.inj (here.symm.trans here')
      exact .inr failed
    | lost lost => exact absurd origin (served.lost c x here lost)

/-- What becomes of the payload of a call is what the call reports. -/
theorem DeliversTruly.reports {t : Session} {all : List (Nat × Delivery)}
    (truly : t.DeliversTruly all) (filed : t.link.traffic.Filed) {c : Call} {n x : Nat}
    {f : Delivery} (since : ∀ f, (x, f) ∈ tries ↔ (x, f) ∈ all)
    (origin : (t.link.traffic.origin? x).map (·.1) = some n)
    (told : t.link.delivery? x = some f) : t.Reports tries c n x (c.outcome f) where
  success noError := by
    cases f with
    | sent => exact truly.onWire x told
    | failed w => exact absurd rfl (noError _)
    | lost => exact absurd rfl (noError _)
  failure w tried isOpen := by
    obtain ⟨c', there, rfl⟩ := isOpen
    rcases truly.known c' x w there ((since _).mp tried) origin with known | failing
    · obtain rfl := Option.some.inj (told.symm.trans known)
      rfl
    · have undelivered := (filed.delivery?_of_ticket there (by rw [failing]; rfl)).2
      exact absurd (undelivered.symm.trans told) (by simp)
  flushed tried e := by
    obtain rfl := Option.some.inj (told.symm.trans ((truly.sent x).mpr ((since _).mp tried)))
    cases c <;> simp [Call.outcome, Delivery.error?]
  error reason same := by
    cases f with
    | sent => cases c <;> simp [Call.outcome, Delivery.error?] at same
    | failed w =>
      refine ⟨w, (since _).mpr (truly.failed x w told), ?_⟩
      simpa [Call.outcome, Delivery.error?, eq_comm] using same
    | lost => simp [Call.outcome, Delivery.error?] at same

theorem reportsTruly (timeout : Option Nat) (es : List Event) :
    ((initial timeout).after es).ReportsTruly := by
  intro i c p errand fs transfer new t tries pending
  have last : (initial timeout).after (es ++ .call i c :: fs) = t := after_append ..
  have there : t.Reachable := (Reachable.of_run timeout es).after _
  have filed := there.filed
  have recorded : t.link.traffic.Recorded ((initial timeout).tries (es ++ .call i c :: fs)) :=
    last ▸ recorded_after timeout _
  have served : t.link.traffic.Served := last ▸ served_after timeout _
  have onward := (onward_after (filed_after timeout es) (.call i c :: fs)).2
  -- what was tried before the call had been handed over before it
  have since {x : Nat} (late : ((initial timeout).after es).link.posts.length ≤ x) (f : Delivery) :
      (x, f) ∈ tries ↔ (x, f) ∈ (initial timeout).tries (es ++ .call i c :: fs) := by
    rw [tries_append, List.mem_append]
    refine ⟨.inr, fun tried => tried.resolve_left fun early => ?_⟩
    have known := (recorded_after timeout es).known (filed_after timeout es) early
    exact Nat.not_lt.mpr late known
  have transfers := transfers_after (filed_after timeout es) new transfer fs pending
  constructor
  · intro e
    rcases transfers.next filed (length_le_of_kept onward.origins) transfer e with
      ⟨-, same⟩ | ⟨r, returned, returns⟩
    · exact .inl same
    · refine .inr ⟨r, returned, ?_⟩
      cases returns with
      | refused closed nothing => exact .inl ⟨closed, rfl, nothing⟩
      | @delivered n x f hands told =>
        refine .inr ⟨n, x, hands, ?_⟩
        exact (deliversTruly filed recorded served).reports filed (since hands.new)
          (by rw [hands.origin]; rfl) told
  · intro quiescent
    have waits := there.quiescent_iff.mp quiescent
    obtain ⟨n, x, c', hands, undelivered, there, number, stalled⟩ := transfers.stalled waits filed
    refine ⟨n, x, c', hands, fun f tried => ?_, there, number, stalled⟩
    have tried := (since hands.new f).mp tried
    refine recorded.not_tried undelivered (fun c₁ w here failed => ?_) f tried
    -- a writer that has a place to give up does not wait
    have writer := waits .writer
    have here' : t.link.connection = some c₁ := here
    simp only [Waits, here', failed] at writer

/-- **One writer.** -/
theorem single_writer (timeout : Option Nat) (es : List Event) :
    let s := (initial timeout).after es
    let tries := (initial timeout).tries es
    s.WritesWhole ∧ s.WritesInOrder tries ∧ s.RealtimeFirst ∧ s.DeliversTruly tries ∧
      s.ReportsTruly := by
  have filed := filed_after timeout es
  have recorded := recorded_after timeout es
  have served := served_after timeout es
  exact ⟨writesWhole filed, writesInOrder filed recorded served, realtimeFirst filed served,
    deliversTruly filed recorded served, reportsTruly timeout es⟩

/-- A line waits for the writer. -/
def queuedLine : List Event :=
  Event.swift 0 (.connect "/dev/mock0" none) ++ Event.swift 1 (.write "G0 X1")

/-- A call has begun to write a line, and a realtime command is handed over after it. The writer
sends the command and the first line, and the device refuses the second. -/
def refusedLine : List Event :=
  .act (.call 2) :: Event.swift 3 (.realtime .feedHold) ++ List.replicate 5 (.act .writer) ++
    .device 4 (.failWrites 1) :: List.replicate 4 (.act .writer)

/-- The command overtakes both lines, the refused line is left out, and its call returns the error
of the write. -/
theorem single_writer_refusedLine :
    let s := (initial none).after queuedLine
    let t := s.after (.call 2 (.writeAcked "G0 X2") :: refusedLine)
    s.tries (.call 2 (.writeAcked "G0 X2") :: refusedLine)
        = [(2, .sent), (0, .sent), (1, .failed .write)] ∧
      t.link.transmitted = Realtime.feedHold.byte :: "G0 X1\n".toUTF8.toList ∧
      (t.next (.act (.call 2))).resultsOf 2 = [.linkError (.transfer "write fault")] ∧
      ∃ n x, t.link.traffic.HandsOver s.link.posts.length 2 (.ofLine "G0 X2") n x ∧
        t.Reports [(2, .sent), (0, .sent), (1, .failed .write)] (.writeAcked "G0 X2") n x
          (.linkError (.transfer "write fault")) := by
  intro s t
  have tries : s.tries (.call 2 (.writeAcked "G0 X2") :: refusedLine)
      = [(2, .sent), (0, .sent), (1, .failed .write)] := by decide +kernel
  have pending : t.resultsOf 2 = s.resultsOf 2 := by decide +kernel
  have nothing : t.resultsOf 2 = [] := by decide +kernel
  have result : (t.next (.act (.call 2))).resultsOf 2 = [.linkError (.transfer "write fault")] := by
    decide +kernel
  refine ⟨tries, by decide +kernel, result, ?_⟩
  obtain ⟨-, -, -, -, truly⟩ := single_writer none queuedLine
  obtain ⟨returns, -⟩ :=
    truly 2 (.writeAcked "G0 X2") _ _ refusedLine rfl (by decide +kernel) pending
  rcases returns (.act (.call 2)) with same | ⟨r, given, ⟨closed, -⟩ | ⟨n, x, hands, reports⟩⟩
  · exact absurd (result.symm.trans (same.trans nothing)) (by simp)
  · exact absurd closed (by decide +kernel)
  · have own : r = .linkError (.transfer "write fault") := by
      have both := result.symm.trans given
      rw [nothing] at both
      simpa using both.symm
    rw [own, tries] at reports
    exact ⟨n, x, hands, reports⟩

end Session

end Cnc
