import Cnc.Proofs.Jobs
import Cnc.Proofs.SingleWriter

/-!
# Lines that fail, and lines that are handed over again

A write that fails has sent nothing, but a flush that fails comes after the
bytes went over the wire. Both end in the same error, so the error of a call
does not tell whether its line was sent, and a job that hands a line over
again after an error may transmit it twice.

This module says exactly when. A job hands a line over again only after the
last try of it has failed, whatever is paused, resumed, stalled or reconnected
in between; its lines go over the wire more than once if and only if something
of the job is transmitted after a flush of one of its lines has failed
(`Session.fails_truly`).
-/

namespace Cnc

open Traffic

/-- **A line that a job hands over.** -/
structure Handover where
  /-- The place of the line in the program, from zero. -/
  place : Nat
  ticket : Nat
deriving DecidableEq, Repr

namespace Traffic

variable {t u : Traffic} {n : Nat} {hs before rest : List Handover} {h : Handover}

/-- Whether it is known that a payload was sent, or that it failed. -/
def Decided (t : Traffic) (x : Nat) : Prop := ∃ f, t.delivery? x = some f ∧ f ≠ .lost

/-- How many of the lines that were handed over were sent. -/
def successes (t : Traffic) (hs : List Handover) : Nat :=
  hs.countP fun h => t.delivery? h.ticket = some .sent

/-- **A job hands its lines over in turn**: the place of each is the number of those before that were
sent, and it is known of all of these what became of them. -/
structure InTurn (t : Traffic) (n : Nat) (hs : List Handover) : Prop where
  tickets : ∀ x, t.sender? x = some (.job n) ↔ ∃ h ∈ hs, h.ticket = x
  ascending : hs.Pairwise (·.ticket < ·.ticket)
  place : ∀ before h rest, hs = before ++ h :: rest →
    h.place = t.successes before ∧ ∀ g ∈ before, t.Decided g.ticket

/-- **How far the task of a job has come** with the lines that it has handed over. -/
inductive Reaches (t : Traffic) (hs : List Handover) (cursor : Nat) : StreamStage → Prop
  | ready (decided : ∀ h ∈ hs, t.Decided h.ticket) (count : cursor = t.successes hs) :
    Reaches t hs cursor .ready
  | sending {before : List Handover} {x : Nat} (last : hs = before ++ [⟨cursor, x⟩]) :
    Reaches t hs cursor (.sending x)
  | awaiting {before : List Handover} {x : Nat} {deadline : Option Nat}
    (last : hs = before ++ [⟨cursor, x⟩]) (sent : t.delivery? x = some .sent) :
    Reaches t hs cursor (.awaiting x deadline)

/-- What is known to have been sent or failed stays so. -/
theorem Decided.onward {x : Nat} (decided : t.Decided x) (onward : t.Onward u) :
    u.delivery? x = t.delivery? x ∧ u.Decided x := by
  obtain ⟨f, told, notLost⟩ := decided
  have later := onward.told x f told
  exact ⟨later.trans told.symm, f, later, notLost⟩

theorem successes_onward (decided : ∀ h ∈ hs, t.Decided h.ticket) (onward : t.Onward u) :
    u.successes hs = t.successes hs :=
  List.countP_congr fun h member => by rw [((decided h member).onward onward).1]

/-- Whatever happens to lines that were handed over, they were handed over in turn. -/
theorem InTurn.onward (inTurn : t.InTurn n hs) (onward : t.Onward u)
    (same : ∀ x, u.sender? x = some (.job n) ↔ t.sender? x = some (.job n)) :
    u.InTurn n hs where
  tickets x := (same x).trans (inTurn.tickets x)
  ascending := inTurn.ascending
  place before h rest parts := by
    obtain ⟨place, decided⟩ := inTurn.place before h rest parts
    exact ⟨by rw [place, successes_onward decided onward],
      fun g member => ((decided g member).onward onward).2⟩

theorem Reaches.onward {cursor : Nat} {stage : StreamStage} (reaches : t.Reaches hs cursor stage)
    (onward : t.Onward u) : u.Reaches hs cursor stage := by
  cases reaches with
  | ready decided count =>
    refine .ready (fun h member => ((decided h member).onward onward).2) ?_
    rw [count, successes_onward decided onward]
  | sending last => exact .sending last
  | awaiting last sent => exact .awaiting last (onward.told _ _ sent)

/-- **The next line is handed over**, when it is known what became of all before. -/
theorem InTurn.hand (inTurn : t.InTurn n hs) (decided : ∀ h ∈ hs, t.Decided h.ticket)
    (onward : t.Onward u) (new : u.sender? t.posts.length = some (.job n))
    (only : ∀ x, u.sender? x = some (.job n) →
      t.sender? x = some (.job n) ∨ x = t.posts.length) :
    u.InTurn n (hs ++ [⟨t.successes hs, t.posts.length⟩]) where
  tickets x := by
    constructor
    · intro sender
      rcases only x sender with old | rfl
      · obtain ⟨h, member, ticket⟩ := (inTurn.tickets x).mp old
        exact ⟨h, List.mem_append_left _ member, ticket⟩
      · exact ⟨_, List.mem_append_right _ (List.mem_singleton_self _), rfl⟩
    · rintro ⟨h, member, rfl⟩
      rcases List.mem_append.mp member with old | last
      · have sender := (inTurn.tickets h.ticket).mpr ⟨h, old, rfl⟩
        rwa [sender?_of_kept onward.origins (known_of_sender? sender)]
      · rw [List.mem_singleton.mp last]
        exact new
  ascending := by
    refine List.pairwise_append.mpr ⟨inTurn.ascending, by simp, fun g old h last => ?_⟩
    have sender := (inTurn.tickets g.ticket).mpr ⟨g, old, rfl⟩
    rw [List.mem_singleton.mp last]
    exact known_of_sender? sender
  place before h rest parts := by
    rcases List.eq_nil_or_concat rest with rfl | ⟨rest', last, rfl⟩
    · obtain ⟨rfl, last⟩ := List.append_inj' parts rfl
      obtain rfl := List.singleton_inj.mp last
      exact ⟨(successes_onward decided onward).symm,
        fun g member => ((decided g member).onward onward).2⟩
    · rw [List.concat_eq_append, ← List.cons_append, ← List.append_assoc] at parts
      obtain ⟨parts, -⟩ := List.append_inj' parts rfl
      obtain ⟨place, decided⟩ := inTurn.place before h rest' parts
      exact ⟨by rw [place, successes_onward decided onward],
        fun g member => ((decided g member).onward onward).2⟩

/-- What was handed over earlier stands before. -/
theorem InTurn.split (inTurn : t.InTurn n hs) {g : Handover} (earlier : g ∈ hs) (later : h ∈ hs)
    (less : g.ticket < h.ticket) :
    ∃ before between rest, hs = (before ++ g :: between) ++ h :: rest := by
  obtain ⟨front, rest, rfl⟩ := List.append_of_mem later
  obtain ⟨-, behind, apart⟩ := List.pairwise_append.mp inTurn.ascending
  have first : g ∈ front := by
    rcases List.mem_append.mp earlier with first | last
    · exact first
    · rcases List.mem_cons.mp last with rfl | last
      · exact absurd less (Nat.lt_irrefl _)
      · exact absurd less (Nat.lt_asymm ((List.pairwise_cons.mp behind).1 g last))
  obtain ⟨before, between, rfl⟩ := List.append_of_mem first
  exact ⟨before, between, rest, rfl⟩

/-- It is known what became of a line that was not the last to be handed over. -/
theorem InTurn.decided (inTurn : t.InTurn n hs) {g : Handover} (earlier : g ∈ hs) (later : h ∈ hs)
    (less : g.ticket < h.ticket) : t.Decided g.ticket := by
  obtain ⟨before, between, rest, parts⟩ := inTurn.split earlier later less
  exact (inTurn.place _ h rest parts).2 g (by simp)

/-- **A line that is handed over again** has failed before. -/
theorem InTurn.failed (inTurn : t.InTurn n hs) {g : Handover} (earlier : g ∈ hs) (later : h ∈ hs)
    (less : g.ticket < h.ticket) (same : g.place = h.place) :
    ∃ w, t.delivery? g.ticket = some (.failed w) := by
  obtain ⟨before, between, rest, parts⟩ := inTurn.split earlier later less
  obtain ⟨second, -⟩ := inTurn.place _ h rest parts
  obtain ⟨first, -⟩ := inTurn.place before g (between ++ h :: rest) (by simp [parts])
  obtain ⟨f, told, notLost⟩ := inTurn.decided earlier later less
  cases f with
  | failed w => exact ⟨w, told⟩
  | lost => exact absurd rfl notLost
  | sent =>
    rw [first, second, successes, successes, List.countP_append, List.countP_cons_of_pos] at same
    · omega
    · exact decide_eq_true told

/-- **Something sent after a line has failed** is that line again, or comes after it was sent. -/
theorem InTurn.again (inTurn : t.InTurn n hs) {g : Handover} {w : WriteFault} (earlier : g ∈ hs)
    (later : h ∈ hs) (less : g.ticket < h.ticket)
    (failed : t.delivery? g.ticket = some (.failed w)) :
    ∃ g' ∈ hs, g.ticket < g'.ticket ∧ g'.place = g.place ∧
      (g' = h ∨ t.delivery? g'.ticket = some .sent) := by
  obtain ⟨before, between, rest, parts⟩ := inTurn.split earlier later less
  obtain ⟨first, -⟩ := inTurn.place before g (between ++ h :: rest) (by simp [parts])
  obtain ⟨second, -⟩ := inTurn.place _ h rest parts
  have notSent : ¬ t.delivery? g.ticket = some .sent := by simp [failed]
  by_cases none : ∀ g' ∈ between, ¬ t.delivery? g'.ticket = some .sent
  · refine ⟨h, later, less, ?_, .inl rfl⟩
    have count : t.successes between = 0 :=
      List.countP_eq_zero.mpr fun g' member => by simpa using none g' member
    rw [successes] at count
    rw [first, second, successes, successes, List.countP_append,
      List.countP_cons_of_neg (by simpa using notSent), count, Nat.add_zero]
  · -- the first line that was sent in between
    push Not at none
    obtain ⟨y, member, sent⟩ := none
    let found (g' : Handover) : Bool := t.delivery? g'.ticket = some .sent
    have some : (between.find? found).isSome = true :=
      List.find?_isSome.mpr ⟨y, member, decide_eq_true sent⟩
    obtain ⟨g', first'⟩ := Option.isSome_iff_exists.mp some
    obtain ⟨sent', passed, followed, rfl, unsent⟩ := List.find?_eq_some_iff_append.mp first'
    have sent' : t.delivery? g'.ticket = .some .sent := of_decide_eq_true sent'
    have parts' : hs = (before ++ g :: passed) ++ g' :: (followed ++ h :: rest) := by simp [parts]
    obtain ⟨third, -⟩ := inTurn.place _ g' _ parts'
    have count : t.successes passed = 0 :=
      List.countP_eq_zero.mpr fun y member => by simpa [found] using unsent y member
    refine ⟨g', by simp [parts'], ?_, ?_, .inr sent'⟩
    · have ascending := inTurn.ascending
      rw [parts'] at ascending
      exact (List.pairwise_append.mp ascending).2.2 g (by simp) g' List.mem_cons_self
    · rw [successes] at count
      rw [first, third, successes, successes, List.countP_append,
        List.countP_cons_of_neg (by simpa using notSent), count, Nat.add_zero]

end Traffic

namespace Session

variable {s t : Session} {e : Event} {n : Nat}

/-! ## What is handed over in a run -/

/-- The line that the `n`-th job hands over in an event. -/
def handover? (s : Session) (n : Nat) (e : Event) : Option Handover :=
  if (s.next e).link.traffic.sender? s.link.posts.length = some (.job n) then
    (s.task? n).map fun k => ⟨k.cursor, s.link.posts.length⟩
  else none

/-- **The lines that the `n`-th job hands over in a run**, in order. -/
def handovers (s : Session) (es : List Event) (n : Nat) : List Handover :=
  (s.history es).filterMap fun h => h.1.handover? n h.2

theorem handovers_concat (s : Session) (es : List Event) (e : Event) (n : Nat) :
    s.handovers (es ++ [e]) n = s.handovers es n ++ ((s.after es).handover? n e).toList := by
  rw [handovers, history_concat, List.filterMap_append, handovers]
  cases h : (s.after es).handover? n e <;> simp [h]

/-- The `n`-th job has nothing to hand over in an event. -/
theorem handover?_eq_none (same : ∀ x, (s.next e).link.traffic.sender? x = some (.job n) →
    s.link.traffic.sender? x = some (.job n)) : s.handover? n e = none := by
  refine if_neg fun sender => ?_
  have known := known_of_sender? (same _ sender)
  exact Nat.lt_irrefl _ known

/-- **The task of a job hands over the line at its cursor.** -/
theorem handover?_of_hand {k : StreamTask} (task : s.streamer.task = some k)
    (new : (s.next e).link.traffic.sender? s.link.posts.length = some (.job k.job.number)) :
    s.handover? k.job.number e = some ⟨k.cursor, s.link.posts.length⟩ := by
  rw [handover?, if_pos new, task?_number task, Option.map_some]

/-- **What is known of the lines that jobs have handed over**, and of the programs that were
started. -/
structure Attempts (s : Session) (programs : List String) (hs : Nat → List Handover) : Prop where
  inTurn : ∀ n, s.link.traffic.InTurn n (hs n)
  /-- Every line was handed over from its place in the program. -/
  line : ∀ n, ∀ h ∈ hs n, ∃ program line, programs[n]? = some program ∧
    (Job.linesOf program)[h.place]? = some line ∧
    s.link.traffic.payload? h.ticket = some (.ofLine line)
  count : programs.length = s.streamer.started
  job : ∀ j, s.streamer.job = some j →
    ∃ program, programs[j.number]? = some program ∧ j.lines = Job.linesOf program
  reaches : ∀ k, s.streamer.task = some k →
    s.link.traffic.Reaches (hs k.job.number) k.cursor k.stage

variable {programs : List String} {hs : Nat → List Handover}

/-- What was handed over was handed over to the link. -/
theorem Attempts.known (attempts : s.Attempts programs hs) {h : Handover} (member : h ∈ hs n) :
    h.ticket < s.link.posts.length :=
  known_of_sender? (((attempts.inTurn n).tickets h.ticket).mpr ⟨h, member, rfl⟩)

/-- A job that is to be started has handed nothing over. -/
theorem Attempts.unstarted (attempts : s.Attempts programs hs) (later : s.streamer.started ≤ n) :
    hs n = [] := by
  refine List.eq_nil_iff_forall_not_mem.mpr fun h member => ?_
  obtain ⟨program, line, found, -⟩ := attempts.line n h member
  have inside := (List.getElem?_eq_some_iff.mp found).1
  rw [attempts.count] at inside
  omega

/-- **What hands nothing over and starts no job** keeps what is known. -/
theorem Attempts.still (attempts : s.Attempts programs hs)
    (onward : s.link.traffic.Onward t.link.traffic)
    (same : ∀ n x, t.link.traffic.sender? x = some (.job n) →
      s.link.traffic.sender? x = some (.job n))
    (started : t.streamer.core.started = s.streamer.core.started)
    (job : ∀ j, t.streamer.core.job = some j → s.streamer.core.job = some j)
    (reaches : ∀ k, t.streamer.core.task = some k →
      t.link.traffic.Reaches (hs k.job.number) k.cursor k.stage) : t.Attempts programs hs where
  inTurn n := (attempts.inTurn n).onward onward fun x =>
    ⟨same n x, fun sender => by rwa [sender?_of_kept onward.origins (known_of_sender? sender)]⟩
  line n h member := by
    rw [payload?_of_kept onward.origins (attempts.known member)]
    exact attempts.line n h member
  count := attempts.count.trans started.symm
  job j now := attempts.job j (job j now)
  reaches := reaches

/-- **Starting a job** adds its program, of which nothing was handed over yet. -/
theorem Attempts.launch {program : String} {turns : List Nat} (attempts : s.Attempts programs hs)
    (onward : s.link.traffic.Onward t.link.traffic)
    (same : ∀ n x, t.link.traffic.sender? x = some (.job n) →
      s.link.traffic.sender? x = some (.job n))
    (core : t.streamer.core = s.started program turns) : t.Attempts (programs ++ [program]) hs where
  inTurn n := (attempts.inTurn n).onward onward fun x =>
    ⟨same n x, fun sender => by rwa [sender?_of_kept onward.origins (known_of_sender? sender)]⟩
  line n h member := by
    obtain ⟨own, line, found, rest⟩ := attempts.line n h member
    rw [payload?_of_kept onward.origins (attempts.known member)]
    refine ⟨own, line, ?_, rest⟩
    rw [List.getElem?_append_left (List.getElem?_eq_some_iff.mp found).1, found]
  count := by
    rw [List.length_append, attempts.count]
    exact (congrArg StreamerCore.started core).symm
  job j now := by
    obtain rfl := Option.some.inj ((congrArg StreamerCore.job core).symm.trans now)
    exact ⟨program, by rw [← attempts.count, List.getElem?_concat_length], rfl⟩
  reaches k now := by
    obtain rfl := Option.some.inj ((congrArg StreamerCore.task core).symm.trans now)
    rw [attempts.unstarted (Nat.le_refl _)]
    exact .ready (by simp) rfl

/-- **The task hands the line at its cursor over.** -/
theorem Attempts.hand {k : StreamTask} {line : String} {c : Connection}
    (attempts : s.Attempts programs hs) (governed : Governed s.stage? s.streamer.core)
    (onward : s.link.traffic.Onward t.link.traffic) (task : s.streamer.task = some k)
    (ready : k.stage = .ready) (next : k.job.lines[k.cursor]? = some line)
    (posts : t.link.posts
      = s.link.posts ++ [⟨c.number, .job k.job.number, .ofLine line, none, none⟩])
    (core : t.streamer.core
      = { s.streamer.core with task := some { k with stage := .sending s.link.posts.length } }) :
    t.Attempts programs fun n =>
      hs n ++ (if n = k.job.number then some ⟨k.cursor, s.link.posts.length⟩ else none).toList := by
  have new : t.link.traffic.sender? s.link.posts.length = some (.job k.job.number) ∧
      t.link.traffic.payload? s.link.posts.length = some (.ofLine line) := by
    simp [Traffic.sender?, Traffic.payload?, Link.traffic, posts]
  have only {n x : Nat} (sender : t.link.traffic.sender? x = some (.job n)) :
      s.link.traffic.sender? x = some (.job n) ∨ x = s.link.posts.length ∧ n = k.job.number := by
    by_cases known : x < s.link.traffic.posts.length
    · exact .inl (by rwa [sender?_of_kept onward.origins known] at sender)
    · have inside : x < t.link.posts.length := known_of_sender? sender
      rw [posts, List.length_append, List.length_singleton] at inside
      obtain rfl : x = s.link.posts.length :=
        Nat.le_antisymm (Nat.lt_succ_iff.mp inside) (Nat.not_lt.mp known)
      rw [new.1] at sender
      exact .inr ⟨rfl, by simpa using sender.symm⟩
  obtain ⟨decided, cursor⟩ : (∀ h ∈ hs k.job.number, s.link.traffic.Decided h.ticket) ∧
      k.cursor = s.link.traffic.successes (hs k.job.number) := by
    have reaches := attempts.reaches k task
    rw [ready] at reaches
    cases reaches with
    | ready decided count => exact ⟨decided, count⟩
  constructor
  case inTurn =>
    intro n
    by_cases own : n = k.job.number
    · subst own
      rw [if_pos rfl, Option.toList_some, cursor]
      exact (attempts.inTurn _).hand decided onward new.1 fun x sender =>
        (only sender).imp_right And.left
    · rw [if_neg own, Option.toList_none, List.append_nil]
      refine (attempts.inTurn n).onward onward fun x => ⟨fun sender => ?_, fun sender => ?_⟩
      · exact (only sender).resolve_right fun last => own last.2
      · rwa [sender?_of_kept onward.origins (known_of_sender? sender)]
  case line =>
    intro n h member
    rcases List.mem_append.mp member with old | last
    · rw [payload?_of_kept onward.origins (attempts.known old)]
      exact attempts.line n h old
    · split at last
      · next own =>
        obtain rfl := List.mem_singleton.mp last
        obtain ⟨program, found, lines⟩ := attempts.job _ (governed.task k task)
        exact ⟨program, line, own ▸ found, lines ▸ next, new.2⟩
      · exact absurd last (by simp)
  case count => exact attempts.count.trans (congrArg StreamerCore.started core).symm
  case job => exact fun j now => attempts.job j ((congrArg StreamerCore.job core).symm.trans now)
  case reaches =>
    intro k' now
    obtain rfl := Option.some.inj ((congrArg StreamerCore.task core).symm.trans now)
    rw [if_pos rfl]
    exact .sending rfl

/-- **A turn of the streaming task** keeps what is known of the lines that were handed over. -/
theorem Streams.attempts {k : StreamTask} (attempts : s.Attempts programs hs)
    (governed : Governed s.stage? s.streamer.core) (filed : s.link.traffic.Filed)
    (task : s.streamer.task = some k)
    (streams : s.Streams k (s.next (.act (.job k.job.number))).link.traffic
      (s.next (.act (.job k.job.number))).streamer.core) :
    (s.next (.act (.job k.job.number))).Attempts programs fun n =>
      hs n ++ (s.handover? n (.act (.job k.job.number))).toList := by
  have onward := (onward_next filed (.act (.job k.job.number))).2
  have own : s.streamer.core.task = some k := task
  have others {n : Nat} (other : n ≠ k.job.number) :
      s.handover? n (.act (.job k.job.number)) = none :=
    handover?_eq_none fun x => sender?_next s filed (by simpa using Ne.symm other)
  have before := attempts.reaches k task
  have hand := handover?_of_hand (e := .act (.job k.job.number)) task
  have nothing (traffic : (s.next (.act (.job k.job.number))).link.traffic = s.link.traffic)
      (n : Nat) : s.handover? n (.act (.job k.job.number)) = none :=
    handover?_eq_none fun x sender => by rwa [traffic] at sender
  generalize s.next (.act (.job k.job.number)) = t at streams onward hand nothing
  -- the task only goes on to another stage
  have quiet (traffic : t.link.traffic = s.link.traffic)
      (started : t.streamer.core.started = s.streamer.core.started)
      (job : ∀ j, t.streamer.core.job = some j → s.streamer.core.job = some j)
      (reaches : ∀ k', t.streamer.core.task = some k' →
        s.link.traffic.Reaches (hs k'.job.number) k'.cursor k'.stage) :
      t.Attempts programs fun n => hs n ++ (s.handover? n (.act (.job k.job.number))).toList := by
    simp only [nothing traffic, Option.toList_none, List.append_nil]
    refine attempts.still onward (fun n x sender => by rwa [traffic] at sender) started job
      fun k' now => ?_
    rw [traffic]
    exact reaches k' now
  have decided {x : Nat} {f : Delivery} (told : s.link.traffic.delivery? x = some f)
      (notLost : f ≠ .lost) : s.link.traffic.Decided x := ⟨f, told, notLost⟩
  generalize core : t.streamer.core = m at streams quiet
  generalize traffic : t.link.traffic = u at streams quiet
  cases streams with
  | wait =>
    refine quiet rfl rfl (fun j now => now) fun k' now => ?_
    obtain rfl := Option.some.inj (own.symm.trans now)
    exact before
  | @hand c line here ready next =>
    have posts : t.link.posts
        = s.link.posts ++ [⟨c.number, .job k.job.number, .ofLine line, none, none⟩] :=
      congrArg Traffic.posts traffic
    have new := hand (by simp [Traffic.sender?, traffic])
    have handed (n : Nat) : s.handover? n (.act (.job k.job.number))
        = if n = k.job.number then some ⟨k.cursor, s.link.posts.length⟩ else none := by
      split
      · next same => rw [same, new]
      · next other => exact others other
    simp only [handed]
    exact attempts.hand governed onward task ready next posts core
  | conclude => exact quiet rfl rfl (by simp) (by simp)
  | vanish => exact quiet rfl rfl (fun j now => now) (by simp)
  | @sent x deadline stage sent =>
    refine quiet rfl rfl (fun j now => now) fun k' now => ?_
    obtain rfl := Option.some.inj now
    rw [stage] at before
    cases before with
    | sending last => exact .awaiting last sent
  | @retry x f stage failed =>
    refine quiet rfl rfl (fun j now => now) fun k' now => ?_
    obtain rfl := Option.some.inj now
    rw [stage] at before
    cases before with
    | @sending front _ last =>
      obtain ⟨place, past⟩ := (attempts.inTurn k.job.number).place front _ [] last
      refine .ready (fun h member => ?_) ?_
      · rw [last] at member
        rcases List.mem_append.mp member with first | this
        · exact past h first
        · rw [List.mem_singleton.mp this]
          exact decided failed (by simp)
      · have notSent : ¬ s.link.traffic.delivery? x = some .sent := by
          rw [show s.link.traffic.delivery? x = _ from failed]
          simp
        rw [last, successes, List.countP_append, List.countP_singleton,
          if_neg (by simpa using notSent), Nat.add_zero]
        exact place
  | @late x deadline noAck stage =>
    refine quiet rfl rfl (fun j now => now) fun k' now => ?_
    obtain rfl := Option.some.inj now
    rw [stage] at before
    cases before with
    | awaiting last sent => exact .awaiting last sent
  | @advance x deadline a stage answered =>
    refine quiet rfl rfl (fun j now => now) fun k' now => ?_
    obtain rfl := Option.some.inj now
    rw [stage] at before
    cases before with
    | @awaiting front _ _ last sent =>
      obtain ⟨place, past⟩ := (attempts.inTurn k.job.number).place front _ [] last
      refine .ready (fun h member => ?_) ?_
      · rw [last] at member
        rcases List.mem_append.mp member with first | this
        · exact past h first
        · rw [List.mem_singleton.mp this]
          exact decided sent (by simp)
      · rw [last, successes, List.countP_append, List.countP_singleton,
          if_pos (by simpa using sent)]
        exact congrArg (· + 1) place

/-- **Every event keeps what is known of the lines that were handed over.** -/
theorem next_attempts (attempts : s.Attempts programs hs)
    (governed : Governed s.stage? s.streamer.core) (filed : s.link.traffic.Filed) (e : Event) :
    (s.next e).Attempts (programs ++ (s.launch? e).toList) fun n =>
      hs n ++ (s.handover? n e).toList := by
  have onward := (onward_next filed e).2
  -- other actors hand over no line of a job
  have same (notJob : ∀ n, e ≠ .act (.job n)) (n x : Nat)
      (sender : (s.next e).link.traffic.sender? x = some (.job n)) :
      s.link.traffic.sender? x = some (.job n) := sender?_next s filed (notJob n) sender
  have nothing (notJob : ∀ n, e ≠ .act (.job n)) (n : Nat) : s.handover? n e = none :=
    handover?_eq_none fun x => same notJob n x
  have aside (notJob : ∀ n, e ≠ .act (.job n))
      (core : (s.next e).streamer.core = s.streamer.core) :
      (s.next e).Attempts (programs ++ (s.launch? e).toList) fun n =>
        hs n ++ (s.handover? n e).toList := by
    simp only [nothing notJob, launch?_of_started (congrArg StreamerCore.started core),
      Option.toList_none, List.append_nil]
    refine attempts.still onward (same notJob) (congrArg StreamerCore.started core)
      (fun j now => core ▸ now) fun k now => ?_
    rw [core] at now
    exact (attempts.reaches k now).onward onward
  have steps := next_steps s e
  generalize after : s.next e = t at steps
  cases steps with
  | @call i _ handles =>
    subst after
    have nothing := nothing (by simp)
    have same := same (by simp)
    simp only [nothing, Option.toList_none, List.append_nil]
    rcases handles.1.jobs with ⟨program, turns, turn, -, core⟩ | ⟨started, task, job⟩
    · rw [launch?_of_turn turn core, Option.toList_some]
      exact attempts.launch onward same core
    · rw [launch?_of_started started, Option.toList_none, List.append_nil]
      refine attempts.still onward same started (fun j now => ?_) fun k now => ?_
      · rcases job with gone | ⟨kept, -⟩
        · exact absurd (gone.symm.trans now) (by simp)
        · exact kept ▸ now
      · rcases task with gone | kept
        · exact absurd (gone.symm.trans now) (by simp)
        · exact (attempts.reaches k (kept.symm.trans now)).onward onward
  | @stream k _ task streams calls =>
    subst after
    have none : s.launch? (.act (.job k.job.number)) = none := rfl
    rw [none, Option.toList_none, List.append_nil]
    exact streams.attempts attempts governed filed task
  | @gone n none =>
    have still : s.next (.act (.job n)) = s := after
    have nothing (m : Nat) : s.handover? m (.act (.job n)) = .none :=
      handover?_eq_none fun x sender => by rwa [still] at sender
    simp only [nothing, show s.launch? (.act (.job n)) = .none from rfl, Option.toList_none,
      List.append_nil]
    exact attempts
  | begin new begun others link core => exact after ▸ aside (by simp) (after ▸ core)
  | aside notJob calls core => exact after ▸ aside notJob (after ▸ core)

theorem attempts_after (timeout : Option Nat) (es : List Event) :
    ((initial timeout).after es).Attempts ((initial timeout).launched es)
      ((initial timeout).handovers es) := by
  induction es using List.reverseRecOn with
  | nil =>
    constructor
    case inTurn =>
      intro n
      constructor <;> simp [initial, Link.initial, Link.traffic, Traffic.sender?, handovers]
    all_goals simp [initial, Streamer.initial, handovers, launched]
  | append_singleton es e ih =>
    rw [launched_concat, funext (handovers_concat _ es e), after_append]
    exact next_attempts ih (governed_after timeout es) (filed_after timeout es) e

/-! ## What a failure tells -/

/-- **What is known of payloads that the device failed to take**, after a run from `s₀`. -/
structure FailsTruly (s₀ : Session) (es : List Event) : Prop where
  /-- A payload that failed went over the wire exactly if it was the flush that failed. -/
  wire : ∀ x w, (x, .failed w) ∈ s₀.tries es → (x ∈ (s₀.after es).link.wire ↔ w = .flush)
  /-- A call that only sends and returns the error of a write or a flush had its payload on the
  wire, or has it there later, exactly if it was the flush that failed. -/
  call : ∀ i c p errand fs, c.transfer? = some (p, errand) → (s₀.after es).stage? i = none →
    let s := s₀.after es
    let t := s.after (.call i c :: fs)
    t.resultsOf i = s.resultsOf i → ∀ e reason,
      (t.next e).resultsOf i = t.resultsOf i ++ [.linkError (.transfer reason)] →
      ∃ (n x : Nat) (w : WriteFault), t.link.traffic.HandsOver s.link.posts.length i p n x ∧
        reason = w.reason ∧ ∀ gs, x ∈ ((t.next e).after gs).link.wire ↔ w = .flush
  /-- The lines of a job are those of its program, each handed over from its place. -/
  line : ∀ n, ∀ h ∈ s₀.handovers es n, ∃ program line, (s₀.launched es)[n]? = some program ∧
    (Job.linesOf program)[h.place]? = some line ∧
    (s₀.after es).link.traffic.payload? h.ticket = some (.ofLine line)
  /-- Nothing else is handed over by a job. -/
  sender : ∀ n x, (s₀.after es).link.traffic.sender? x = some (.job n) ↔
    ∃ h ∈ s₀.handovers es n, h.ticket = x
  /-- A line that a job hands over again has failed before. -/
  again : ∀ n, ∀ g ∈ s₀.handovers es n, ∀ h ∈ s₀.handovers es n, g.place = h.place →
    g.ticket < h.ticket → ∃ w, (g.ticket, .failed w) ∈ s₀.tries es
  /-- **A job transmits a line twice** exactly if it transmits anything after the flush of one of its
  lines has failed. -/
  twice : ∀ n,
    (∃ g ∈ s₀.handovers es n, ∃ h ∈ s₀.handovers es n, g.place = h.place ∧ g.ticket < h.ticket ∧
      g.ticket ∈ (s₀.after es).link.wire ∧ h.ticket ∈ (s₀.after es).link.wire) ↔
    ∃ g ∈ s₀.handovers es n, ∃ h ∈ s₀.handovers es n, g.ticket < h.ticket ∧
      (g.ticket, .failed .flush) ∈ s₀.tries es ∧ h.ticket ∈ (s₀.after es).link.wire

/-- A payload that failed went over the wire exactly if it was the flush that failed. -/
theorem mem_wire_of_failed {tries : List (Nat × Delivery)} {x : Nat} {w : WriteFault}
    (recorded : s.link.traffic.Recorded tries) (failed : (x, .failed w) ∈ tries) :
    x ∈ s.link.wire ↔ w = .flush := by
  refine Iff.trans recorded.mem_wire ⟨?_, ?_⟩
  · rintro ⟨f, tried, notRefused⟩
    obtain rfl := recorded.unique tried failed
    cases w with
    | write => exact absurd rfl notRefused
    | flush => rfl
  · rintro rfl
    exact ⟨_, failed, by simp⟩

/-- **What failed and what did not, is known truly.** The error of a call comes from the step that
failed, and only the error of a flush means that the payload was sent. -/
theorem fails_truly (timeout : Option Nat) (es : List Event) : (initial timeout).FailsTruly es := by
  have attempts := attempts_after timeout es
  have recorded := recorded_after timeout es
  have filed := filed_after timeout es
  constructor
  case wire => exact fun x w failed => mem_wire_of_failed recorded failed
  case call =>
    intro i c p errand fs transfer new s t pending e reason returned
    obtain ⟨returns, -⟩ := reportsTruly timeout es i c p errand fs transfer new pending
    rcases returns e with same | ⟨r, given, ⟨-, rfl, -⟩ | ⟨n, x, hands, reports⟩⟩
    · have none : t.resultsOf i = t.resultsOf i ++ [.linkError (.transfer reason)] :=
        same.symm.trans returned
      exact absurd none (by simp)
    · have own := List.append_cancel_left (given.symm.trans returned)
      simp at own
    · obtain rfl := List.singleton_inj.mp (List.append_cancel_left (given.symm.trans returned))
      obtain ⟨w, failed, own⟩ := reports.error reason rfl
      refine ⟨n, x, w, hands, own, fun gs => ?_⟩
      have run : (t.next e).after gs = (initial timeout).after (es ++ .call i c :: fs ++ e :: gs) := by
        rw [after_append, after_append]
        rfl
      have later := recorded_after timeout (es ++ .call i c :: fs ++ e :: gs)
      have known : (x, .failed w) ∈ (initial timeout).tries (es ++ .call i c :: fs ++ e :: gs) := by
        rw [tries_append, tries_append]
        exact List.mem_append_left _ (List.mem_append_right _ failed)
      rw [run]
      exact mem_wire_of_failed later known
  case line => exact attempts.line
  case sender => exact fun n => (attempts.inTurn n).tickets
  case again =>
    intro n g earlier h later place less
    obtain ⟨w, told⟩ := (attempts.inTurn n).failed earlier later less place
    exact ⟨w, recorded.delivered _ _ told (by simp)⟩
  case twice =>
    intro n
    constructor
    · rintro ⟨g, earlier, h, later, place, less, sent, resent⟩
      obtain ⟨w, told⟩ := (attempts.inTurn n).failed earlier later less place
      have failed := recorded.delivered _ _ told (by simp)
      obtain rfl := (mem_wire_of_failed recorded failed).mp sent
      exact ⟨g, earlier, h, later, less, failed, resent⟩
    · rintro ⟨g, earlier, h, later, less, failed, resent⟩
      have told : ((initial timeout).after es).link.traffic.delivery? g.ticket
          = some (.failed .flush) := by
        obtain ⟨f, told, notLost⟩ := (attempts.inTurn n).decided earlier later less
        obtain rfl := recorded.unique (recorded.delivered _ f told notLost) failed
        exact told
      obtain ⟨g', member, less', place, last | sent⟩ :=
        (attempts.inTurn n).again earlier later less told
      · subst last
        exact ⟨g, earlier, g', member, place.symm, less',
          (mem_wire_of_failed recorded failed).mpr rfl, resent⟩
      · exact ⟨g, earlier, g', member, place.symm, less',
          (mem_wire_of_failed recorded failed).mpr rfl, filed.sent _ sent⟩

/-- A call sends a line, and the flush of it fails. -/
def spoiltLine : List Event :=
  Event.swift 0 (.connect "/dev/mock0" none) ++ .device 1 (.failFlushes 1) ::
    Event.swift 2 (.writeAcked "G0 X1") ++ List.replicate 4 (.act .writer) ++ [.act (.call 2)]

/-- A job hands its only line over, the flush of it fails, and the job is resumed. -/
def resumedLine : List Event :=
  Event.swift 0 (.connect "/dev/mock0" none) ++ .device 1 (.failFlushes 1) ::
    Event.swift 2 (.control (.start "G1 X10")) ++ .act (.job 0) ::
    List.replicate 4 (.act .writer) ++ .act (.job 0) :: Event.swift 3 (.control .resume) ++
    List.replicate 2 (.act .writer) ++ List.replicate 2 (.act (.call 3)) ++ .act (.job 0) ::
    List.replicate 3 (.act .writer)

/-- **The error of a call does not mean that its line was not sent**, and a job that goes on after
such an error transmits the line again. -/
theorem sent_despite_error :
    ((initial none).after spoiltLine).resultsOf 2 = [.linkError (.transfer "flush fault")] ∧
      ((initial none).after spoiltLine).link.transmitted = "G0 X1\n".toUTF8.toList ∧
      (initial none).handovers resumedLine 0 = [⟨0, 0⟩, ⟨0, 2⟩] ∧
      ((initial none).after resumedLine).link.wire = [0, 1, 2] ∧
      ((initial none).after resumedLine).link.transmitted
        = "G1 X10\n".toUTF8.toList ++ Realtime.cycleStart.byte :: "G1 X10\n".toUTF8.toList := by
  refine ⟨?_, ?_, ?_, ?_, ?_⟩ <;> decide +kernel

end Session

end Cnc
