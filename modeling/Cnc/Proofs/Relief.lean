import Cnc.Proofs.Decoding
import Cnc.Proofs.Isolation
import Cnc.Proofs.Labour
import Cnc.Proofs.Narration
import Cnc.Proofs.Refreshing

/-!
# Every turn does some of what is left

Besides the host calls, the reader, the writer, the pollers, the refreshers
and the streaming task do some of what is left to be done in each turn, or
nothing at all (`Session.Relieves`). What is counted for the bytes that were
received covers what they may turn out to be: no frame is shorter than a byte,
and none makes more than six chores. A poller that is late asks as often as it
is due.
-/

namespace Cnc

/-! ## Sums over lists -/

section Tally

variable {α : Type} {count : α → Nat} {xs : List α}

theorem tally_filter_le (p : α → Bool) (xs : List α) :
    tally count (xs.filter p) ≤ tally count xs := by
  induction xs with
  | nil => exact Nat.le_refl _
  | cons x xs ih =>
    rw [List.filter_cons]
    split
    · exact Nat.add_le_add_left ih _
    · exact Nat.le_trans ih (Nat.le_add_left _ _)

/-- A list that has lost a member. -/
theorem tally_filter_add_le {p : α → Bool} {x : α} (member : x ∈ xs) (gone : p x = false) :
    tally count (xs.filter p) + count x ≤ tally count xs := by
  induction xs with
  | nil => exact absurd member (by simp)
  | cons y ys ih =>
    rw [List.filter_cons]
    rcases List.mem_cons.mp member with rfl | later
    · have fewer : tally count (ys.filter p) ≤ tally count ys := tally_filter_le p ys
      rw [if_neg (by simp [gone]), tally]
      omega
    · have rest := ih later
      split <;>
      · simp only [tally]
        omega

theorem tally_map_le {f : α → α} (each : ∀ x ∈ xs, count (f x) ≤ count x) :
    tally count (xs.map f) ≤ tally count xs := by
  induction xs with
  | nil => exact Nat.le_refl _
  | cons x xs ih =>
    exact Nat.add_le_add (each x List.mem_cons_self)
      (ih fun y h => each y (List.mem_cons_of_mem _ h))

/-- A list of which a member has become less. -/
theorem tally_map_add_le {f : α → α} (each : ∀ x ∈ xs, count (f x) ≤ count x) {x : α}
    (member : x ∈ xs) {n : Nat} (less : count (f x) + n ≤ count x) :
    tally count (xs.map f) + n ≤ tally count xs := by
  induction xs with
  | nil => exact absurd member (by simp)
  | cons y ys ih =>
    have first := each y List.mem_cons_self
    have later : ∀ z ∈ ys, count (f z) ≤ count z := fun z h => each z (List.mem_cons_of_mem _ h)
    simp only [List.map_cons, tally]
    rcases List.mem_cons.mp member with rfl | there
    · have rest := tally_map_le later
      omega
    · have rest := ih later there
      omega

end Tally

/-! ## What is read -/

namespace Text.Utf8

theorem count_start_le (b : UInt8) : (start b).1.count '\n' ≤ 1 := by
  unfold start
  split
  · exact List.count_le_length
  · exact Nat.zero_le _
  · exact List.count_le_length

theorem count_readByte_le (p : Option Pending) (b : UInt8) : (readByte p b).1.count '\n' ≤ 1 := by
  unfold readByte
  cases p with
  | none => exact count_start_le b
  | some p =>
    dsimp only
    split
    · cases p.more with
      | zero => exact List.count_le_length
      | succ => exact Nat.zero_le _
    · rw [List.count_cons_of_ne (by decide)]
      exact count_start_le b

/-- **There are no more line feeds in a text** than there are bytes. -/
theorem count_decodeFrom_le (p : Option Pending) (bs : List UInt8) :
    (decodeFrom p bs).count '\n' ≤ bs.length := by
  induction bs generalizing p with
  | nil => cases p <;> simp [decodeFrom, replacement]
  | cons b bs ih =>
    rw [decodeFrom_cons, List.count_append, List.length_cons, Nat.add_comm]
    exact Nat.add_le_add (ih _) (count_readByte_le p b)

end Text.Utf8

open Text Utf8

/-- A text falls into one piece more than there are separators in it. -/
theorem Text.length_splitOn (separator : Char) (text : List Char) :
    (text.splitOn separator).length = text.count separator + 1 := by
  induction text with
  | nil => rfl
  | cons c cs ih =>
    rw [List.splitOn_cons_eq_if_modifyHead, List.count_cons]
    split
    · rw [List.length_cons, ih]
    · rw [List.length_modifyHead, ih]

/-- **A chunk completes no more lines** than it has bytes. -/
theorem FrameSplitter.length_feed_le (s : FrameSplitter) (oneLine : '\n' ∉ s.pending)
    (chunk : List UInt8) : (s.feed chunk).2.length ≤ chunk.length := by
  have pieces : ((s.pending ++ decodeLossy chunk).splitOn '\n').length ≤ chunk.length + 1 := by
    rw [Text.length_splitOn, List.count_append, List.count_eq_zero.mpr oneLine, Nat.zero_add]
    exact Nat.succ_le_succ (count_decodeFrom_le none chunk)
  simp only [feed, List.length_map]
  refine Nat.le_trans (List.length_filter_le ..) ?_
  rw [List.length_map, List.length_dropLast]
  omega

/-- No frame makes the reader do much. -/
theorem Frame.length_chores_le (f : Frame) : f.chores.length ≤ 6 := by
  cases f with
  | status raw => cases report : MachineStatus.parse raw.toList <;> simp [chores, report]
  | setting => simp [chores]
  | log line =>
    have answer := Option.length_toList_le (o := (Frame.log line).ack?)
    have alarm := Option.length_toList_le (o := (Frame.log line).alarm?)
    simp [chores]
    omega

theorem length_chores_le (frames : List Frame) :
    (frames.flatMap Frame.chores).length ≤ 6 * frames.length := by
  induction frames with
  | nil => exact Nat.le_refl _
  | cons f frames ih =>
    have own := f.length_chores_le
    rw [List.flatMap_cons, List.length_append, List.length_cons]
    omega

namespace Session

variable {s t u : Session} {a : Actor} {i : Nat} {st : CallStage} {calls : Finset Nat}

/-- A turn of `a` besides the calls does nothing, or some of what is left. -/
def Relieves (s : Session) (a : Actor) (t : Session) : Prop :=
  s.Lapses a t ∨ t.sideWork < s.sideWork

theorem use_relieves {g : Guarded} {inside after : Session → Session}
    (through : ∀ u : Session, u.Alike s → (after ((inside u).leave g)).sideWork < s.sideWork) :
    s.Relieves a (s.use a g inside after) := by
  rcases use_lapses s a g inside after with lapses | ⟨u, alike, same⟩
  · exact .inl lapses
  · exact .inr (same ▸ through u alike)

/-! ## The streaming task -/

section Task

variable {k : StreamTask}

/-- **A task that notes something** which leaves it with less to do. -/
theorem sideWork_withTask_lt (task : s.streamer.task = some k) {k' : StreamTask}
    (less : k'.work s.streamer.state < k.work s.streamer.state) :
    (s.withTask k').sideWork < s.sideWork := by
  have split := sideWork_withTask task k'
  omega

/-- **A job that fails** is paused, and its task has less to do. -/
theorem sideWork_failJob_lt (task : s.streamer.task = some k) {k' : StreamTask}
    (less : k'.work .paused < k.work s.streamer.state) (reason : String) :
    ((s.withTask k').failJob reason).sideWork < s.sideWork := by
  show ((s.withTask k').setState .paused).sideWork < _
  rw [(alike_setState _ .paused).sideWork]
  simp only [sideWork, withTask, task, Option.map_some, Option.getD_some]
  omega

theorem sideWork_dropTask_lt (task : s.streamer.task = some k) :
    s.dropTask.sideWork < s.sideWork := by
  have split := sideWork_dropTask s
  rw [task] at split
  have some_ : 0 < k.work s.streamer.state := by
    unfold StreamTask.work
    omega
  simp only [Option.map_some, Option.getD_some] at split
  omega

/-- A job that ends leaves nothing to be done. -/
theorem sideWork_abortJob_lt (task : s.streamer.task = some k) :
    s.abortJob.sideWork < s.sideWork :=
  Nat.lt_of_le_of_lt (sideWork_conclude_le _ _) (sideWork_dropTask_lt task)

theorem handOver_relieves (task : s.streamer.task = some k) (stage : k.stage = .ready)
    (line : String) : s.Relieves (.job k.job.number) (s.handOver k line) := by
  unfold handOver
  split
  · next running =>
    cases posted : s.post? (.job k.job.number) (.ofLine line) with
    | none => exact .inr (sideWork_abortJob_lt task)
    | some r =>
      obtain ⟨x, u⟩ := r
      have streamer : u.streamer = s.streamer := congrArg (·.streamer) (post?_controlled posted)
      have more := sideWork_post? posted
      have split := sideWork_withTask (s := u) ((congrArg _ streamer).trans task)
        { k with stage := .sending x }
      right
      show (u.withTask { k with stage := .sending x }).sideWork < _
      rw [streamer, running] at split
      simp only [StreamTask.work, stage, if_true] at split
      omega
  · exact .inr (sideWork_dropTask_lt task)
  · split
    · exact .inr (sideWork_abortJob_lt task)
    · exact .inl (.idle s _)

/-- **A line that went off** is waited for. -/
theorem sideWork_counted_lt (task : s.streamer.task = some k) {x : Nat}
    (stage : k.stage = .sending x) (deadline : Option Nat) :
    (s.withTask { k with stage := .awaiting x deadline }).sideWork < s.sideWork := by
  refine sideWork_withTask_lt task ?_
  simp only [StreamTask.work, stage]
  split <;> omega

/-- **A line that was answered** is one line less. -/
theorem sideWork_advanceCursor_lt (task : s.streamer.task = some k) {x : Nat} {d : Option Nat}
    (stage : k.stage = .awaiting x d) (inside : k.cursor < k.job.lines.length) (r : Ack) :
    (s.advanceCursor k r).sideWork < s.sideWork := by
  have less : StreamTask.work { k with cursor := k.cursor + 1, stage := .ready } s.streamer.state
      < k.work s.streamer.state := by
    simp only [StreamTask.work, stage]
    split <;> split <;> omega
  cases r with
  | ok | error =>
    refine sideWork_withTask_lt (k := k) ?_ less
    exact task

/-- **The streaming task** does nothing, or some of what is left. -/
theorem taskTurn_relieves (task : s.streamer.task = some k) (sized : s.streamer.core.Sized) :
    s.Relieves (.job k.job.number) (s.taskTurn k) := by
  unfold taskTurn
  dsimp only
  cases stage : k.stage with
  | ready =>
    dsimp only
    split
    · exact .inr (Nat.lt_of_le_of_lt (sideWork_conclude_le _ _) (sideWork_dropTask_lt task))
    · exact handOver_relieves task stage _
  | sending x =>
    dsimp only
    split
    · exact .inl (.idle s _)
    · refine use_relieves fun u alike => ?_
      have streamer : ((u.countSent x).leave .stats).streamer = s.streamer := by
        rw [(alike_leave _ _).2.2.1, countSent_streamer, alike.2.2.1]
      rw [(alike_again _ _).sideWork, ← alike.sideWork_counted x]
      exact sideWork_counted_lt ((congrArg _ streamer).trans task) stage _
    · exact .inr (sideWork_abortJob_lt task)
    · refine .inr (sideWork_failJob_lt task ?_ _)
      simp [StreamTask.work, stage]
  | awaiting x deadline =>
    dsimp only
    split
    · next r _ =>
      have inside : k.cursor < k.job.lines.length := (sized k task).2 (by simp [stage])
      right
      rw [(alike_again _ _).sideWork]
      exact sideWork_advanceCursor_lt task stage inside r
    · exact .inr (sideWork_abortJob_lt task)
    · split
      · exact .inr (sideWork_dropTask_lt task)
      · split
        · next due =>
          obtain ⟨time, rfl⟩ : ∃ time, deadline = some time :=
            Option.ne_none_iff_exists'.mp fun none => by simp [none] at due
          refine .inr (sideWork_failJob_lt task ?_ _)
          simp [StreamTask.work, stage]
        · exact .inl (.idle s _)

end Task

/-! ## Pollers and refreshers -/

section Refresher

variable {r : Refresher} {n : Nat}

/-- **A refresher that is gone** has nothing left to do. -/
theorem sideWork_dropRefresher_lt (found : s.refresher? n = some r) :
    (s.dropRefresher n).sideWork < s.sideWork := by
  have member : r ∈ s.refreshers := List.mem_of_find?_eq_some found
  have number : r.number = n := by simpa using List.find?_some found
  have fewer : tally Refresher.work (s.refreshers.filter (·.number ≠ n)) + r.work
      ≤ tally Refresher.work s.refreshers := tally_filter_add_le member (by simp [number])
  have some_ : 0 < r.work := by
    unfold Refresher.work
    split <;> omega
  simp only [sideWork, dropRefresher]
  omega

/-- **A refresher that has asked** only waits until the request went off. -/
theorem sideWork_asked (found : s.refresher? n = some r) (sending : r.sending = none) (x : Nat) :
    Session.sideWork { s with refreshers := s.refreshers.map fun q =>
        if q.number = n then { q with sending := some x } else q } + 7 ≤ s.sideWork := by
  have member : r ∈ s.refreshers := List.mem_of_find?_eq_some found
  have number : r.number = n := by simpa using List.find?_some found
  have asked : tally Refresher.work (s.refreshers.map fun q =>
      if q.number = n then { q with sending := some x } else q) + 7
      ≤ tally Refresher.work s.refreshers := by
    refine tally_map_add_le (fun q _ => ?_) member (by simp [number, Refresher.work, sending])
    split
    · simp only [Refresher.work, Option.isSome_some, if_true]
      split <;> omega
    · exact Nat.le_refl _
  simp only [sideWork]
  omega

/-- **A refresher** does nothing, or some of what is left. -/
theorem refresherTurn_relieves (s : Session) (n : Nat) :
    s.Relieves (.refresher n) (s.refresherTurn n) := by
  unfold refresherTurn
  cases found : s.refresher? n with
  | none => exact .inl (.idle s _)
  | some r =>
    dsimp only
    cases sending : r.sending with
    | none =>
      dsimp only
      split
      · split
        · exact .inr (sideWork_dropRefresher_lt found)
        · next x u posted =>
          have more := sideWork_post? posted
          have same : u.refreshers = s.refreshers :=
            congrArg Ledger.refreshers (post?_ledger posted)
          have asked := sideWork_asked (s := u) (by rw [refresher?, same]; exact found) sending x
          right
          omega
      · exact .inl (.idle s _)
    | some x =>
      dsimp only
      split
      · exact .inl (.idle s _)
      · split
        · refine use_relieves fun u alike => ?_
          have same : ((u.countSent x).leave .stats).refreshers = s.refreshers := by
            rw [(alike_leave _ _).2.2.2.2.1, countSent_refreshers, alike.2.2.2.2.1]
          rw [← alike.sideWork_counted x]
          exact sideWork_dropRefresher_lt (by rw [refresher?, same]; exact found)
        · exact .inr (sideWork_dropRefresher_lt found)

end Refresher

end Session

open Text Utf8 Traffic

/-! ## What the reader and the pollers rely on -/

/-- **What the reader and the pollers of a connection rely on**: what is kept of the bytes that were
read is part of one line, and the pollers have numbers of their own and ask in intervals. -/
structure Connection.Sound (c : Connection) (spawned : Nat) : Prop where
  oneLine : '\n' ∉ c.splitter.pending
  numbers : (c.pollers.map (·.number)).Nodup
  known : ∀ p ∈ c.pollers, p.number < spawned
  asks : ∀ p ∈ c.pollers, 0 < p.interval

namespace Connection.Sound

variable {c c' : Connection} {n m : Nat}

theorem of_same (sound : c.Sound n) (splitter : c'.splitter = c.splitter)
    (pollers : c'.pollers = c.pollers) (later : n ≤ m) : c'.Sound m where
  oneLine := splitter ▸ sound.oneLine
  numbers := pollers ▸ sound.numbers
  known p member := Nat.lt_of_lt_of_le (sound.known p (pollers ▸ member)) later
  asks p member := sound.asks p (pollers ▸ member)

theorem later (sound : c.Sound n) (later : n ≤ m) : c.Sound m := sound.of_same rfl rfl later

/-- What is read ends with part of a line again. -/
theorem read (sound : c.Sound n) (bs : List UInt8) (rest : List Incoming) :
    (c.readPiece bs rest).Sound n where
  oneLine := by
    let text := c.splitter.pending ++ decodeLossy (bs.take readSize)
    show '\n' ∉ (text.splitOn '\n').getLast?.getD []
    cases last : (text.splitOn '\n').getLast? with
    | none => simp
    | some piece => exact not_mem_of_mem_splitOn (List.mem_of_getLast? last)
  numbers := sound.numbers
  known := sound.known
  asks := sound.asks

theorem fresh (number : Nat) (port : String) : (Connection.fresh number port).Sound n := by
  constructor <;> simp [Connection.fresh, FrameSplitter.empty]

/-- What a poller notes leaves its number and its interval. -/
theorem setPoller (sound : c.Sound n) {p : Poller}
    (same : ∀ q ∈ c.pollers, q.number = p.number → p.interval = q.interval) :
    Connection.Sound
      { c with pollers := c.pollers.map fun q => if q.number = p.number then p else q } n where
  oneLine := sound.oneLine
  numbers := by
    have numbers : (c.pollers.map fun q => if q.number = p.number then p else q).map (·.number)
        = c.pollers.map (·.number) := by
      rw [List.map_map]
      refine List.map_congr_left fun q _ => ?_
      by_cases own : q.number = p.number <;> simp [own]
    simpa only [numbers] using sound.numbers
  known q member := by
    obtain ⟨r, before, rfl⟩ := List.mem_map.mp member
    split
    · next own => exact own ▸ sound.known r before
    · exact sound.known r before
  asks q member := by
    obtain ⟨r, before, rfl⟩ := List.mem_map.mp member
    split
    · next own => exact same r before own ▸ sound.asks r before
    · exact sound.asks r before

/-- **A new poller** has a number that no other has. -/
theorem add (sound : c.Sound n) {interval due : Nat} (some_ : interval ≠ 0) :
    Connection.Sound { c with pollers := c.pollers ++ [⟨n, interval, due, none⟩] } (n + 1) where
  oneLine := sound.oneLine
  numbers := by
    simp only [List.map_append, List.map_cons, List.map_nil]
    refine List.nodup_append'.mpr ⟨sound.numbers, List.nodup_singleton _, ?_⟩
    rw [List.disjoint_singleton]
    intro member
    obtain ⟨p, before, own⟩ := List.mem_map.mp member
    exact absurd (sound.known p before) (by omega)
  known p member := by
    rcases List.mem_append.mp member with before | new
    · exact Nat.lt_succ_of_lt (sound.known p before)
    · rw [List.mem_singleton.mp new]
      exact Nat.lt_succ_self n
  asks p member := by
    rcases List.mem_append.mp member with before | new
    · exact sound.asks p before
    · rw [List.mem_singleton.mp new]
      exact Nat.pos_of_ne_zero some_

end Connection.Sound

theorem Traffic.Move.sound {t u : Traffic} {d : Deed} {n : Nat} (h : Move t d u)
    (notPoll : d ≠ .poll) (sound : ∀ c, t.connection = some c → c.Sound n) :
    ∀ c, u.connection = some c → c.Sound n := by
  intro c' there
  cases h with
  | poll => exact absurd rfl notPoll
  | close => exact absurd there (by simp)
  | «open» port closed =>
    obtain rfl := Option.some.inj there
    exact .fresh _ port
  | read here =>
    obtain rfl := Option.some.inj there
    exact (sound _ here).read _ _
  | @post c _ _ here =>
    obtain rfl := Option.some.inj there
    exact (sound c here).of_same (by simp) (by simp) (Nat.le_refl n)
  | @device c _ here =>
    obtain rfl := Option.some.inj there
    exact (sound c here).of_same (by simp) (by simp) (Nat.le_refl n)
  | takeRealtime here | takeLine here | place here | send here | refuseLine here
  | refuseRealtime here | spoilLine here | spoilRealtime here | giveUp here | settle here
  | chore here | timeout here | clear here =>
    obtain rfl := Option.some.inj there
    exact (sound _ here).of_same rfl rfl (Nat.le_refl n)

namespace Session

variable {s t u : Session} {a : Actor} {e : Event} {i n : Nat} {st : CallStage}

/-- The open connection is sound. -/
def Sound (s : Session) : Prop := ∀ c, s.link.connection = some c → c.Sound s.spawned

theorem Sound.of_traffic (sound : s.Sound) (same : t.link.traffic = s.link.traffic)
    (later : s.spawned ≤ t.spawned) : t.Sound := fun c there =>
  (sound c ((congrArg Traffic.connection same).symm.trans there)).later later

theorem Sound.setPoller (sound : s.Sound) {p q : Poller} (found : s.poller? p.number = some q)
    (same : p.interval = q.interval) : (s.setPoller p).Sound := by
  obtain ⟨c, here, among⟩ := Option.bind_eq_some_iff.mp found
  have member := List.mem_of_find?_eq_some among
  have number : q.number = p.number := by simpa using List.find?_some among
  intro c' there
  simp only [Session.setPoller, here, withConnection, Option.some.injEq] at there
  subst there
  have spawned : (s.setPoller p).spawned = s.spawned := by
    simp [Session.setPoller, here, withConnection]
  rw [spawned]
  refine (sound c here).setPoller fun r before own => ?_
  have only : r = q :=
    List.inj_on_of_nodup_map (sound c here).numbers before member (own.trans number.symm)
  rw [only, same]

theorem Sound.post? {p : Payload} {x : Nat} (sound : s.Sound) (posted : s.post? a p = some (x, t)) :
    t.Sound := by
  have spawned : t.spawned = s.spawned := congrArg Ledger.spawned (post?_ledger posted)
  intro c there
  rw [spawned]
  exact (post?_move posted).2.sound (by simp) sound c there

/-- That a payload is counted as sent leaves the connection as it is. -/
theorem Alike.traffic_counted (alike : u.Alike s) (x : Nat) :
    ((u.countSent x).leave .stats).link.traffic = s.link.traffic := by
  rw [(alike_leave _ _).2.1, countSent_traffic, alike.2.1]

theorem Alike.poller?_counted (alike : u.Alike s) (x n : Nat) :
    ((u.countSent x).leave .stats).poller? n = s.poller? n := by
  have same : ((u.countSent x).leave .stats).link.connection = s.link.connection :=
    congrArg Traffic.connection (alike.traffic_counted x)
  rw [poller?, same, poller?]

theorem Sound.counted (sound : s.Sound) (alike : u.Alike s) (x : Nat) :
    ((u.countSent x).leave .stats).Sound := by
  refine sound.of_traffic (alike.traffic_counted x) (Nat.le_of_eq ?_)
  rw [(alike_leave _ _).2.2.2.2.2.1, countSent_spawned, alike.2.2.2.2.2.1]

theorem pollerTurn_sound (sound : s.Sound) (n : Nat) : (s.pollerTurn n).Sound := by
  unfold pollerTurn
  cases found : s.poller? n with
  | none => exact sound
  | some p =>
    obtain rfl : p.number = n := number_of_poller? found
    dsimp only
    split
    · split
      · split
        · exact sound
        · next x v posted =>
          exact (sound.post? posted).setPoller (p := ⟨p.number, p.interval, p.next s.now, some x⟩)
            ((post?_pollers posted _).trans found) rfl
      · exact sound
    · next x _ =>
      split
      · exact sound
      · have goes {v : Session} (there : v.Sound) (same : v.poller? p.number = some p) :
            ((v.setPoller { p with sending := none }).again (.poller p.number)).Sound :=
          there.setPoller (p := { p with sending := none }) same rfl
        split
        · rcases use_cases s (.poller p.number) .stats (·.countSent x)
            (fun v => (v.setPoller { p with sending := none }).again (.poller p.number))
            with alike | ⟨u, alike, same⟩
          · exact sound.of_traffic (congrArg Link.traffic alike.2.1)
              (Nat.le_of_eq alike.2.2.2.2.2.1.symm)
          · rw [same]
            exact goes (sound.counted alike x) ((alike.poller?_counted x p.number).trans found)
        · exact goes sound found

theorem Sound.next (sound : s.Sound) (e : Event) : (s.next e).Sound := by
  by_cases poller : ∃ n, e = .act (.poller n)
  · obtain ⟨n, rfl⟩ := poller
    exact pollerTurn_sound sound n
  · have later := spawned_le_next s e
    rcases next_makes s fun n own => poller ⟨n, own⟩ with same | ⟨d, move, does⟩
    · exact sound.of_traffic same later
    · by_cases polls : d = .poll
      · subst polls
        cases does with
        | write own => exact absurd own (by simp [Deed.byWriter])
        | poll polls =>
          cases polls with
          | note m => exact absurd ⟨m, rfl⟩ poller
          | @add i interval stage =>
            have turn : s.next (.act (.call i)) = s.addPoller i interval := by
              show s.callTurn i = _
              simp only [callTurn, stage, beginCall]
            rw [turn]
            unfold addPoller
            split
            · exact sound
            · next c here =>
              split
              · exact sound
              · next some_ =>
                let added : Session := { s.withConnection
                    { c with pollers := c.pollers ++ [⟨s.spawned, interval, s.now, none⟩] } with
                  spawned := s.spawned + 1 }
                have alike : (added.wake (.poller s.spawned)).Alike added := alike_wake _ _
                have larger : added.Sound := by
                  intro c' there
                  obtain rfl := Option.some.inj there
                  exact (sound c here).add some_
                exact larger.of_traffic (congrArg Link.traffic alike.2.1)
                  (Nat.le_of_eq alike.2.2.2.2.2.1.symm)
      · intro c there
        exact (move.sound polls sound c there).later later

theorem sound_after (timeout : Option Nat) (es : List Event) :
    ((initial timeout).after es).Sound :=
  after_induction (P := Sound) (fun c there => absurd there (by simp [initial, Link.initial]))
    (fun _ e sound => sound.next e) es

/-! ## Pollers -/

/-- **A query that is due** takes the poller further. -/
theorem overdue_next (p : Poller) {now : Nat} (asks : 0 < p.interval) (due : p.due ≤ now)
    (sending : Option Nat) :
    Poller.overdue ⟨p.number, p.interval, p.next now, sending⟩ now + 1 ≤ p.overdue now := by
  simp only [Poller.overdue, Poller.next]
  split_ifs <;> omega

theorem sideWork_setPoller {c : Connection} {p q : Poller} (here : s.link.connection = some c)
    (sound : c.Sound n) (found : s.poller? p.number = some q) {m : Nat}
    (less : p.work s.now + m ≤ q.work s.now) :
    (s.setPoller p).sideWork + m ≤ s.sideWork := by
  have among : c.pollers.find? (·.number = p.number) = some q := by
    simpa [poller?, here] using found
  have member := List.mem_of_find?_eq_some among
  have number : q.number = p.number := by simpa using List.find?_some among
  have fewer : tally (Poller.work · s.now) (c.pollers.map fun r =>
      if r.number = p.number then p else r) + m ≤ tally (Poller.work · s.now) c.pollers := by
    refine tally_map_add_le (fun r before => ?_) member ?_
    · split
      · next own =>
        have only : r = q :=
          List.inj_on_of_nodup_map sound.numbers before member (own.trans number.symm)
        rw [only]
        omega
      · exact Nat.le_refl _
    · rwa [if_pos number]
  have split := sideWork_withConnection here
    { c with pollers := c.pollers.map fun r => if r.number = p.number then p else r }
  have same : s.setPoller p = s.withConnection
      { c with pollers := c.pollers.map fun r => if r.number = p.number then p else r } := by
    simp only [setPoller, here]
  rw [same]
  simp only [Connection.work] at split
  omega

/-- **A poller that has asked** only waits until the query went off. -/
theorem sideWork_queried (sound : s.Sound) {p : Poller} (found : s.poller? p.number = some p)
    (sending : p.sending = none) (due : p.due ≤ s.now) (x : Nat) :
    (s.setPoller ⟨p.number, p.interval, p.next s.now, some x⟩).sideWork + 7 ≤ s.sideWork := by
  obtain ⟨c, here, among⟩ := Option.bind_eq_some_iff.mp found
  have asks := (sound c here).asks p (List.mem_of_find?_eq_some among)
  have later := overdue_next p asks due (some x)
  refine sideWork_setPoller (p := ⟨p.number, p.interval, p.next s.now, some x⟩) here (sound c here)
    found ?_
  simp only [Poller.work, sending, Option.isSome_some, Option.isSome_none, if_true,
    Bool.false_eq_true, if_false]
  omega

/-- **A poller whose query went off** has done with it. -/
theorem sideWork_queryDone_lt (sound : s.Sound) {p : Poller} (found : s.poller? p.number = some p)
    {x : Nat} (sending : p.sending = some x) :
    ((s.setPoller { p with sending := none }).again (.poller p.number)).sideWork < s.sideWork := by
  obtain ⟨c, here, -⟩ := Option.bind_eq_some_iff.mp found
  have less := sideWork_setPoller (p := { p with sending := none }) here (sound c here) found
    (m := 3) (by simp [Poller.work, sending, Poller.overdue])
  rw [(alike_again _ _).sideWork]
  omega

/-- **A poller** does nothing, or some of what is left. -/
theorem pollerTurn_relieves (sound : s.Sound) (n : Nat) :
    s.Relieves (.poller n) (s.pollerTurn n) := by
  unfold pollerTurn
  cases found : s.poller? n with
  | none => exact .inl (.idle s _)
  | some p =>
    obtain rfl : p.number = n := number_of_poller? found
    dsimp only
    cases sending : p.sending with
    | none =>
      dsimp only
      split
      · next due =>
        split
        · exact .inl (.idle s _)
        · next x v posted =>
          have more := sideWork_post? posted
          have now : v.now = s.now := congrArg Outlook.now (outlook_of_view (post?_view posted))
          have asked := sideWork_queried (sound.post? posted)
            ((post?_pollers posted _).trans found) sending (now ▸ due) x
          rw [now] at asked
          right
          omega
      · exact .inl (.idle s _)
    | some x =>
      dsimp only
      split
      · exact .inl (.idle s _)
      · split
        · refine use_relieves fun u alike => ?_
          rw [← alike.sideWork_counted x]
          exact sideWork_queryDone_lt (sound.counted alike x)
            ((alike.poller?_counted x p.number).trans found) sending
        · exact .inr (sideWork_queryDone_lt sound found sending)

/-! ## The writer -/

section Writer

variable {c : Connection}

/-- What the writer does to its own part of the connection. -/
theorem sideWork_withConnection_lt (here : s.link.connection = some c) {c' : Connection}
    (less : c'.work s.now < c.work s.now) : (s.withConnection c').sideWork < s.sideWork := by
  have split := sideWork_withConnection here c'
  omega

theorem failWrite_sideWork (here : s.link.connection = some c) {x : Nat}
    (stage : c.writer = .writing x) (faults faults' : Nat) (f : WriteFault) :
    (s.failWrite { c with writeFaults := faults, flushFaults := faults' } x f).sideWork
      < s.sideWork := by
  unfold failWrite
  split
  · refine sideWork_withConnection_lt here ?_
    simp [Connection.work, WriterStage.work, stage]
  · rw [sideWork_deliver]
    refine sideWork_withConnection_lt here ?_
    simp [Connection.work, WriterStage.work, stage]

theorem attemptWrite_sideWork (here : s.link.connection = some c) {x : Nat}
    (stage : c.writer = .writing x) : (s.attemptWrite c x).sideWork < s.sideWork := by
  unfold attemptWrite
  dsimp only
  split
  · exact failWrite_sideWork here stage _ _ _
  · split
    · exact failWrite_sideWork (s := { s with link.wire := s.link.wire ++ [x] }) here stage _ _ _
    · rw [sideWork_deliver]
      refine sideWork_withConnection_lt (s := { s with link.wire := s.link.wire ++ [x] }) here ?_
      simp [Connection.work, WriterStage.work, stage]

theorem giveUpSlot_sideWork (here : s.link.connection = some c) {x : Nat} {f : WriteFault}
    (stage : c.writer = .failed x f) : (s.giveUpSlot c).sideWork < s.sideWork := by
  unfold giveUpSlot
  split
  · refine sideWork_withConnection_lt here ?_
    simp [Connection.work, WriterStage.work, stage]
  · rw [sideWork_answer]
    refine sideWork_withConnection_lt here ?_
    simp [Connection.work, WriterStage.work, stage]

/-- **The writer** does nothing, or some of what is left. -/
theorem writerTurn_relieves (s : Session) : s.Relieves .writer s.writerTurn := by
  unfold writerTurn
  cases here : s.link.connection with
  | none => exact .inl (.idle s _)
  | some c =>
    dsimp only
    cases stage : c.writer with
    | idle =>
      dsimp only
      split
      · next credit => exact .inl (.gaveWay credit)
      · unfold takePayload
        split
        · next x rest first =>
          right
          refine sideWork_withConnection_lt (s := s.spend) here ?_
          simp [Connection.work, WriterStage.work, stage, first]
          omega
        · next x rest none first =>
          right
          refine sideWork_withConnection_lt (s := s.spend) here ?_
          simp [Connection.work, WriterStage.work, stage, first]
          omega
        · exact .inl (.idle s _)
    | taken x =>
      refine use_relieves fun u alike => ?_
      have there : u.link.connection = some c := (congrArg Link.connection alike.2.1).trans here
      rw [(alike_again _ _).sideWork, (alike_leave _ _).sideWork, ← alike.sideWork]
      refine sideWork_withConnection_lt there ?_
      simp [Connection.work, WriterStage.work, stage]
    | writing x =>
      dsimp only
      split
      · exact .inl (.idle s _)
      · exact .inr (attemptWrite_sideWork here stage)
    | failed x f =>
      refine use_relieves fun u alike => ?_
      have there : u.link.connection = some c := (congrArg Link.connection alike.2.1).trans here
      rw [(alike_again _ _).sideWork, sideWork_deliver, (alike_leave _ _).sideWork,
        ← alike.sideWork]
      exact giveUpSlot_sideWork there stage

end Writer

/-! ## The reader -/

/-- What a chore does leaves nothing behind. -/
theorem sideWork_doChore (s : Session) (chore : Chore) :
    (s.doChore chore).sideWork = s.sideWork := by
  cases chore with
  | setStatus status => exact sideWork_setStatus s status
  | publish e => exact sideWork_publish s e
  | settle r =>
    show (s.settleAnswer r).sideWork = _
    unfold settleAnswer
    cases here : s.link.connection with
    | none => rfl
    | some c =>
      dsimp only
      split
      · rfl
      · next x rest _ =>
        have split := sideWork_withConnection here { c with slots := rest }
        rw [sideWork_answer]
        simp only [Connection.work] at split
        omega
  | _ => rfl

/-- **Reading makes chores**, but not more than were to be expected of so many bytes. -/
theorem readPiece_work {c : Connection} {n now : Nat} (sound : c.Sound n) {bs : List UInt8}
    {rest : List Incoming} (inbox : c.inbox = .bytes bs :: rest) (none : c.chores = []) :
    (c.readPiece bs rest).work now < c.work now := by
  have frames := c.splitter.length_feed_le sound.oneLine (bs.take readSize)
  have chores := length_chores_le (c.splitter.feed (bs.take readSize)).2
  have size : readSize = 1024 := rfl
  simp only [List.length_take, size] at frames chores
  have left : tally Incoming.work (if (bs.drop readSize).isEmpty then rest
      else .bytes (bs.drop readSize) :: rest) + 8 * min 1024 bs.length
      ≤ 8 * bs.length + tally Incoming.work rest + if bs.length ≤ 1024 then 0 else 2 := by
    by_cases all : bs.length ≤ 1024
    · have empty : bs.drop readSize = [] := List.drop_eq_nil_of_le all
      rw [empty]
      simp [all]
      omega
    · have more : (bs.drop readSize).isEmpty = false := by
        rw [List.isEmpty_eq_false_iff, ← List.length_pos_iff, List.length_drop, size]
        omega
      rw [more]
      simp [tally, Incoming.work, all, size]
      omega
  simp only [Connection.work, Connection.readPiece, inbox, none, tally, Incoming.work,
    List.length_cons, List.length_nil, size, List.length_take] at left ⊢
  by_cases all : bs.length ≤ 1024
  · rw [if_pos all] at left
    omega
  · rw [if_neg all] at left
    omega

/-- **The reader** does nothing, or some of what is left. -/
theorem readerTurn_relieves (sound : s.Sound) : s.Relieves .reader s.readerTurn := by
  unfold readerTurn
  cases here : s.link.connection with
  | none => exact .inl (.idle s _)
  | some c =>
    have ends {x : Incoming} {rest : List Incoming} (inbox : c.inbox = x :: rest) :
        s.endConnection.sideWork < s.sideWork := by
      have split := sideWork_endConnection here
      have some_ : 0 < x.work := by cases x <;> simp [Incoming.work]
      simp only [Connection.work, inbox, tally] at split
      omega
    dsimp only
    cases chores : c.chores with
    | cons chore rest =>
      have less {u : Session} (alike : u.Alike s) :
          ((u.withConnection { c with chores := rest }).doChore chore).sideWork < s.sideWork := by
        have there : u.link.connection = some c := (congrArg Link.connection alike.2.1).trans here
        rw [sideWork_doChore, ← alike.sideWork]
        refine sideWork_withConnection_lt there ?_
        simp [Connection.work, chores]
      dsimp only [readerChore]
      split
      · refine use_relieves fun u alike => ?_
        rw [(alike_again _ _).sideWork, (alike_leave _ _).sideWork]
        exact less alike
      · exact .inr (less (.refl s))
    | nil =>
      cases inbox : c.inbox with
      | nil => exact .inl (.idle s _)
      | cons first rest =>
        cases first with
        | bytes bs =>
          exact .inr (sideWork_withConnection_lt here (readPiece_work (sound c here) inbox chores))
        | eof => exact .inr (ends inbox)
        | fault f =>
          cases f with
          | timedOut =>
            right
            refine sideWork_withConnection_lt here ?_
            simp [Connection.work, inbox, chores, tally, Incoming.work]
          | _ => exact .inr (ends inbox)

end Session

end Cnc
