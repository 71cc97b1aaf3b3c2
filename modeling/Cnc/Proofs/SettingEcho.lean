import Cnc.Proofs.Intake
import Cnc.Proofs.Reachable
import Cnc.Proofs.SettingLines
import Cnc.Proofs.Texts

/-!
# Settings that are echoed

A host sets a setting by a line, and learns of it when the controller reports
it. If the controller echoes the line as it was written, the reader stores the
trimmed value under the number and publishes it once, and nothing else comes
of the echo (`Session.TakesEcho`). This holds if and only if no chunk that the
reader reads ends inside a character of the echo
(`Session.setting_round_trip`), so a long value may come back damaged
(`Session.not_takesEcho_longEcho`).

The echo stands among other lines, and the chunks need not respect it. A chunk
may be cut behind a line without changing what is read
(`Text.Utf8.flatMap_decodeLossy_cut`), so the frames before, of and behind the
echo are those of three streams (`Session.Echoes.frames`), and the middle one
is the business of `SettingLines`.
-/

namespace Cnc

open Text Utf8

/-! ## Chunks cut behind a line -/

namespace Text.Utf8

/-- The first bytes of some chunks, in the same chunks. -/
def takeBytes (n : Nat) : List (List UInt8) → List (List UInt8)
  | [] => []
  | c :: cs => c.take n :: takeBytes (n - c.length) cs

/-- What is left of some chunks behind their first bytes. -/
def dropBytes (n : Nat) : List (List UInt8) → List (List UInt8)
  | [] => []
  | c :: cs => c.drop n :: dropBytes (n - c.length) cs

theorem flatten_takeBytes (n : Nat) (cs : List (List UInt8)) :
    (takeBytes n cs).flatten = cs.flatten.take n := by
  induction cs generalizing n with
  | nil => rw [takeBytes, List.flatten_nil, List.take_nil]
  | cons c cs ih => rw [takeBytes, List.flatten_cons, ih, List.flatten_cons, List.take_append]

theorem flatten_dropBytes (n : Nat) (cs : List (List UInt8)) :
    (dropBytes n cs).flatten = cs.flatten.drop n := by
  induction cs generalizing n with
  | nil => rw [dropBytes, List.flatten_nil, List.drop_nil]
  | cons c cs ih => rw [dropBytes, List.flatten_cons, ih, List.flatten_cons, List.drop_append]

/-- Bytes that end with a line, if there are any. -/
def Whole (bs : List UInt8) : Prop := bs = [] ∨ ∃ front, bs = front ++ [10]

theorem decodeLossy_append_of_whole {front : List UInt8} (whole : Whole front)
    (back : List UInt8) : decodeLossy (front ++ back) = decodeLossy front ++ decodeLossy back := by
  rcases whole with rfl | ⟨front, rfl⟩
  · rfl
  · have good : Good none := by simp [Good]
    have alone := decodeFrom_append_lineFeed good front []
    have both := decodeFrom_append_lineFeed good front back
    rw [decodeLossy_nil] at alone
    unfold decodeLossy at both ⊢
    rw [List.append_assoc, List.singleton_append, both, alone, List.append_assoc]
    rfl

/-- **A chunk may be cut behind a line.** -/
theorem flatMap_decodeLossy_cut {n : Nat} {cs : List (List UInt8)}
    (whole : Whole (cs.flatten.take n)) :
    cs.flatMap decodeLossy
      = (takeBytes n cs).flatMap decodeLossy ++ (dropBytes n cs).flatMap decodeLossy := by
  have none (cs : List (List UInt8)) :
      (takeBytes 0 cs).flatMap decodeLossy = [] ∧ dropBytes 0 cs = cs := by
    induction cs with
    | nil => exact ⟨rfl, rfl⟩
    | cons c cs ih => simp [takeBytes, dropBytes, ih]
  induction cs generalizing n with
  | nil => rfl
  | cons c cs ih =>
    rw [List.flatten_cons, List.take_append] at whole
    rw [takeBytes, dropBytes, List.flatMap_cons, List.flatMap_cons, List.flatMap_cons]
    rcases Nat.le_total n c.length with inside | beyond
    · -- the cut is inside the chunk
      rw [Nat.sub_eq_zero_of_le inside, List.take_zero, List.append_nil] at whole
      have cut := decodeLossy_append_of_whole whole (c.drop n)
      rw [List.take_append_drop] at cut
      rw [Nat.sub_eq_zero_of_le inside, (none cs).1, (none cs).2, cut, List.append_nil,
        List.append_assoc]
    · have rest : Whole (cs.flatten.take (n - c.length)) := by
        rw [List.take_of_length_le beyond] at whole
        rcases List.eq_nil_or_concat' (cs.flatten.take (n - c.length)) with
          empty | ⟨front, b, parts⟩
        · exact .inl empty
        · rcases whole with empty | ⟨front', ends⟩
          · exact .inl (List.append_eq_nil_iff.mp empty).2
          · rw [parts, ← List.append_assoc] at ends
            obtain rfl := List.singleton_inj.mp (List.append_inj' ends rfl).2
            exact .inr ⟨front, parts⟩
      rw [List.take_of_length_le beyond, List.drop_of_length_le beyond, decodeLossy_nil,
        List.nil_append, ih rest, List.append_assoc]

end Text.Utf8

namespace FrameSplitter

/-- **Lines are cut off a stream** without changing the frames. -/
theorem feedAll_cut {n : Nat} {cs : List (List UInt8)} (whole : Whole (cs.flatten.take n)) :
    (empty.feedAll cs).2
      = (empty.feedAll (takeBytes n cs)).2 ++ (empty.feedAll (dropBytes n cs)).2 := by
  have left : (ofText ((takeBytes n cs).flatMap decodeLossy)).1.pending = [] := by
    rcases whole with none | ⟨front, ends⟩
    · rw [← flatten_takeBytes] at none
      have nothing : (takeBytes n cs).flatMap decodeLossy = [] := by
        refine List.flatMap_eq_nil_iff.mpr fun c own => ?_
        rw [List.flatten_eq_nil_iff.mp none c own, decodeLossy_nil]
      rw [nothing]
      rfl
    · rw [← flatten_takeBytes] at ends
      obtain ⟨text, read⟩ := flatMap_decodeLossy_concat ends
      rw [read, ofText_concat]
      rfl
  rw [feedAll_empty, feedAll_empty, feedAll_empty, flatMap_decodeLossy_cut whole, ofText_append,
    left, List.nil_append]

end FrameSplitter

/-! ## What is published and stored -/

/-- The settings after some reports. -/
def Settings.report (m : Settings) (frames : List Frame) : Settings :=
  (frames.filterMap Frame.entry?).foldl (fun m e => m.insert e.1 e.2) m

theorem Settings.report_append (m : Settings) (front back : List Frame) :
    m.report (front ++ back) = (m.report front).report back := by
  rw [report, List.filterMap_append, List.foldl_append]
  rfl

/-- Every frame is published. -/
theorem Frame.events_ne_nil (f : Frame) : f.events ≠ [] := by
  cases f with
  | status raw =>
    dsimp only [events]
    split <;> simp
  | setting | log => simp [events]

/-- Only the report of a setting is published as one. -/
theorem Frame.eq_setting_of_events {f : Frame} {id value : String}
    (published : f.events = [.setting id value]) : f = .setting id value := by
  cases f with
  | status raw =>
    dsimp only [events] at published
    split at published <;> exact absurd published (by simp)
  | setting id' value' =>
    obtain ⟨rfl, rfl⟩ : id' = id ∧ value' = value := by simpa [events] using published
    rfl
  | log line => simp [events] at published

theorem Frame.eq_of_flatMap_events {frames : List Frame} {id value : String}
    (published : frames.flatMap events = [.setting id value]) :
    frames = [.setting id value] := by
  cases frames with
  | nil => exact absurd published (by simp)
  | cons f rest =>
    obtain ⟨e, es, own⟩ := List.exists_cons_of_ne_nil f.events_ne_nil
    rw [List.flatMap_cons, own, List.cons_append, List.cons.injEq,
      List.append_eq_nil_iff, List.flatMap_eq_nil_iff] at published
    obtain ⟨rfl, rfl, others⟩ := published
    obtain rfl : rest = [] :=
      List.eq_nil_iff_forall_not_mem.mpr fun g member => g.events_ne_nil (others g member)
    rw [eq_setting_of_events own]

namespace Session

open Traffic

variable {s : Session} {es : List Event} {id : UInt16} {value : String} {p : Payload}

/-! ## The echo -/

/-- **What a call hands over when it sets a setting.** -/
def Sets (p : Payload) (id : UInt16) (value : String) : Prop :=
  ∃ (s : Session) (i delay : Nat), s.stage? i = some (.begin (.writeSetting id value delay)) ∧
    (s.next (.act (.call i))).link.traffic.payload? s.link.posts.length = some p

theorem Sets.eq_ofSetting (sets : Sets p id value) : p = .ofSetting id value := by
  obtain ⟨s, i, delay, stage, posted⟩ := sets
  have turn : s.next (.act (.call i))
      = s.send i (.ofSetting id value) (.setting delay none) := by
    show s.callTurn i = _
    simp only [callTurn, stage, beginCall, Payload.ofSetting]
  rw [turn, send] at posted
  cases here : s.link.connection with
  | none =>
    rw [post?_of_closed here] at posted
    simp [finish, give, Link.traffic, Traffic.payload?] at posted
  | some c =>
    obtain ⟨u, made, alike⟩ := post?_of_open here (.call i) (.ofSetting id value)
    rw [made] at posted
    simpa [setStage, Link.traffic, Traffic.payload?, alike, eq_comm] using posted

/-- **A controller echoes the line that sets a setting**, in a run that begins while the reader is
between two lines: what the reader reads are some lines, the echo, and more. -/
structure Echoes (s : Session) (es : List Event) (id : UInt16) (value : String) (p : Payload)
    (front back : List UInt8) : Prop where
  /-- Nothing of a line has been read. -/
  start : ∃ c, s.link.connection = some c ∧ c.chores = [] ∧ c.splitter = .empty
  lasts : s.Lasts es
  keeps : ∀ h ∈ s.history es, h.1.forgets h.2 = false
  /-- Nothing is left to be done with what was read. -/
  done : ∃ c, (s.after es).link.connection = some c ∧ c.chores = []
  sets : Sets p id value
  lines : Whole front
  read : (s.pieces es).flatten = front ++ (p.bytes ++ back)

/-- The chunks that the reader reads before the echo. -/
def chunksBefore (s : Session) (es : List Event) (front : List UInt8) : List (List UInt8) :=
  takeBytes front.length (s.pieces es)

/-- **The chunks of the echo.** -/
def chunksOf (s : Session) (es : List Event) (p : Payload) (front : List UInt8) :
    List (List UInt8) :=
  takeBytes p.bytes.length (dropBytes front.length (s.pieces es))

/-- The chunks that the reader reads behind the echo. -/
def chunksBehind (s : Session) (es : List Event) (p : Payload) (front : List UInt8) :
    List (List UInt8) :=
  dropBytes p.bytes.length (dropBytes front.length (s.pieces es))

/-- **The reader takes the echo for the setting that was set**, between what it makes of the frames
before and behind it: the trimmed value is stored under the number and published once with it, and
no other entry changes. -/
structure TakesEcho (s t : Session) (id : UInt16) (value : String) (before behind : List Frame) :
    Prop where
  stored : t.link.settings = ((s.link.settings.report before).insert (toString id)
    (String.ofList (trim value.toList))).report behind
  published : t.link.events.log = s.link.events.log ++ (before.flatMap Frame.events ++
    (.setting (toString id) (String.ofList (trim value.toList)) :: behind.flatMap Frame.events))

/-- The frames before, of and behind the echo. -/
theorem Echoes.frames {front back : List UInt8} (echoes : s.Echoes es id value p front back)
    (oneLine : '\n' ∉ value.toList) :
    (FrameSplitter.empty.feedAll (s.pieces es)).2
        = (FrameSplitter.empty.feedAll (s.chunksBefore es front)).2
          ++ ((FrameSplitter.empty.feedAll (s.chunksOf es p front)).2
            ++ (FrameSplitter.empty.feedAll (s.chunksBehind es p front)).2) ∧
      (s.chunksOf es p front).flatten = p.bytes := by
  have rest : (dropBytes front.length (s.pieces es)).flatten = p.bytes ++ back := by
    rw [flatten_dropBytes, echoes.read, List.drop_left]
  have first : (s.pieces es).flatten.take front.length = front := by
    rw [echoes.read, List.take_left]
  have echo : (dropBytes front.length (s.pieces es)).flatten.take p.bytes.length = p.bytes := by
    rw [rest, List.take_left]
  have line : Whole p.bytes := by
    rw [echoes.sets.eq_ofSetting, bytes_settingLine oneLine]
    exact .inr ⟨_, rfl⟩
  refine ⟨?_, ?_⟩
  · have cut := FrameSplitter.feedAll_cut (echo.symm ▸ line)
    rw [FrameSplitter.feedAll_cut (first.symm ▸ echoes.lines), cut]
    rfl
  · rw [chunksOf, flatten_takeBytes, echo]

/-- What the reader made of all frames. -/
theorem Echoes.folds {front back : List UInt8} (echoes : s.Echoes es id value p front back)
    (reachable : s.Reachable) :
    (s.after es).link.settings
        = s.link.settings.report (FrameSplitter.empty.feedAll (s.pieces es)).2 ∧
      (s.after es).link.events.log = s.link.events.log ++
        (FrameSplitter.empty.feedAll (s.pieces es)).2.flatMap Frame.events := by
  obtain ⟨c₀, start, idle, fresh⟩ := echoes.start
  obtain ⟨c, here, done⟩ := echoes.done
  obtain ⟨c', did, there, intake⟩ := intake_after reachable.filed start idle echoes.lasts
  obtain rfl := Option.some.inj (there.symm.trans here)
  have all := intake.chores
  rw [done, List.append_nil, fresh] at all
  have outlook := intake.outlook echoes.keeps
  rw [all, FrameSplitter.foldl_choresAll, Outlook.foldl_note] at outlook
  exact ⟨congrArg Outlook.settings outlook, congrArg Outlook.events outlook⟩

/-- **The echo is taken for the setting** exactly if no chunk ends inside one of its characters. -/
theorem takesEcho_iff {front back : List UInt8} (reachable : s.Reachable)
    (oneLine : '\n' ∉ value.toList) (echoes : s.Echoes es id value p front back) :
    s.TakesEcho (s.after es) id value
        (FrameSplitter.empty.feedAll (s.chunksBefore es front)).2
        (FrameSplitter.empty.feedAll (s.chunksBehind es p front)).2 ↔
      Intact (s.chunksOf es p front) := by
  obtain ⟨frames, echo⟩ := echoes.frames oneLine
  obtain ⟨settings, log⟩ := echoes.folds reachable
  rw [← feedAll_echo oneLine (echo.trans (congrArg Payload.bytes echoes.sets.eq_ofSetting))]
  generalize (FrameSplitter.empty.feedAll (s.chunksBefore es front)).2 = before at *
  generalize (FrameSplitter.empty.feedAll (s.chunksBehind es p front)).2 = behind at *
  generalize (FrameSplitter.empty.feedAll (s.chunksOf es p front)).2 = own at *
  rw [frames] at settings log
  constructor
  · rintro ⟨-, published⟩
    rw [log, List.flatMap_append, List.flatMap_append] at published
    have inner := List.append_cancel_left (List.append_cancel_left published)
    rw [← List.singleton_append] at inner
    exact Frame.eq_of_flatMap_events (List.append_cancel_right inner)
  · rintro rfl
    constructor
    · rw [settings, Settings.report_append, Settings.report_append]
      rfl
    · rw [log]
      simp [Frame.events]

/-- **Settings come back as they were set.** A line reports a setting exactly if it is the sign,
some digits, blanks, an equals sign and a rest, in one way only, and its value is the trimmed rest.
When a controller echoes the line that sets a setting, the reader stores and publishes the trimmed
value under the number, once and nothing else, if and only if no chunk that it reads ends inside a
character of the echo. -/
theorem setting_round_trip {front back : List UInt8} (reachable : s.Reachable)
    (oneLine : '\n' ∉ value.toList) (echoes : s.Echoes es id value p front back) :
    (∀ (line : List Char) (id value : String), '\n' ∉ line →
      (Frame.classify line = .setting id value ↔
        ∃ gap rest, Frame.Reports line id.toList gap rest ∧ value.toList = trim rest)) ∧
    (∀ line id gap rest id' gap' rest' : List Char, Frame.Reports line id gap rest →
      Frame.Reports line id' gap' rest' → id = id' ∧ gap = gap' ∧ rest = rest') ∧
    (s.TakesEcho (s.after es) id value
        (FrameSplitter.empty.feedAll (s.chunksBefore es front)).2
        (FrameSplitter.empty.feedAll (s.chunksBehind es p front)).2 ↔
      Intact (s.chunksOf es p front)) :=
  ⟨fun _ _ _ clean => Frame.classify_eq_setting_iff clean _ _,
    fun _ _ _ _ _ _ _ reports reports' => reports.unique reports',
    takesEcho_iff reachable oneLine echoes⟩

/-! ## Echoes in chunks -/

/-- A port is open, and a call is about to set setting 110. -/
def atSetting (value : String) : Session :=
  (initial none).after (Event.swift 0 (.connect "/dev/mock0" none) ++
    [.call 1 (.writeSetting 110 value 0)])

/-- The line is written. -/
def settingWritten (value : String) : Session :=
  (atSetting value).after (.act (.call 1) :: List.replicate 3 (.act .writer))

theorem reachable_settingWritten (value : String) : (settingWritten value).Reachable :=
  (Reachable.of_run none _).after _

theorem sets_atSetting (value : String) : Sets (.ofSetting 110 value) 110 value :=
  ⟨atSetting value, 1, 0, rfl, rfl⟩

/-- What decides that the echo of setting 110 is read. -/
theorem echoes_settingWritten {value : String} {es : List Event} {front back : List UInt8}
    (lines : Whole front)
    (start : ((settingWritten value).link.connection.any
      fun c => c.chores = [] ∧ c.splitter = .empty) = true)
    (opened : ((settingWritten value).after es).link.opened = (settingWritten value).link.opened)
    (keeps : ∀ h ∈ (settingWritten value).history es, h.1.forgets h.2 = false)
    (done : (((settingWritten value).after es).link.connection.any (·.chores = [])) = true)
    (read : ((settingWritten value).pieces es).flatten
      = front ++ ((Payload.ofSetting 110 value).bytes ++ back)) :
    (settingWritten value).Echoes es 110 value (.ofSetting 110 value) front back := by
  obtain ⟨c, here, idle⟩ := (Option.any_eq_true _ _).mp start
  obtain ⟨c', there, finished⟩ := (Option.any_eq_true _ _).mp done
  exact ⟨⟨c, here, of_decide_eq_true idle⟩, ⟨by rw [there]; rfl, opened⟩, keeps,
    ⟨c', there, of_decide_eq_true finished⟩, sets_atSetting value, lines, read⟩

/-- The controller sends an answer, the echo of a value in two pieces, and another answer. -/
def echoBetweenAnswers : List Event :=
  [.device 2 (.send "ok\n$110= 2".toUTF8.toList), .device 3 (.send "é=$ \nok\n".toUTF8.toList)] ++
    List.replicate 20 (.act .reader)

theorem setting_round_trip_betweenAnswers :
    (settingWritten " 2é=$ ").Reachable ∧ '\n' ∉ " 2é=$ ".toList ∧
      (settingWritten " 2é=$ ").Echoes echoBetweenAnswers 110 " 2é=$ "
        (.ofSetting 110 " 2é=$ ") [111, 107, 10] [111, 107, 10] ∧
      ((settingWritten " 2é=$ ").after echoBetweenAnswers).link.settings = ⟨[("110", "2é=$")]⟩ ∧
      (settingWritten " 2é=$ ").TakesEcho ((settingWritten " 2é=$ ").after echoBetweenAnswers) 110
        " 2é=$ " [.log "ok"] [.log "ok"] := by
  have oneLine : '\n' ∉ " 2é=$ ".toList := by decide
  have echoes : (settingWritten " 2é=$ ").Echoes echoBetweenAnswers 110 " 2é=$ "
      (.ofSetting 110 " 2é=$ ") [111, 107, 10] [111, 107, 10] :=
    echoes_settingWritten (.inr ⟨[111, 107], rfl⟩) (by decide +kernel) (by decide +kernel)
      (by decide +kernel) (by decide +kernel) (by decide +kernel)
  have takes := (setting_round_trip (reachable_settingWritten _) oneLine echoes).2.2.mpr
    (by decide +kernel)
  have before : (FrameSplitter.empty.feedAll ((settingWritten " 2é=$ ").chunksBefore
      echoBetweenAnswers [111, 107, 10])).2 = [.log "ok"] := by decide +kernel
  have behind : (FrameSplitter.empty.feedAll ((settingWritten " 2é=$ ").chunksBehind
      echoBetweenAnswers (.ofSetting 110 " 2é=$ ") [111, 107, 10])).2
      = [.log "ok"] := by decide +kernel
  rw [before, behind] at takes
  exact ⟨reachable_settingWritten _, oneLine, echoes, by decide +kernel, takes⟩

/-- A value of many characters of two bytes. -/
def accents (n : Nat) : String := String.ofList (List.replicate n 'é')

theorem lineFeed_not_mem_accents (n : Nat) : '\n' ∉ (accents n).toList := by
  rw [accents, String.toList_ofList]
  exact fun inside => absurd (List.eq_of_mem_replicate inside) (by decide)

/-- The bytes of the line that sets setting 110 to it. -/
def accentBytes (n : Nat) : List UInt8 :=
  [36, 49, 49, 48, 61] ++ (List.replicate n [0xC3, 0xA9]).flatten ++ [10]

theorem bytes_accents (n : Nat) :
    (Payload.ofSetting 110 (accents n)).bytes = accentBytes n := by
  have number : (toString (110 : UInt16)).toList = ['1', '1', '0'] := by decide
  have encoded (n : Nat) : (List.replicate n 'é').flatMap String.utf8EncodeChar
      = (List.replicate n [0xC3, 0xA9]).flatten := by
    rw [List.flatMap_def, List.map_replicate]
    rfl
  rw [bytes_settingLine (lineFeed_not_mem_accents n), toList_toUTF8, String.toList_ofList,
    settingLine, number, accents, String.toList_ofList, accentBytes, ← encoded]
  simp only [List.cons_append, List.nil_append, List.flatMap_cons]
  rfl

/-- The controller sends the echo at once. The reader reads 1024 bytes at a time, which end inside
the last character. -/
def longEcho : List Event :=
  .device 2 (.send (accentBytes 510)) :: List.replicate 8 (.act .reader)

/-- **A value may come back damaged**, with two replacement characters for its last one. -/
theorem not_takesEcho_longEcho :
    ¬ ∀ (s : Session) (es : List Event) (id : UInt16) (value : String) (p : Payload)
      (front back : List UInt8), s.Reachable → '\n' ∉ value.toList →
      s.Echoes es id value p front back →
      s.TakesEcho (s.after es) id value
        (FrameSplitter.empty.feedAll (s.chunksBefore es front)).2
        (FrameSplitter.empty.feedAll (s.chunksBehind es p front)).2 := by
  intro always
  have pieces : (settingWritten (accents 510)).pieces longEcho
      = [(accentBytes 510).take 1024, (accentBytes 510).drop 1024] := by decide +kernel
  have echoes : (settingWritten (accents 510)).Echoes longEcho 110 (accents 510)
      (.ofSetting 110 (accents 510)) [] [] := by
    refine echoes_settingWritten (.inl rfl) (by decide +kernel) (by decide +kernel)
      (by decide +kernel) (by decide +kernel) ?_
    rw [pieces, bytes_accents]
    simp only [List.flatten_cons, List.flatten_nil, List.append_nil, List.nil_append,
      List.take_append_drop]
  have oneLine := lineFeed_not_mem_accents 510
  have takes := always _ _ _ _ _ _ _ (reachable_settingWritten _) oneLine echoes
  have intact := (takesEcho_iff (reachable_settingWritten _) oneLine echoes).mp takes
  have damaged : ¬ Intact (takeBytes (accentBytes 510).length (dropBytes ([] : List UInt8).length
      [(accentBytes 510).take 1024, (accentBytes 510).drop 1024])) := by decide +kernel
  rw [chunksOf, pieces, bytes_accents] at intact
  exact damaged intact

end Session

end Cnc
