import Cnc.Proofs.Pairing
import Cnc.Proofs.Reception

/-!
# What the reader has made of what the device sent

The bytes that the device has sent are read or still wait to be read. The
reader has cut the bytes that it read into lines, except for the text after
the last line feed, and of the answers among those lines it has given away
some, in order; the others are among its chores (`Traffic.Heeded`).
-/

namespace Cnc

open Text Utf8

/-- The bytes that wait to be read. -/
def Incoming.bytes? : Incoming → List UInt8
  | .bytes bs => bs
  | _ => []

namespace Traffic

variable {t₀ t u : Traffic} {d : Deed} {heard : List UInt8} {given : List Ack}

/-- The bytes that the device sends. -/
def Deed.spoken : Deed → List UInt8
  | .device (.send bs) => bs
  | _ => []

/-- **What the device sent is read, and the answers are given away or are to be.** -/
structure Heeded (heard : List UInt8) (given : List Ack) (c : Connection) : Prop where
  parts : ∃ read text lines, heard = read ++ c.inbox.flatMap Incoming.bytes? ∧ Reads read text ∧
    text.splitOn '\n' = lines ++ [c.splitter.pending] ∧
    given ++ c.chores.filterMap Chore.ack? = lines.filterMap textAck?

/-- The answers that a frame makes the reader give away. -/
theorem acks_of_chores (f : Frame) : f.chores.filterMap Chore.ack? = f.ack?.toList := by
  cases f with
  | status raw =>
    cases report : MachineStatus.parse raw.toList <;>
      simp [Frame.chores, Frame.ack?, report, Chore.ack?, List.filterMap_cons]
  | setting id value => rfl
  | log line =>
    have alarm : (Frame.log line).alarm?.toList.filterMap
        (Chore.ack? ∘ fun code => .publish (.alarm code)) = [] := by
      cases (Frame.log line).alarm? <;> rfl
    unfold Frame.chores
    simp only [List.filterMap_cons, List.filterMap_append, List.filterMap_map, Chore.ack?, alarm]
    cases (Frame.log line).ack? <;> rfl

/-- **Taking a chunk** completes some lines, whose answers are to be given away. -/
theorem feed_spec (s : FrameSplitter) (chunk : List UInt8) {text : List Char}
    {lines : List (List Char)} (pieces : text.splitOn '\n' = lines ++ [s.pending]) :
    ∃ new, (text ++ decodeLossy chunk).splitOn '\n' = (lines ++ new) ++ [(s.feed chunk).1.pending] ∧
      ((s.feed chunk).2.flatMap Frame.chores).filterMap Chore.ack? = new.filterMap textAck? := by
  obtain ⟨new, last, cut⟩ :
      ∃ new last, (s.pending ++ decodeLossy chunk).splitOn '\n' = new ++ [last] :=
    ⟨_, _, (List.dropLast_append_getLast (List.splitOn_ne_nil '\n' _)).symm⟩
  have pending : (s.feed chunk).1.pending = last := by simp [FrameSplitter.feed, cut]
  have frames : (s.feed chunk).2 = ((new.map trim).filter (· ≠ [])).map Frame.classify := by
    simp [FrameSplitter.feed, cut]
  refine ⟨new, ?_, ?_⟩
  · rw [splitOn_append pieces, cut, pending, List.append_assoc]
  · rw [frames]
    clear cut pending frames
    induction new with
    | nil => rfl
    | cons line new ih =>
      rw [List.map_cons, List.filter_cons, List.filterMap_cons]
      by_cases empty : trim line = []
      · have none : textAck? line = none := by
          rw [textAck?, empty]
          rfl
        simpa [empty, none] using ih
      · have own : textAck? line = (Frame.classify (trim line)).ack? := rfl
        simp only [decide_not, empty, decide_false, Bool.not_false, if_true, List.map_cons,
          List.flatMap_cons, List.filterMap_append, acks_of_chores, ← own] at ih ⊢
        rw [ih]
        cases textAck? line <;> rfl

/-- **Every move keeps what the reader has done in step with what the device sent.** -/
theorem Heeded.move {c c' : Connection} (heeded : Heeded heard given c) (h : Move t d u)
    (here : t.connection = some c) (there : u.connection = some c') :
    Heeded (heard ++ d.spoken) (given ++ d.ack?.toList) c' := by
  have quiet (inbox : c'.inbox = c.inbox) (splitter : c'.splitter = c.splitter)
      (chores : c'.chores = c.chores) : Heeded heard given c' := by
    obtain ⟨read, text, lines, parts⟩ := heeded.parts
    exact ⟨read, text, lines, by rwa [inbox, splitter, chores]⟩
  have silent (spoken : d.spoken = []) (ack : d.ack? = none) (same : Heeded heard given c') :
      Heeded (heard ++ d.spoken) (given ++ d.ack?.toList) c' := by
    simpa [spoken, ack] using same
  obtain ⟨read, text, lines, bytes, reads, pieces, acks⟩ := heeded.parts
  cases h with
  | «open» port closed => exact absurd (closed.symm.trans here) (by simp)
  | close => exact absurd there (by simp)
  | @device b d here' =>
    obtain rfl := Option.some.inj (here'.symm.trans here)
    obtain rfl := Option.some.inj there
    refine ⟨read, text, lines, ?_, reads, by rwa [b.driven_splitter d], ?_⟩
    · rw [bytes]
      cases d <;> simp [Connection.driven, Deed.spoken, Incoming.bytes?]
    · rw [b.driven_chores d]
      simpa [Deed.ack?] using acks
  | @settle b a rest here' first =>
    obtain rfl := Option.some.inj (here'.symm.trans here)
    obtain rfl := Option.some.inj there
    refine ⟨read, text, lines, by simpa [Deed.spoken] using bytes, reads, pieces, ?_⟩
    rw [← acks, first]
    simp [Deed.ack?, Chore.ack?]
  | @chore b ch rest here' first other =>
    obtain rfl := Option.some.inj (here'.symm.trans here)
    obtain rfl := Option.some.inj there
    refine silent rfl rfl ⟨read, text, lines, bytes, reads, pieces, ?_⟩
    rw [← acks, first]
    simp [other]
  | @read b bs rest here' done first =>
    obtain rfl := Option.some.inj (here'.symm.trans here)
    obtain rfl := Option.some.inj there
    obtain ⟨new, cut, answers⟩ := feed_spec b.splitter (bs.take readSize) pieces
    refine silent rfl rfl ⟨read ++ bs.take readSize, text ++ decodeLossy (bs.take readSize),
      lines ++ new, ?_, reads.append _, cut, ?_⟩
    · have left : (if (bs.drop readSize).isEmpty then rest
          else .bytes (bs.drop readSize) :: rest).flatMap Incoming.bytes?
          = bs.drop readSize ++ rest.flatMap Incoming.bytes? := by
        cases bs.drop readSize <;> rfl
      rw [bytes, first, Connection.readPiece, left, List.append_assoc,
        ← List.append_assoc _ _ (rest.flatMap _), List.take_append_drop]
      rfl
    · have next : (b.readPiece bs rest).chores.filterMap Chore.ack?
          = ((b.splitter.feed (bs.take readSize)).2.flatMap Frame.chores).filterMap Chore.ack? :=
        rfl
      rw [List.filterMap_append, ← acks, done, ← answers, next, List.filterMap_nil, List.append_nil]
  | @timeout b rest here' done first =>
    obtain rfl := Option.some.inj (here'.symm.trans here)
    obtain rfl := Option.some.inj there
    refine silent rfl rfl ⟨read, text, lines, ?_, reads, pieces, acks⟩
    rw [bytes, first]
    rfl
  | poll _ here' =>
    obtain rfl := Option.some.inj (here'.symm.trans here)
    obtain rfl := Option.some.inj there
    exact silent rfl rfl (quiet rfl rfl rfl)
  | post _ _ here' =>
    obtain rfl := Option.some.inj (here'.symm.trans here)
    obtain rfl := Option.some.inj there
    exact silent rfl rfl (quiet (by simp) (by simp) (by simp))
  | _ here' =>
    obtain rfl := Option.some.inj (here'.symm.trans here)
    obtain rfl := Option.some.inj there
    exact silent rfl rfl (quiet rfl rfl rfl)

/-- **The answers given so far, and those that are to be given**, are the first answers among what
the device has sent. -/
theorem Heeded.pending_among {c : Connection} (heeded : Heeded heard given c)
    (ascii : ∀ line ∈ completeLines heard, (lineAck? line).isSome = true → ∀ b ∈ line, b < 0x80) :
    given ++ c.chores.filterMap Chore.ack? <+: acksIn heard := by
  obtain ⟨read, text, lines, rfl, reads, pieces, acks⟩ := heeded.parts
  have all := acks_of_reads reads fun line hline =>
    ascii line ((completeLines_append read _).subset hline)
  rw [pieces, List.dropLast_concat, ← acks] at all
  rw [all]
  exact acksIn_append read _

theorem Heeded.given_among {c : Connection} (heeded : Heeded heard given c)
    (ascii : ∀ line ∈ completeLines heard, (lineAck? line).isSome = true → ∀ b ∈ line, b < 0x80) :
    given <+: acksIn heard :=
  (List.prefix_append _ _).trans (heeded.pending_among ascii)

/-- **A reader that has nothing left to do** has given all answers away. -/
theorem Heeded.all_given {c : Connection} (heeded : Heeded heard given c) (done : c.chores = [])
    (nothing : c.inbox = [])
    (ascii : ∀ line ∈ completeLines heard, (lineAck? line).isSome = true → ∀ b ∈ line, b < 0x80) :
    given = acksIn heard := by
  obtain ⟨read, text, lines, rfl, reads, pieces, acks⟩ := heeded.parts
  have rest : c.inbox.flatMap Incoming.bytes? = [] := by simp [nothing]
  rw [rest, List.append_nil] at ascii ⊢
  have all := acks_of_reads reads ascii
  rw [pieces, List.dropLast_concat, ← acks, done, List.filterMap_nil, List.append_nil] at all
  exact all

end Traffic

end Cnc
