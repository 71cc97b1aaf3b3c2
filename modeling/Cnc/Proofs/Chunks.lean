import Mathlib.Data.List.Induction
import Cnc.Proofs.Reception

/-!
# Chunks that cut no character

A stream of bytes reaches the splitter in chunks, and each chunk is decoded
by itself. Where that matters is told exactly here: the frames and the
pending text are those of the bytes taken at once if no chunk ends inside a
character (`Utf8.Intact`), and in no other case
(`FrameSplitter.feedAll_eq_iff_intact`).

The reason is a count. What is read of a cut character is read as at least
one replacement character more than the character is, and replacement
characters are neither blanks nor line feeds, so none of them is lost on the
way into the frames and the pending text (`FrameSplitter.damage_ofText`).
-/

namespace Cnc

open Text Utf8

namespace Text.Utf8

/-! ## Cuts -/

/-- What has been read of a character where some bytes end. -/
def openAfter (p : Option Pending) : List UInt8 → Option Pending
  | [] => p
  | b :: bs => openAfter (readByte p b).2 bs

/-- **Whether the cut between two byte strings is inside a character**: the first ends in the middle
of one, and the second goes on with it. -/
def splits (front back : List UInt8) : Bool :=
  match openAfter none front, back with
  | some p, b :: _ => p.low ≤ b && b ≤ p.high
  | _, _ => false

/-- **No chunk ends inside a character** of the byte string that the chunks make up. -/
def Intact (chunks : List (List UInt8)) : Prop :=
  ∀ k < chunks.length, splits (chunks.take k).flatten (chunks.drop k).flatten = false

instance (chunks : List (List UInt8)) : Decidable (Intact chunks) :=
  inferInstanceAs (Decidable (∀ k < chunks.length, _))

/-- **Decoding up to a cut**: what comes after it is read in the middle of what is open there. -/
theorem decodeFrom_append (p : Option Pending) (front back : List UInt8) :
    ∃ text, decodeFrom p (front ++ back) = text ++ decodeFrom (openAfter p front) back ∧
      decodeFrom p front = text ++ decodeFrom (openAfter p front) [] := by
  induction front generalizing p with
  | nil => exact ⟨[], rfl, rfl⟩
  | cons b front ih =>
    obtain ⟨text, whole, first⟩ := ih (readByte p b).2
    refine ⟨(readByte p b).1 ++ text, ?_, ?_⟩
    · rw [List.cons_append, decodeFrom_cons, whole, List.append_assoc]
      rfl
    · rw [decodeFrom_cons, first, List.append_assoc]
      rfl

/-! ## What is open -/

/-- A byte that may come next in a character begins none. -/
structure Pending.Inner (p : Pending) : Prop where
  low : 0x80 ≤ p.low
  high : p.high ≤ 0xBF

theorem begin?_inner {b : UInt8} {p : Pending} (h : begin? b = some (.inr p)) : p.Inner := by
  unfold begin? at h
  repeat' split at h
  all_goals simp only [Option.some.injEq, Sum.inr.injEq, reduceCtorEq] at h
  all_goals
    subst h
    refine ⟨?_, ?_⟩
    all_goals
      dsimp only
      decide

theorem inner_readByte (p : Option Pending) (b : UInt8) : ∀ q ∈ (readByte p b).2, q.Inner := by
  have begins (b : UInt8) : ∀ q ∈ (start b).2, q.Inner := by
    unfold start
    cases h : begin? b with
    | none => simp
    | some r =>
      cases r with
      | inl c => simp
      | inr q => simpa using begin?_inner h
  unfold readByte
  cases p with
  | none => exact begins b
  | some p =>
    dsimp only
    split
    · cases p.more with
      | zero => simp
      | succ more => simp only [Option.mem_some_iff, forall_eq']; exact ⟨by simp, by simp⟩
    · exact begins b

theorem inner_openAfter {p : Option Pending} (inner : ∀ q ∈ p, q.Inner) (bs : List UInt8) :
    ∀ q ∈ openAfter p bs, q.Inner := by
  induction bs generalizing p with
  | nil => exact inner
  | cons b bs ih => exact ih (inner_readByte p b)

theorem Pending.Inner.start {p : Pending} (inner : p.Inner) {b : UInt8} (low : p.low ≤ b)
    (high : b ≤ p.high) : Utf8.start b = ([replacement], none) := by
  have least : 0x80 ≤ b := UInt8.le_trans inner.low low
  have most : b ≤ 0xBF := UInt8.le_trans high inner.high
  have notAscii : ¬ b < 0x80 := UInt8.not_lt.mpr least
  have early : b < 0xC2 := UInt8.lt_of_le_of_lt most (by decide)
  simp [Utf8.start, begin?, notAscii, early]

/-! ## What a cut does -/

/-- The replacement characters in a text. -/
def damageIn (text : List Char) : Nat := text.count replacement

@[simp] theorem damageIn_nil : damageIn [] = 0 := rfl

@[simp] theorem damageIn_replacement (text : List Char) :
    damageIn (replacement :: text) = damageIn text + 1 := List.count_cons_self

@[simp] theorem damageIn_append (front back : List Char) :
    damageIn (front ++ back) = damageIn front + damageIn back := List.count_append

theorem damageIn_cons (c : Char) (text : List Char) :
    damageIn (c :: text) = damageIn text + if c = replacement then 1 else 0 := by
  simp [damageIn, List.count_cons]

/-- What does not go on with an open character is read as if nothing was open, after a replacement
character for what was. -/
theorem decodeFrom_some_of_apart {p : Pending} {back : List UInt8}
    (apart : ∀ b ∈ back.head?, ¬ (p.low ≤ b ∧ b ≤ p.high)) :
    decodeFrom (some p) back = replacement :: decodeFrom none back := by
  cases back with
  | nil => rfl
  | cons b rest =>
    have afresh : readByte (some p) b = (replacement :: (start b).1, (start b).2) :=
      if_neg (apart b rfl)
    rw [decodeFrom_cons, decodeFrom_cons, afresh]
    rfl

theorem damageIn_cons_le (c : Char) (text : List Char) :
    damageIn (c :: text) ≤ damageIn text + 1 := by
  rw [damageIn_cons]
  split <;> omega

/-- A byte that may come next in a character is damage where a character begins. -/
theorem Pending.Inner.damageIn_alone {p : Pending} (inner : p.Inner) {b : UInt8} (low : p.low ≤ b)
    (high : b ≤ p.high) (rest : List UInt8) :
    damageIn (decodeFrom none (b :: rest)) = damageIn (decodeFrom none rest) + 1 := by
  rw [decodeFrom_cons, show readByte none b = Utf8.start b from rfl, inner.start low high]
  exact damageIn_replacement _

/-- **A character that goes on loses by being cut.** -/
theorem Pending.Inner.damageIn_cut {p : Pending} (inner : p.Inner) {b : UInt8} (low : p.low ≤ b)
    (high : b ≤ p.high) (rest : List UInt8) :
    damageIn (decodeFrom (some p) (b :: rest)) ≤ damageIn (decodeFrom none (b :: rest)) := by
  rw [inner.damageIn_alone low high]
  have step := decodeFrom_cons (some p) b rest
  rw [readByte, if_pos ⟨low, high⟩] at step
  -- either the byte ends the character, or the next one goes on with it or does not
  cases more : p.more with
  | zero =>
    rw [more] at step
    rw [step]
    exact damageIn_cons_le _ _
  | succ more' =>
    rw [more] at step
    rw [step, List.nil_append]
    have inner' : Pending.Inner ⟨p.bits * 64 + (b.toNat - 0x80), 0x80, 0xBF, more'⟩ :=
      ⟨UInt8.le_refl _, UInt8.le_refl _⟩
    cases rest with
    | nil => exact Nat.le_refl 1
    | cons b' rest =>
      by_cases next : (0x80 : UInt8) ≤ b' ∧ b' ≤ 0xBF
      · exact (inner'.damageIn_cut next.1 next.2 rest).trans (Nat.le_succ _)
      · rw [decodeFrom_some_of_apart (by simpa using next)]
        exact damageIn_cons_le _ _

/-- **What a cut does**: nothing unless it is inside a character, and else it costs replacement
characters. -/
theorem decodeLossy_cut (front back : List UInt8) :
    if splits front back then
      damageIn (decodeLossy (front ++ back)) < damageIn (decodeLossy front ++ decodeLossy back)
    else decodeLossy (front ++ back) = decodeLossy front ++ decodeLossy back := by
  obtain ⟨text, whole, first⟩ := decodeFrom_append none front back
  unfold decodeLossy
  rw [whole, first]
  unfold splits
  cases opened : openAfter none front with
  | none => simp [decodeFrom]
  | some p =>
    have inner : p.Inner := inner_openAfter (p := none) (by simp) front p opened
    have closed : decodeFrom (some p) [] = [replacement] := rfl
    cases back with
    | nil => simp [decodeFrom]
    | cons b rest =>
      by_cases goesOn : p.low ≤ b ∧ b ≤ p.high
      · have cost := inner.damageIn_cut goesOn.1 goesOn.2 rest
        simp only [goesOn, closed, decide_true, Bool.and_self, if_true, damageIn_append,
          damageIn_replacement, damageIn_nil]
        omega
      · have apart : decodeFrom (some p) (b :: rest) = replacement :: decodeFrom none (b :: rest) :=
          decodeFrom_some_of_apart (by simpa using goesOn)
        simp [goesOn, closed, apart]

/-! ## Many cuts -/

theorem splits_nil (front : List UInt8) : splits front [] = false := by
  unfold splits
  split <;> simp_all

/-- Only the next byte decides whether a cut is inside a character. -/
theorem splits_append {front back : List UInt8} (some_ : back ≠ []) (more : List UInt8) :
    splits front (back ++ more) = splits front back := by
  obtain ⟨b, rest, rfl⟩ := List.exists_cons_of_ne_nil some_
  unfold splits
  cases openAfter none front <;> rfl

/-- One more chunk adds one more cut. -/
theorem intact_concat (cs : List (List UInt8)) (c : List UInt8) :
    Intact (cs ++ [c]) ↔ Intact cs ∧ splits cs.flatten c = false := by
  have last : splits ((cs ++ [c]).take cs.length).flatten ((cs ++ [c]).drop cs.length).flatten
      = splits cs.flatten c := by simp
  -- behind an earlier cut stand the old chunks that are left, or only the new one
  have earlier {k : Nat} (hk : k < cs.length) (notLast : splits cs.flatten c = false) :
      splits ((cs ++ [c]).take k).flatten ((cs ++ [c]).drop k).flatten
        = splits (cs.take k).flatten (cs.drop k).flatten := by
    rw [List.take_append_of_le_length hk.le, List.drop_append_of_le_length hk.le,
      List.flatten_append, List.flatten_singleton]
    by_cases rest : (cs.drop k).flatten = []
    · have front : (cs.take k).flatten = cs.flatten := by
        have all := congrArg List.flatten (List.take_append_drop k cs)
        rwa [List.flatten_append, rest, List.append_nil] at all
      rw [rest, List.nil_append, splits_nil, front, notLast]
    · exact splits_append rest c
  constructor
  · intro h
    have notLast : splits cs.flatten c = false :=
      last ▸ h cs.length (by simp)
    exact ⟨fun k hk => earlier hk notLast ▸ h k (by simp; omega), notLast⟩
  · rintro ⟨h, notLast⟩ k hk
    rcases Nat.lt_or_ge k cs.length with old | new
    · exact (earlier old notLast).trans (h k old)
    · obtain rfl : k = cs.length := by simp at hk; omega
      exact last.trans notLast

/-- **Decoding chunk by chunk** gives the text of the whole if no chunk ends inside a character, and
else a text with more replacement characters. -/
theorem flatMap_decodeLossy (cs : List (List UInt8)) :
    if Intact cs then cs.flatMap decodeLossy = decodeLossy cs.flatten
    else damageIn (decodeLossy cs.flatten) < damageIn (cs.flatMap decodeLossy) := by
  induction cs using List.reverseRecOn with
  | nil => rfl
  | append_singleton cs c ih =>
    have cut := decodeLossy_cut cs.flatten c
    simp only [intact_concat, List.flatten_append, List.flatten_singleton, List.flatMap_append,
      List.flatMap_singleton]
    simp only [damageIn_append] at cut ⊢
    by_cases intact : Intact cs
    · rw [if_pos intact] at ih
      by_cases last : splits cs.flatten c = true
      · rw [if_pos last] at cut
        rw [if_neg (by simp [last]), ih]
        exact cut
      · rw [if_neg last] at cut
        rw [if_pos ⟨intact, by simpa using last⟩, ih, cut]
    · rw [if_neg intact] at ih
      rw [if_neg fun h => intact h.1]
      by_cases last : splits cs.flatten c = true
      · rw [if_pos last] at cut
        omega
      · rw [if_neg last] at cut
        rw [cut, damageIn_append]
        omega

end Text.Utf8

/-! ## From the text to the frames -/

/-- The text that a frame holds. -/
def Frame.text : Frame → List Char
  | .status raw => raw.toList
  | .setting id value => id.toList ++ value.toList
  | .log line => line.toList

namespace FrameSplitter

/-- **Feeds chunks in order**, and gives the lines that they complete. -/
def feedAll (s : FrameSplitter) : List (List UInt8) → FrameSplitter × List Frame
  | [] => (s, [])
  | c :: cs => ((feedAll (s.feed c).1 cs).1, (s.feed c).2 ++ (feedAll (s.feed c).1 cs).2)

/-- The frames of a text, and what is left after its last line feed. -/
def ofText (text : List Char) : FrameSplitter × List Frame :=
  (⟨(text.splitOn '\n').getLast?.getD []⟩,
    (((text.splitOn '\n').dropLast.map trim).filter (· ≠ [])).map Frame.classify)

/-- **A text may be taken in two parts**, the second behind what the first left over. -/
theorem ofText_append (front back : List Char) :
    ofText (front ++ back)
      = ((ofText ((ofText front).1.pending ++ back)).1,
        (ofText front).2 ++ (ofText ((ofText front).1.pending ++ back)).2) := by
  obtain ⟨ls, l, pieces⟩ : ∃ ls l, front.splitOn '\n' = ls ++ [l] :=
    ⟨_, _, (List.dropLast_append_getLast (List.splitOn_ne_nil '\n' front)).symm⟩
  have left : (ofText front).1.pending = l := by simp [ofText, pieces]
  have some_ := List.splitOn_ne_nil '\n' (l ++ back)
  rw [left]
  unfold ofText
  rw [splitOn_append pieces back, pieces, List.getLast?_append_of_ne_nil _ some_,
    List.dropLast_append_of_ne_nil some_]
  simp

/-- Feeding goes on with the text that is left. -/
theorem feedAll_eq_ofText (s : FrameSplitter) (cs : List (List UInt8)) (text : List Char)
    (left : (ofText text).1 = s) :
    (s.feedAll cs).1 = (ofText (text ++ cs.flatMap decodeLossy)).1 ∧
      (ofText text).2 ++ (s.feedAll cs).2 = (ofText (text ++ cs.flatMap decodeLossy)).2 := by
  induction cs generalizing s text with
  | nil => simp [feedAll, left]
  | cons c cs ih =>
    have step : ofText (text ++ decodeLossy c)
        = ((s.feed c).1, (ofText text).2 ++ (s.feed c).2) := by
      rw [ofText_append, left]
      rfl
    obtain ⟨pending, frames⟩ := ih (s.feed c).1 (text ++ decodeLossy c) (by rw [step])
    rw [step] at frames
    simp only [feedAll, List.flatMap_cons, ← List.append_assoc]
    exact ⟨pending, frames⟩

/-- **The frames of chunks** are those of the text that the chunks are read as. -/
theorem feedAll_empty (cs : List (List UInt8)) :
    empty.feedAll cs = ofText (cs.flatMap decodeLossy) := by
  obtain ⟨pending, frames⟩ := feedAll_eq_ofText empty cs [] rfl
  exact Prod.ext pending frames

/-! ## Damage is kept -/

/-- The replacement characters in the frames of a stream and in what is left of it. -/
def damage (r : FrameSplitter × List Frame) : Nat :=
  damageIn (r.2.flatMap Frame.text) + damageIn r.1.pending

theorem damageIn_blank {text : List Char} (blank : ∀ c ∈ text, isBlank c = true) :
    damageIn text = 0 :=
  List.count_eq_zero.mpr fun mem => absurd (blank _ mem) (by decide)

/-- Trimming keeps the replacement characters. -/
theorem damageIn_trim (text : List Char) : damageIn (trim text) = damageIn text := by
  obtain ⟨front, parts, blank⟩ := trimStart_parts text
  obtain ⟨back, parts', blank'⟩ := trimEnd_parts (trimStart text)
  have first := congrArg damageIn parts
  have last := congrArg damageIn parts'
  rw [damageIn_append, damageIn_blank blank] at first
  rw [damageIn_append, damageIn_blank blank'] at last
  rw [trim]
  omega

/-- What a setting line is made of. -/
theorem setting?_parts {line id value : List Char} (h : Frame.setting? line = some (id, value)) :
    ∃ gap rest, line = '$' :: (id ++ gap ++ '=' :: rest) ∧ (∀ c ∈ gap, isBlank c = true) ∧
      value = trim rest ∧ id ≠ [] ∧ ∀ c ∈ id, isDigit c = true := by
  unfold Frame.setting? at h
  split at h
  · next after =>
    dsimp only at h
    split at h
    · next rest parts =>
      split at h
      · next number =>
        obtain ⟨rfl, rfl⟩ := Prod.mk.inj (Option.some.inj h)
        obtain ⟨gap, split, blank⟩ := trimStart_parts (after.dropWhile isDigit)
        refine ⟨gap, rest, ?_, blank, rfl, number.1, fun _ => List.mem_takeWhile_imp⟩
        rw [List.append_assoc, ← parts, ← trimStart, ← split, List.takeWhile_append_dropWhile]
      · exact absurd h (by simp)
    · exact absurd h (by simp)
  · exact absurd h (by simp)

/-- Sorting lines into kinds keeps the replacement characters. -/
theorem damageIn_classify (line : List Char) :
    damageIn (Frame.classify line).text = damageIn line := by
  unfold Frame.classify
  split
  · simp [Frame.text]
  · cases setting : Frame.setting? line with
    | none => simp [Frame.text]
    | some r =>
      obtain ⟨id, value⟩ := r
      obtain ⟨gap, rest, rfl, blank, rfl, -⟩ := setting?_parts setting
      have sign : damageIn ('=' :: rest) = damageIn rest := damageIn_cons _ _
      have dollar (text : List Char) : damageIn ('$' :: text) = damageIn text := damageIn_cons _ _
      simp [Frame.text, dollar, sign, damageIn_trim, damageIn_blank blank]

/-- Cutting a text into lines keeps the replacement characters. -/
theorem damageIn_splitOn (text : List Char) :
    damageIn (text.splitOn '\n').flatten = damageIn text := by
  induction text with
  | nil => rfl
  | cons c text ih =>
    rw [List.splitOn_cons_eq_if_modifyHead, damageIn_cons]
    split
    · next lineFeed =>
      obtain rfl := beq_iff_eq.mp lineFeed
      exact ih
    · obtain ⟨first, others, parts⟩ := List.exists_cons_of_ne_nil (List.splitOn_ne_nil '\n' text)
      rw [parts] at ih ⊢
      rw [← ih]
      exact damageIn_cons _ _

/-- The frames of some lines hold the replacement characters of the lines. -/
theorem damageIn_frames (lines : List (List Char)) :
    damageIn ((((lines.map trim).filter (· ≠ [])).map Frame.classify).flatMap Frame.text)
      = damageIn lines.flatten := by
  induction lines with
  | nil => rfl
  | cons line lines ih =>
    have kept := damageIn_trim line
    by_cases empty : trim line = []
    · rw [empty, damageIn_nil] at kept
      rw [List.map_cons, List.filter_cons_of_neg (by simpa using empty), ih, List.flatten_cons,
        damageIn_append, ← kept, Nat.zero_add]
    · rw [List.map_cons, List.filter_cons_of_pos (by simpa using empty), List.map_cons,
        List.flatMap_cons, damageIn_append, ih, damageIn_classify, kept, List.flatten_cons,
        damageIn_append]

/-- **No replacement character of a text is lost** on the way into the frames. -/
theorem damage_ofText (text : List Char) : damage (ofText text) = damageIn text := by
  obtain ⟨ls, l, pieces⟩ : ∃ ls l, text.splitOn '\n' = ls ++ [l] :=
    ⟨_, _, (List.dropLast_append_getLast (List.splitOn_ne_nil '\n' text)).symm⟩
  have all := damageIn_splitOn text
  rw [pieces, List.flatten_append, List.flatten_singleton, damageIn_append,
    ← damageIn_frames] at all
  rw [← all, damage, ofText, pieces, List.dropLast_concat, List.getLast?_concat]
  rfl

/-- **Where chunks matter.** Bytes that are taken in chunks none of which ends inside a character
give the same frames and the same pending text in any other chunks if and only if none of these ends
inside a character either. -/
theorem feedAll_eq_iff_intact {cs ds : List (List UInt8)} (same : cs.flatten = ds.flatten)
    (intact : Intact cs) : empty.feedAll cs = empty.feedAll ds ↔ Intact ds := by
  have whole := flatMap_decodeLossy cs
  have parts := flatMap_decodeLossy ds
  rw [if_pos intact] at whole
  rw [feedAll_empty, feedAll_empty, whole, same]
  constructor
  · intro equal
    by_contra damaged
    rw [if_neg damaged] at parts
    have kept := congrArg damage equal
    rw [damage_ofText, damage_ofText] at kept
    omega
  · intro intact'
    rw [if_pos intact'] at parts
    rw [parts]

/-- The line `é` may be cut before its line feed, and may not be cut inside its only character. -/
theorem feedAll_eq_iff_intact_accent :
    [[0xC3, 0xA9], [0x0A]].flatten = [[0xC3], [0xA9, 0x0A]].flatten ∧
      Intact [[0xC3, 0xA9], [0x0A]] ∧
      (empty.feedAll [[0xC3, 0xA9], [0x0A]] = empty.feedAll [[0xC3], [0xA9, 0x0A]] ↔
        Intact [[0xC3], [0xA9, 0x0A]]) ∧
      (empty.feedAll [[0xC3, 0xA9], [0x0A]] = empty.feedAll [[0xC3, 0xA9, 0x0A]] ↔
        Intact [[0xC3, 0xA9, 0x0A]]) :=
  ⟨rfl, by decide, feedAll_eq_iff_intact rfl (by decide), feedAll_eq_iff_intact rfl (by decide)⟩

/-- **Chunks do matter**: a cut inside a character makes two replacement characters of it. -/
theorem feedAll_ne_of_cutCharacter :
    ¬ ∀ cs ds : List (List UInt8), cs.flatten = ds.flatten →
      empty.feedAll cs = empty.feedAll ds := by
  intro always
  have same := always [[0xC3, 0xA9, 0x0A]] [[0xC3], [0xA9, 0x0A]] rfl
  exact absurd same (by decide +kernel)

end FrameSplitter

end Cnc
