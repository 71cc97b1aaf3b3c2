import Mathlib.Data.List.Forall2
import Mathlib.Data.List.Basic
import Cnc.Proofs.Pieces
import Cnc.Text.Utf8

/-!
# Decoding bytes chunk by chunk

Bytes that arrive in chunks are decoded chunk by chunk, so a character that
is cut in two is damaged although the bytes are not. `Utf8.Reads bytes text`
says that a text is what some bytes are read as, in whatever chunks.

Where a text is cut into lines does not depend on the chunks: the line feeds
of the text are the line feeds of the bytes, and each line of the text is
what the corresponding bytes are read as (`Utf8.Reads.splitOn`). And what is
not damaged does not depend on the chunks either: a text that begins with
undamaged characters begins with the same characters when it is read at once
(`Utf8.Reads.undamaged`), and ASCII is always read as itself
(`Utf8.Reads.ascii`).
-/

namespace Cnc.Text

namespace Utf8

/-! ## One byte at a time -/

/-- What a byte is read as where a character may begin: the text, and what is read of a longer
character. -/
def start (b : UInt8) : List Char × Option Pending :=
  match begin? b with
  | some (.inl c) => ([c], none)
  | some (.inr p) => ([], some p)
  | none => ([replacement], none)

/-- What a byte is read as. -/
def readByte (p : Option Pending) (b : UInt8) : List Char × Option Pending :=
  match p with
  | none => start b
  | some p =>
    if p.low ≤ b ∧ b ≤ p.high then
      match p.more with
      | 0 => ([Char.ofNat (p.bits * 64 + (b.toNat - 0x80))], none)
      | more + 1 => ([], some ⟨p.bits * 64 + (b.toNat - 0x80), 0x80, 0xBF, more⟩)
    else (replacement :: (start b).1, (start b).2)

/-- **Decoding goes byte by byte.** -/
theorem decodeFrom_cons (p : Option Pending) (b : UInt8) (rest : List UInt8) :
    decodeFrom p (b :: rest) = (readByte p b).1 ++ decodeFrom (readByte p b).2 rest := by
  have begins : decodeFrom none (b :: rest) = (start b).1 ++ decodeFrom (start b).2 rest := by
    unfold start
    cases h : begin? b with
    | none => simp [decodeFrom, h]
    | some r => cases r <;> simp [decodeFrom, h]
  cases p with
  | none => exact begins
  | some p =>
    by_cases inRange : p.low ≤ b ∧ b ≤ p.high
    · cases more : p.more <;> simp [decodeFrom, readByte, inRange, more]
    · unfold readByte start
      cases h : begin? b with
      | none => simp [decodeFrom, inRange, h]
      | some r => cases r <;> simp [decodeFrom, inRange, h]

/-- What has been read of a character that is not ASCII. -/
structure Pending.Good (p : Pending) : Prop where
  low : 0x80 ≤ p.low
  large : 2 ≤ p.bits ∨ (0 < p.more ∧ (1 ≤ p.bits ∨ 0x90 ≤ p.low))

theorem begin?_good {b : UInt8} {p : Pending} (h : begin? b = some (.inr p)) : p.Good := by
  unfold begin? at h
  split at h
  · exact absurd h (by simp)
  · split at h
    · exact absurd h (by simp)
    · next notSmall =>
      have large : 0xC2 ≤ b.toNat := by simpa [UInt8.lt_iff_toNat_lt] using notSmall
      split at h
      · obtain rfl : _ = p := by simpa using h
        exact ⟨UInt8.le_refl _, .inl (by show 2 ≤ b.toNat - 0xC0; omega)⟩
      · next notTwo =>
        have three : 0xE0 ≤ b.toNat := by simpa [UInt8.lt_iff_toNat_lt] using notTwo
        split at h
        · obtain rfl : _ = p := by simpa using h
          by_cases first : b = 0xE0
          · exact ⟨by simp [first], .inr ⟨by simp, .inr (by simp [first])⟩⟩
          · have further : b.toNat ≠ 0xE0 := fun same => first (UInt8.toNat_inj.mp same)
            exact ⟨by simp [first], .inr ⟨by simp, .inl (by show 1 ≤ b.toNat - 0xE0; omega)⟩⟩
        · next notThree =>
          have four : 0xF0 ≤ b.toNat := by simpa [UInt8.lt_iff_toNat_lt] using notThree
          split at h
          · obtain rfl : _ = p := by simpa using h
            by_cases first : b = 0xF0
            · exact ⟨by simp [first], .inr ⟨by simp, .inr (by simp [first])⟩⟩
            · have further : b.toNat ≠ 0xF0 := fun same => first (UInt8.toNat_inj.mp same)
              exact ⟨by simp [first], .inr ⟨by simp, .inl (by show 1 ≤ b.toNat - 0xF0; omega)⟩⟩
          · exact absurd h (by simp)

theorem Pending.Good.next {p : Pending} (good : p.Good) {b : UInt8} (inRange : p.low ≤ b)
    (more : Nat) : Good ⟨p.bits * 64 + (b.toNat - 0x80), 0x80, 0xBF, more⟩ := by
  refine ⟨UInt8.le_refl _, .inl ?_⟩
  show 2 ≤ p.bits * 64 + (b.toNat - 0x80)
  rcases good.large with large | ⟨-, some | second⟩
  · omega
  · omega
  · have high : 0x90 ≤ b.toNat := Nat.le_trans second inRange
    omega

/-- The last byte of a character makes it one that is not ASCII. -/
theorem Pending.Good.last {p : Pending} (good : p.Good) (done : p.more = 0) (n : Nat) :
    0x80 ≤ p.bits * 64 + n := by
  have := good.large
  omega

/-- A number that is no character stands for the null character. -/
theorem toNat_ofNat (n : Nat) : (Char.ofNat n).toNat = if n.isValidChar then n else 0 := by
  by_cases valid : n.isValidChar
  · rw [if_pos valid, Char.ofNat, dif_pos valid]
    rfl
  · rw [if_neg valid, Char.ofNat, dif_neg valid]
    rfl

theorem ofNat_ne_lineFeed {n : Nat} (large : 0x80 ≤ n) : Char.ofNat n ≠ '\n' := by
  intro same
  have value := congrArg Char.toNat same
  rw [toNat_ofNat] at value
  split at value
  · have : n = 10 := value
    omega
  · exact absurd value (by decide)

/-- Whether all that has been read of a character is of one that is not ASCII. -/
def Good (p : Option Pending) : Prop := ∀ q ∈ p, q.Good

theorem good_start (b : UInt8) : Good (start b).2 := by
  unfold start
  cases h : begin? b with
  | none => simp [Good]
  | some r =>
    cases r with
    | inl c => simp [Good]
    | inr p => simpa [Good] using begin?_good h

theorem good_readByte {p : Option Pending} (good : Good p) (b : UInt8) : Good (readByte p b).2 := by
  unfold readByte
  cases p with
  | none => exact good_start b
  | some p =>
    dsimp only
    split
    · next inRange =>
      cases p.more with
      | zero => simp [Good]
      | succ more => simpa [Good] using (good p rfl).next inRange.1 more
    · exact good_start b

/-! ## Line feeds -/

theorem start_lineFeed : start 10 = (['\n'], none) := rfl

/-- A line feed ends what has been read of a character, and is read as itself. -/
theorem readByte_lineFeed {p : Option Pending} (good : Good p) :
    readByte p 10 = (decodeFrom p [] ++ ['\n'], none) := by
  cases p with
  | none => rfl
  | some p =>
    have outside : ¬(p.low ≤ 10 ∧ 10 ≤ p.high) := fun inRange =>
      absurd (UInt8.le_trans (good p rfl).low inRange.1) (by decide)
    simp [readByte, outside, start_lineFeed, decodeFrom]

theorem lineFeed_of_start {b : UInt8} (h : '\n' ∈ (start b).1) : b = 10 := by
  unfold start at h
  cases begins : begin? b with
  | none => simp [begins, replacement] at h
  | some r =>
    cases r with
    | inr p => simp [begins] at h
    | inl c =>
      obtain rfl : '\n' = c := by simpa [begins] using h
      unfold begin? at begins
      split at begins
      · next ascii =>
        have char : Char.ofNat b.toNat = '\n' := by simpa using begins
        have value : b.toNat = 10 := by
          have small : b.toNat < 0x80 := ascii
          have same := congrArg Char.toNat char
          rwa [toNat_ofNat, if_pos (.inl (by omega))] at same
        exact UInt8.toNat_inj.mp value
      · repeat' split at begins
        all_goals simp at begins

/-- Only a line feed is read as one. -/
theorem lineFeed_of_readByte {p : Option Pending} (good : Good p) {b : UInt8}
    (h : '\n' ∈ (readByte p b).1) : b = 10 := by
  unfold readByte at h
  cases p with
  | none => exact lineFeed_of_start h
  | some p =>
    dsimp only at h
    split at h
    · cases more : p.more with
      | zero =>
        have same : '\n' = Char.ofNat (p.bits * 64 + (b.toNat - 0x80)) := by simpa [more] using h
        exact absurd same.symm (ofNat_ne_lineFeed ((good p rfl).last more _))
      | succ more => simp [more] at h
    · exact lineFeed_of_start (by simpa [replacement] using h)

/-- A line feed is read as itself, and what comes before it as if it ended there. -/
theorem decodeFrom_append_lineFeed {p : Option Pending} (good : Good p) (bs rest : List UInt8) :
    decodeFrom p (bs ++ 10 :: rest) = decodeFrom p bs ++ '\n' :: decodeLossy rest := by
  induction bs generalizing p with
  | nil =>
    rw [List.nil_append, decodeFrom_cons, readByte_lineFeed good, List.append_assoc]
    rfl
  | cons b bs ih =>
    rw [List.cons_append, decodeFrom_cons, ih (good_readByte good b), decodeFrom_cons p b bs,
      List.append_assoc]

/-- Bytes without a line feed are read as a text without one. -/
theorem lineFeed_not_mem_decodeFrom {p : Option Pending} (good : Good p) {bs : List UInt8}
    (h : 10 ∉ bs) : '\n' ∉ decodeFrom p bs := by
  induction bs generalizing p with
  | nil => cases p <;> simp [decodeFrom, replacement]
  | cons b bs ih =>
    rw [decodeFrom_cons, List.mem_append]
    rintro (here | later)
    · exact h (by simp [lineFeed_of_readByte good here])
    · exact ih (good_readByte good b) (fun hb => h (List.mem_cons_of_mem _ hb)) later

/-! ## What is not damaged -/

/-- A byte that is read as an undamaged character completes it. -/
theorem readByte_undamaged {p : Option Pending} {b : UInt8} {c : Char} {r : List Char}
    (h : (readByte p b).1 = c :: r) (undamaged : c ≠ replacement) : readByte p b = ([c], none) := by
  have begins {b : UInt8} (h : (start b).1 = c :: r) : start b = ([c], none) := by
    unfold start at h ⊢
    cases begins : begin? b with
    | none =>
      simp only [begins, List.cons.injEq] at h
      exact absurd h.1.symm undamaged
    | some s => cases s <;> simp_all
  unfold readByte at h ⊢
  cases p with
  | none => exact begins h
  | some p =>
    dsimp only at h ⊢
    split at h
    · next inRange =>
      rw [if_pos inRange]
      cases more : p.more <;> simp_all
    · exact absurd (List.cons.inj h).1.symm undamaged

/-- **Undamaged characters are read from bytes of their own**, whatever follows. -/
theorem decodeFrom_undamaged {p : Option Pending} {bs : List UInt8} {c : Char} {r : List Char}
    (h : decodeFrom p bs = c :: r) (undamaged : c ≠ replacement) :
    ∃ own rest, bs = own ++ rest ∧ decodeLossy rest = r ∧
      ∀ others, decodeFrom p (own ++ others) = c :: decodeLossy others := by
  induction bs generalizing p with
  | nil =>
    cases p with
    | none => simp [decodeFrom] at h
    | some p =>
      simp only [decodeFrom, Option.isSome_some, if_true, List.cons.injEq] at h
      exact absurd h.1.symm undamaged
  | cons b bs ih =>
    rw [decodeFrom_cons] at h
    cases text : (readByte p b).1 with
    | nil =>
      rw [text, List.nil_append] at h
      obtain ⟨own, rest, rfl, last, read⟩ := ih h
      refine ⟨b :: own, rest, rfl, last, fun others => ?_⟩
      rw [List.cons_append, decodeFrom_cons, text, List.nil_append, read]
    | cons d ds =>
      rw [text] at h
      obtain rfl : d = c := (List.cons.inj h).1
      have whole := readByte_undamaged text undamaged
      refine ⟨[b], bs, rfl, ?_, fun others => ?_⟩
      · rw [whole] at h text
        have none : ds = [] := by simpa [eq_comm] using text
        rw [none] at h
        exact (List.cons.inj h).2
      · rw [List.cons_append, decodeFrom_cons, whole]
        rfl

theorem decodeLossy_undamaged {bs : List UInt8} {p r : List Char} (h : decodeLossy bs = p ++ r)
    (undamaged : replacement ∉ p) :
    ∃ own rest, bs = own ++ rest ∧ decodeLossy rest = r ∧
      ∀ others, decodeLossy (own ++ others) = p ++ decodeLossy others := by
  induction p generalizing bs with
  | nil => exact ⟨[], bs, rfl, h, fun _ => rfl⟩
  | cons c p ih =>
    rw [List.mem_cons, not_or] at undamaged
    obtain ⟨own, rest, rfl, last, read⟩ := decodeFrom_undamaged h (Ne.symm undamaged.1)
    obtain ⟨more, rest, rfl, last, reads⟩ := ih last undamaged.2
    refine ⟨own ++ more, rest, by rw [List.append_assoc], last, fun others => ?_⟩
    rw [List.append_assoc, decodeLossy, read, reads]
    rfl

/-- A byte that is read as nothing yet is not lost. -/
theorem readByte_pending {p : Option Pending} {b : UInt8} (h : (readByte p b).1 = []) :
    (readByte p b).2 ≠ none := by
  have begins {b : UInt8} (h : (start b).1 = []) : (start b).2 ≠ none := by
    unfold start at h ⊢
    cases begins : begin? b with
    | none => simp [begins] at h
    | some s => cases s <;> simp_all
  unfold readByte at h ⊢
  cases p with
  | none => exact begins h
  | some p =>
    dsimp only at h ⊢
    split at h
    · next inRange =>
      rw [if_pos inRange]
      cases more : p.more <;> simp_all
    · exact absurd h (by simp)

/-- Only nothing is read as nothing. -/
theorem eq_nil_of_decodeFrom {p : Option Pending} {bs : List UInt8} (h : decodeFrom p bs = []) :
    bs = [] ∧ p = none := by
  induction bs generalizing p with
  | nil => cases p <;> simp_all [decodeFrom]
  | cons b bs ih =>
    rw [decodeFrom_cons, List.append_eq_nil_iff] at h
    exact absurd (ih h.2).2 (readByte_pending h.1)

/-! ## Chunks -/

/-- **What some bytes are read as when they come in chunks.** -/
inductive Reads : List UInt8 → List Char → Prop
  | nil : Reads [] []
  | cons (chunk : List UInt8) {bs : List UInt8} {cs : List Char} (rest : Reads bs cs) :
    Reads (chunk ++ bs) (decodeLossy chunk ++ cs)

theorem Reads.chunk (bs : List UInt8) : Reads bs (decodeLossy bs) := by
  simpa using Reads.cons bs .nil

/-- One more chunk. -/
theorem Reads.append {bs : List UInt8} {cs : List Char} (h : Reads bs cs) (chunk : List UInt8) :
    Reads (bs ++ chunk) (cs ++ decodeLossy chunk) := by
  induction h with
  | nil => exact .chunk chunk
  | cons first _ ih =>
    rw [List.append_assoc, List.append_assoc]
    exact .cons first ih

/-- **Where a text is cut into lines does not depend on the chunks.** -/
theorem Reads.splitOn {bs : List UInt8} {cs : List Char} (h : Reads bs cs) :
    List.Forall₂ Reads (bs.splitOn 10) (cs.splitOn '\n') := by
  induction h with
  | nil => exact .cons .nil .nil
  | @cons chunk bs cs rest ih =>
    -- on the number of bytes, because what follows a line feed is a chunk by itself
    induction size : chunk.length using Nat.strongRecOn generalizing chunk with
    | _ n shorter =>
      by_cases lineFeed : (10 : UInt8) ∈ chunk
      · obtain ⟨line, others, rfl, none⟩ := List.eq_append_cons_of_mem lineFeed
        have noLineFeed : '\n' ∉ decodeLossy line :=
          lineFeed_not_mem_decodeFrom (by simp [Good]) none
        have cut : decodeLossy (line ++ 10 :: others)
            = decodeLossy line ++ '\n' :: decodeLossy others :=
          decodeFrom_append_lineFeed (by simp [Good]) line others
        rw [cut, List.append_assoc, List.append_assoc, List.cons_append, List.cons_append,
          List.splitOn_append_cons_self_of_not_mem none,
          List.splitOn_append_cons_self_of_not_mem noLineFeed]
        refine .cons (.chunk line) (shorter others.length ?_ others rfl)
        rw [← size, List.length_append, List.length_cons]
        omega
      · have noLineFeed : '\n' ∉ decodeLossy chunk :=
          lineFeed_not_mem_decodeFrom (by simp [Good]) lineFeed
        rw [splitOn_append_of_not_mem lineFeed, splitOn_append_of_not_mem noLineFeed]
        obtain ⟨l, ls, lines⟩ := List.exists_cons_of_ne_nil (List.splitOn_ne_nil 10 bs)
        obtain ⟨m, ms, texts⟩ := List.exists_cons_of_ne_nil (List.splitOn_ne_nil '\n' cs)
        rw [lines, texts] at ih ⊢
        cases ih with
        | cons first others => exact .cons (.cons chunk first) others

/-- **Undamaged characters do not depend on the chunks.** -/
theorem Reads.undamaged {bs : List UInt8} {p r : List Char} (h : Reads bs (p ++ r))
    (undamaged : replacement ∉ p) : ∃ r', decodeLossy bs = p ++ r' ∧ (r = [] → r' = []) := by
  generalize text : p ++ r = cs at h
  induction h generalizing p r with
  | nil =>
    obtain ⟨rfl, rfl⟩ := List.append_eq_nil_iff.mp text
    exact ⟨[], rfl, fun _ => rfl⟩
  | @cons chunk bs cs rest ih =>
    rcases List.append_eq_append_iff.mp text with ⟨ds, inChunk, after⟩ | ⟨ds, longer, after⟩
    · -- the undamaged part ends in this chunk
      obtain ⟨own, left, rfl, last, read⟩ := decodeLossy_undamaged inChunk undamaged
      refine ⟨decodeLossy (left ++ bs), by rw [List.append_assoc, read], ?_⟩
      rintro rfl
      obtain ⟨rfl, rfl⟩ := List.append_eq_nil_iff.mp after.symm
      have none := (eq_nil_of_decodeFrom last).1
      obtain ⟨r', whole, nothing⟩ := ih (p := []) (r := []) (by simp) rfl
      rw [none, List.nil_append, whole, nothing rfl]
      rfl
    · -- the chunk is undamaged
      rw [longer, List.mem_append, not_or] at undamaged
      obtain ⟨own, left, rfl, last, read⟩ :=
        decodeLossy_undamaged (List.append_nil _).symm undamaged.1
      obtain rfl := (eq_nil_of_decodeFrom last).1
      obtain ⟨r', whole, nothing⟩ := ih undamaged.2 after.symm
      refine ⟨r', ?_, nothing⟩
      rw [List.append_assoc, List.nil_append, read, whole, longer, List.append_nil,
        List.append_assoc]

theorem decodeLossy_append_ascii {bs : List UInt8} (ascii : ∀ b ∈ bs, b < 0x80)
    (rest : List UInt8) : decodeLossy (bs ++ rest) = decodeLossy bs ++ decodeLossy rest := by
  induction bs with
  | nil => rfl
  | cons b bs ih =>
    have first := ascii b List.mem_cons_self
    rw [List.cons_append, decodeLossy_cons_ascii first, decodeLossy_cons_ascii first,
      ih fun b hb => ascii b (List.mem_cons_of_mem _ hb)]
    rfl

/-- **ASCII is read as itself.** -/
theorem Reads.ascii {bs : List UInt8} {cs : List Char} (h : Reads bs cs)
    (ascii : ∀ b ∈ bs, b < 0x80) : cs = decodeLossy bs := by
  induction h with
  | nil => rfl
  | cons chunk _ ih =>
    rw [decodeLossy_append_ascii fun b hb => ascii b (List.mem_append_left _ hb),
      ih fun b hb => ascii b (List.mem_append_right _ hb)]

end Utf8

end Cnc.Text
