import Mathlib.Data.List.TakeWhile
import Cnc.Link.Basic
import Cnc.Proofs.Decoding
import Cnc.Proofs.Payloads

/-!
# Acknowledgements in a stream of bytes

The device answers in lines of bytes, and `acksIn` reads all answers off the
complete lines of what it has sent so far. The reader does not see those
lines: it gets the bytes in pieces, decodes each piece by itself and keeps
the text after the last line feed.

The two agree as soon as every line that is an answer is ASCII
(`acks_of_reads`). Lines that are no answers may hold anything, also bytes
that are damaged by the way they are cut into pieces: damage never turns
such a line into an answer (`lineAck?_of_textAck?`).
-/

namespace Cnc

open Text Utf8

/-! ## What counts as an answer -/

/-- The answer that a line of text is. -/
def textAck? (line : List Char) : Option Ack := (Frame.classify (trim line)).ack?

/-- The answer that a line of bytes is. -/
def lineAck? (line : List UInt8) : Option Ack := textAck? (decodeLossy line)

/-- The terminated lines of a stream of bytes. -/
def completeLines (bs : List UInt8) : List (List UInt8) := (bs.splitOn 10).dropLast

/-- **The answers in a stream of bytes.** -/
def acksIn (bs : List UInt8) : List Ack := (completeLines bs).filterMap lineAck?

/-- More bytes only add lines at the end. -/
theorem completeLines_append (bs more : List UInt8) :
    completeLines bs <+: completeLines (bs ++ more) := by
  obtain ⟨ls, l, pieces⟩ : ∃ ls l, bs.splitOn 10 = ls ++ [l] :=
    ⟨_, _, (List.dropLast_append_getLast (List.splitOn_ne_nil 10 bs)).symm⟩
  unfold completeLines
  rw [splitOn_append pieces, pieces, List.dropLast_concat,
    List.dropLast_append_of_ne_nil (List.splitOn_ne_nil _ _)]
  exact List.prefix_append _ _

theorem acksIn_append (bs more : List UInt8) : acksIn bs <+: acksIn (bs ++ more) :=
  (completeLines_append bs more).filterMap _

/-! ## Damage makes no answers -/

theorem trimStart_blank_append {front s : List Char} (blank : ∀ c ∈ front, isBlank c = true) :
    trimStart (front ++ s) = trimStart s := List.dropWhile_append_of_pos blank

/-- The blanks that a text begins with, and the rest. -/
theorem trimStart_parts (s : List Char) :
    ∃ front, s = front ++ trimStart s ∧ ∀ c ∈ front, isBlank c = true :=
  ⟨s.takeWhile isBlank, List.takeWhile_append_dropWhile.symm, fun _ => List.mem_takeWhile_imp⟩

/-- The blanks that a text ends with, and the rest. -/
theorem trimEnd_parts (s : List Char) :
    ∃ back, s = trimEnd s ++ back ∧ ∀ c ∈ back, isBlank c = true := by
  obtain ⟨front, parts, blank⟩ := trimStart_parts s.reverse
  refine ⟨front.reverse, ?_, by simpa using blank⟩
  have reversed := congrArg List.reverse parts
  rwa [List.reverse_append, List.reverse_reverse] at reversed

theorem Text.mem_of_mem_trim {text : List Char} {c : Char} (member : c ∈ trim text) : c ∈ text := by
  obtain ⟨front, parts, -⟩ := trimStart_parts text
  obtain ⟨back, parts', -⟩ := trimEnd_parts (trimStart text)
  rw [parts, parts']
  exact List.mem_append_right _ (List.mem_append_left _ member)

/-- Trimming the end leaves what ends with something else than a blank. -/
theorem prefix_trimEnd {p s : List Char} {c : Char} (h : p ++ [c] <+: s)
    (notBlank : isBlank c = false) : p ++ [c] <+: trimEnd s := by
  obtain ⟨q, rfl⟩ := h
  unfold trimEnd
  rw [List.reverse_append, List.dropWhile_append]
  split
  · simp [notBlank]
  · rw [List.reverse_append, List.reverse_reverse]
    exact List.prefix_append _ _

/-- The kind of a line that begins with neither `<` nor `$`. -/
theorem classify_eq_log {line : List Char} (notStatus : line.head? ≠ some '<')
    (notSetting : line.head? ≠ some '$') : Frame.classify line = .log (String.ofList line) := by
  have none : Frame.setting? line = none := by
    unfold Frame.setting?
    cases line with
    | nil => rfl
    | cons c rest =>
      split
      · next same =>
        obtain ⟨rfl, -⟩ := List.cons.inj same
        exact absurd rfl notSetting
      · rfl
  simp [Frame.classify, notStatus, none]

/-- **The answer that a line is.** -/
theorem ack?_classify (line : List Char) :
    (Frame.classify line).ack?
      = if line.map Char.toLower = "ok".toList then some .ok
        else if "error:".toList <+: line then
          some (.error ((readUInt16? (trim (line.drop 6))).getD 0))
        else none := by
  by_cases notStatus : line.head? = some '<'
  · obtain ⟨rest, rfl⟩ : ∃ rest, line = '<' :: rest := by
      cases line <;> simp_all
    simp [Frame.classify, Frame.ack?]
  · by_cases notSetting : line.head? = some '$'
    · obtain ⟨rest, rfl⟩ : ∃ rest, line = '$' :: rest := by
        cases line <;> simp_all
      unfold Frame.classify
      cases Frame.setting? ('$' :: rest) with
      | none => simp [Frame.ack?, Frame.messageAfter?, MachineStatus.after?]
      | some r => simp [Frame.ack?]
    · rw [classify_eq_log notStatus notSetting]
      simp only [Frame.ack?, Frame.messageAfter?, MachineStatus.after?, String.toList_ofList]
      split
      · rfl
      · by_cases label : "error:".toList <+: line
        · rw [if_pos (List.isPrefixOf_iff_prefix.mpr label), if_pos label]
          rfl
        · rw [if_neg (fun h => label (List.isPrefixOf_iff_prefix.mp h)), if_neg label]
          rfl

/-- **When a line is an answer.** -/
theorem textAck?_isSome {line : List Char} :
    (textAck? line).isSome = true ↔
      (trim line).map Char.toLower = "ok".toList ∨ "error:".toList <+: trimStart line := by
  have label : "error:".toList <+: trim line ↔ "error:".toList <+: trimStart line := by
    constructor
    · intro h
      obtain ⟨back, parts, -⟩ := trimEnd_parts (trimStart line)
      rw [parts]
      exact h.trans (List.prefix_append _ _)
    · exact fun h => prefix_trimEnd (p := "error".toList) (c := ':') h (by decide)
  rw [← label, textAck?, ack?_classify]
  by_cases ok : (trim line).map Char.toLower = "ok".toList
  · simp [ok]
  · by_cases error : "error:".toList <+: trim line
    · simp only [ok, error, if_true, if_false, Option.isSome_some, or_true]
    · simp only [ok, error, if_false, Option.isSome_none, or_self, Bool.false_eq_true]

/-- **Damage makes no answers.** -/
theorem lineAck?_of_textAck? {bs : List UInt8} {cs : List Char} (h : Reads bs cs)
    (ack : (textAck? cs).isSome = true) : (lineAck? bs).isSome = true := by
  have notReplacement {front : List Char} (blank : ∀ c ∈ front, isBlank c = true) :
      replacement ∉ front := fun mem => absurd (blank _ mem) (by decide)
  rcases textAck?_isSome.mp ack with ok | error
  · -- the whole text is undamaged
    obtain ⟨front, parts, blank⟩ := trimStart_parts cs
    obtain ⟨back, parts', blank'⟩ := trimEnd_parts (trimStart cs)
    have undamaged : replacement ∉ cs := by
      rw [parts, parts', List.mem_append, List.mem_append]
      rintro (inFront | inside | inBack)
      · exact notReplacement blank inFront
      · have letter : replacement ∈ (trim cs).map Char.toLower :=
          List.mem_map.mpr ⟨replacement, inside, by decide⟩
        rw [ok] at letter
        exact absurd letter (by decide)
      · exact notReplacement blank' inBack
    obtain ⟨r, whole, none⟩ := Reads.undamaged (p := cs) (r := []) (by simpa using h) undamaged
    rw [lineAck?, whole, none rfl, List.append_nil]
    exact ack
  · obtain ⟨front, parts, blank⟩ := trimStart_parts cs
    obtain ⟨r, rest⟩ := error
    have undamaged : replacement ∉ front ++ "error:".toList := by
      rw [List.mem_append]
      rintro (inFront | label)
      · exact notReplacement blank inFront
      · exact absurd label (by decide)
    rw [parts, ← rest, ← List.append_assoc] at h
    obtain ⟨r', whole, -⟩ := h.undamaged undamaged
    refine textAck?_isSome.mpr (.inr ⟨r', ?_⟩)
    rw [whole, List.append_assoc, trimStart_blank_append blank]
    rfl

/-- **What the reader takes for answers** are the answers, if these are ASCII. -/
theorem acks_of_reads {bs : List UInt8} {cs : List Char} (h : Reads bs cs)
    (ascii : ∀ line ∈ completeLines bs, (lineAck? line).isSome = true → ∀ b ∈ line, b < 0x80) :
    ((cs.splitOn '\n').dropLast).filterMap textAck? = acksIn bs := by
  have agree {line : List UInt8} {text : List Char} (h : Reads line text)
      (ascii : (lineAck? line).isSome = true → ∀ b ∈ line, b < 0x80) :
      textAck? text = lineAck? line := by
    by_cases ack : (lineAck? line).isSome = true
    · rw [h.ascii (ascii ack)]
      rfl
    · have notText : ¬ (textAck? text).isSome = true :=
        fun text => ack (lineAck?_of_textAck? h text)
      rw [Option.not_isSome_iff_eq_none.mp ack, Option.not_isSome_iff_eq_none.mp notText]
  have lines : List.Forall₂ Reads (completeLines bs) (cs.splitOn '\n').dropLast := by
    have all := h.splitOn
    unfold completeLines
    rw [List.dropLast_eq_take, List.dropLast_eq_take, all.length_eq]
    exact List.forall₂_take _ all
  unfold acksIn
  generalize completeLines bs = byteLines at lines ascii
  generalize (cs.splitOn '\n').dropLast = textLines at lines
  induction lines with
  | nil => rfl
  | cons first _ ih =>
    rw [List.filterMap_cons, List.filterMap_cons, agree first (ascii _ List.mem_cons_self),
      ih fun line hline => ascii line (List.mem_cons_of_mem _ hline)]

/-! ## How answers are written -/

/-- The line that an answer is. -/
def Ack.text : Ack → String
  | .ok => "ok"
  | .error code => "error:" ++ toString code

/-- An ASCII text is read back from its bytes. -/
theorem decodeLossy_toUTF8 {s : String} (ascii : ∀ c ∈ s.toList, c.toNat < 128) :
    decodeLossy s.toUTF8.toList = s.toList ∧ ∀ b ∈ s.toUTF8.toList, b < 0x80 := by
  rw [toList_toUTF8]
  generalize s.toList = cs at ascii
  induction cs with
  | nil => exact ⟨rfl, by simp⟩
  | cons c cs ih =>
    have small : c.toNat < 128 := ascii c List.mem_cons_self
    have encode : String.utf8EncodeChar c = [UInt8.ofNat c.toNat] :=
      if_pos (Nat.le_of_lt_succ small)
    have value : (UInt8.ofNat c.toNat).toNat = c.toNat :=
      UInt8.toNat_ofNat_of_lt' (by show c.toNat < 256; omega)
    have byte : UInt8.ofNat c.toNat < 0x80 := by
      rw [UInt8.lt_iff_toNat_lt, value]
      exact small
    obtain ⟨rest, low⟩ := ih fun d hd => ascii d (List.mem_cons_of_mem _ hd)
    rw [List.flatMap_cons, encode, List.singleton_append, decodeLossy_cons_ascii byte, rest, value]
    refine ⟨by simp, fun b hb => ?_⟩
    rcases List.mem_cons.mp hb with same | later
    · exact same ▸ byte
    · exact low b later

/-- A digit has a value. -/
theorem digitValue?_of_isDigit {c : Char} (digit : c.isDigit = true) :
    digitValue? c = some (c.toNat - 48) := by
  simp only [Char.isDigit, Bool.and_eq_true, decide_eq_true_eq] at digit
  exact if_pos digit

/-- Digits write the number that they are the decimal digits of. -/
theorem naturalOfDigits_eq {ds : List Char} (digits : ∀ c ∈ ds, c.isDigit = true) :
    naturalOfDigits ds = Nat.ofDigitChars 10 ds 0 := by
  have number {ds : List Char} (all : ∀ c ∈ ds, c.isDigit = true) (m : Nat) :
      ds.foldl (fun n c => n * 10 + (digitValue? c).getD 0) m = Nat.ofDigitChars 10 ds m := by
    induction ds generalizing m with
    | nil => rfl
    | cons c ds ih =>
      rw [List.foldl_cons, Nat.ofDigitChars_cons, digitValue?_of_isDigit (all c List.mem_cons_self),
        ih fun d hd => all d (List.mem_cons_of_mem _ hd), Nat.mul_comm]
      rfl
  exact number digits 0

theorem isAsciiDigit_of_isDigit {c : Char} (digit : c.isDigit = true) : isAsciiDigit c = true := by
  rw [isAsciiDigit, digitValue?_of_isDigit digit]
  rfl

/-- A number is read back from its digits. -/
theorem readNatural?_toDigits (n : Nat) : readNatural? (Nat.toDigits 10 n) = some n := by
  have digits {c : Char} (h : c ∈ Nat.toDigits 10 n) : c.isDigit = true :=
    Nat.isDigit_of_mem_toDigits (by decide) (by decide) h
  have unsigned : ∀ rest, Nat.toDigits 10 n ≠ '+' :: rest := fun rest same =>
    absurd (digits (same ▸ List.mem_cons_self)) (by decide)
  have value : naturalOfDigits (Nat.toDigits 10 n) = n :=
    (naturalOfDigits_eq fun c => digits).trans Nat.ofDigitChars_ten_toDigits
  have ascii : (Nat.toDigits 10 n).all isAsciiDigit = true :=
    List.all_eq_true.mpr fun c own => isAsciiDigit_of_isDigit (digits own)
  have some_ : Nat.toDigits 10 n ≠ [] := Nat.toDigits_ne_nil
  generalize Nat.toDigits 10 n = ds at unsigned value ascii some_
  simp [readNatural?, value, ascii, some_]

theorem readUInt16?_toString (n : UInt16) : readUInt16? (toString n).toList = some n := by
  have digits : (toString n).toList = Nat.toDigits 10 n.toNat := by
    show (toString n.toNat).toList = _
    simp
  rw [digits, readUInt16?, readNatural?_toDigits]
  simp [n.toNat_lt]
/-- A text without blanks has none to lose. -/
theorem trim_eq_self {s : List Char} (h : ∀ c ∈ s, isBlank c = false) : trim s = s := by
  have keep {r : List Char} (h : ∀ c ∈ r, isBlank c = false) : r.dropWhile isBlank = r := by
    cases r with
    | nil => rfl
    | cons c r => exact List.dropWhile_cons_of_neg (by simp [h c List.mem_cons_self])
  rw [trim, trimStart, keep h, trimEnd, keep fun c hc => h c (List.mem_reverse.mp hc),
    List.reverse_reverse]

/-- **An answer is read back from the line that it is**, and the line is ASCII. -/
theorem lineAck?_text (a : Ack) :
    lineAck? a.text.toUTF8.toList = some a ∧ ∀ b ∈ a.text.toUTF8.toList, b < 0x80 := by
  cases a with
  | ok => decide +kernel
  | error code =>
    have digits : (toString code).toList = Nat.toDigits 10 code.toNat := by
      show (toString code.toNat).toList = _
      simp
    have isDigit {c : Char} (h : c ∈ (toString code).toList) : c.isDigit = true :=
      Nat.isDigit_of_mem_toDigits (by decide) (by decide) (digits ▸ h)
    have text : (Ack.error code).text.toList = "error:".toList ++ (toString code).toList := by
      simp [Ack.text]
    have low {c : Char} (h : c.isDigit = true) : c.toNat < 128 ∧ isBlank c = false := by
      simp only [Char.isDigit, Bool.and_eq_true, decide_eq_true_eq] at h
      have least : 48 ≤ c.toNat := h.1
      have most : c.toNat ≤ 57 := h.2
      refine ⟨by omega, ?_⟩
      simp only [isBlank, Bool.or_eq_false_iff, Bool.and_eq_false_iff, decide_eq_false_iff_not,
        beq_eq_false_iff_ne]
      omega
    have letters : ∀ c ∈ "error:".toList, c.toNat < 128 ∧ isBlank c = false := by
      have all : ("error:".toList.all fun c => c.toNat < 128 && !isBlank c) = true := by decide
      simpa using all
    have plain : ∀ c ∈ (Ack.error code).text.toList, c.toNat < 128 ∧ isBlank c = false := by
      rw [text]
      intro c hc
      exact (List.mem_append.mp hc).elim (letters c) fun h => low (isDigit h)
    obtain ⟨decoded, ascii⟩ := decodeLossy_toUTF8 fun c hc => (plain c hc).1
    refine ⟨?_, ascii⟩
    have notOk : ¬ ("error:".toList ++ (toString code).toList).map Char.toLower = "ok".toList := by
      intro same
      have first : some 'e' = some 'o' := congrArg List.head? same
      exact absurd first (by decide)
    have rest : ("error:".toList ++ (toString code).toList).drop 6 = (toString code).toList := rfl
    rw [lineAck?, decoded, textAck?, trim_eq_self fun c hc => (plain c hc).2, ack?_classify, text,
      if_neg notOk, if_pos (List.prefix_append _ _), rest,
      trim_eq_self fun c hc => (low (isDigit hc)).2, readUInt16?_toString]
    rfl

end Cnc
