import Cnc.Proofs.Chunks

/-!
# Lines that report a setting

A line reports a setting if it is `$`, the digits of a number, blanks, `=` and
a rest; the value is the trimmed rest. No digit is a blank and the equals sign
is neither, so the parts are found in one way only
(`Frame.Reports.unique`, `Frame.classify_eq_setting_iff`).

The line that sets a setting is such a line, and so is what is left of it when
its end is trimmed. A controller that echoes it reports the trimmed value
(`classify_settingLine`). The echo is read as one frame with that report if no
chunk of it ends inside a character, and in no other case
(`feedAll_echo`): what is read of a cut character is damage, and a frame keeps
all the damage of its line.
-/

namespace Cnc

open Text Utf8

namespace Text.Utf8

/-! ## Undamaged text -/

/-- How a byte that begins a character is taken, by its number. -/
theorem begin?_ofNat {n : Nat} (small : n < 256) : begin? (UInt8.ofNat n) =
    if n < 0x80 then some (.inl (Char.ofNat n))
    else if n < 0xC2 then none
    else if n < 0xE0 then some (.inr ⟨n - 0xC0, 0x80, 0xBF, 0⟩)
    else if n < 0xF0 then
      some (.inr ⟨n - 0xE0, if n = 0xE0 then 0xA0 else 0x80, if n = 0xED then 0x9F else 0xBF, 1⟩)
    else if n < 0xF5 then
      some (.inr ⟨n - 0xF0, if n = 0xF0 then 0x90 else 0x80, if n = 0xF4 then 0x8F else 0xBF, 2⟩)
    else none := by
  have value : (UInt8.ofNat n).toNat = n := UInt8.toNat_ofNat_of_lt' small
  simp only [begin?, UInt8.lt_iff_toNat_lt, ← UInt8.toNat_inj, value]
  rfl

/-- A byte that may come next in a character goes on with it. -/
theorem decodeFrom_within {p : Pending} {n : Nat} (low : p.low.toNat ≤ n) (high : n ≤ p.high.toNat)
    (rest : List UInt8) :
    decodeFrom (some p) (UInt8.ofNat n :: rest) =
      match p.more with
      | 0 => Char.ofNat (p.bits * 64 + (n - 0x80)) :: decodeFrom none rest
      | more + 1 => decodeFrom (some ⟨p.bits * 64 + (n - 0x80), 0x80, 0xBF, more⟩) rest := by
  have value : (UInt8.ofNat n).toNat = n :=
    UInt8.toNat_ofNat_of_lt' (Nat.lt_of_le_of_lt high p.high.toNat_lt)
  have within : p.low ≤ UInt8.ofNat n ∧ UInt8.ofNat n ≤ p.high := by
    rw [UInt8.le_iff_toNat_le, UInt8.le_iff_toNat_le, value]
    exact ⟨low, high⟩
  cases more : p.more <;> simp only [decodeFrom, if_pos within, value, more]

/-- A byte between `0x80` and `0xBF` goes on with every character whose next byte is not
restricted further. -/
theorem decodeFrom_tail (bits more v : Nat) (rest : List UInt8) :
    decodeFrom (some ⟨bits, 0x80, 0xBF, more⟩) (UInt8.ofNat (v % 64 + 128) :: rest) =
      match more with
      | 0 => Char.ofNat (bits * 64 + v % 64) :: decodeFrom none rest
      | more + 1 => decodeFrom (some ⟨bits * 64 + v % 64, 0x80, 0xBF, more⟩) rest := by
  have short : v % 64 < 64 := Nat.mod_lt v (by decide)
  have within := decodeFrom_within (p := ⟨bits, 0x80, 0xBF, more⟩) (n := v % 64 + 128)
    (Nat.le_add_left _ _) (by show v % 64 + 128 ≤ 191; omega) rest
  rw [within, show v % 64 + 128 - 0x80 = v % 64 by omega]

/-- The second byte of a character of three or four bytes: after some first bytes it is not below
`least`, after others not above `most`. -/
theorem decodeFrom_second {lowest highest : Prop} [Decidable lowest] [Decidable highest]
    {least most : UInt8} (bits more v : Nat) (low : lowest → least.toNat ≤ v % 64 + 128)
    (high : highest → v % 64 + 128 ≤ most.toNat) (rest : List UInt8) :
    decodeFrom (some ⟨bits, if lowest then least else 0x80, if highest then most else 0xBF,
        more + 1⟩) (UInt8.ofNat (v % 64 + 128) :: rest)
      = decodeFrom (some ⟨bits * 64 + v % 64, 0x80, 0xBF, more⟩) rest := by
  have short : v % 64 < 64 := Nat.mod_lt v (by decide)
  have within := decodeFrom_within
    (p := ⟨bits, if lowest then least else 0x80, if highest then most else 0xBF, more + 1⟩)
    (n := v % 64 + 128)
    (by
      dsimp only
      split
      · next restricted => exact low restricted
      · exact Nat.le_add_left _ _)
    (by
      dsimp only
      split
      · next restricted => exact high restricted
      · show v % 64 + 128 ≤ 191
        omega) rest
  rw [within, show v % 64 + 128 - 0x80 = v % 64 by omega]

/-- **A character is read from its encoding.** -/
theorem decodeFrom_encode (c : Char) (rest : List UInt8) :
    decodeFrom none (String.utf8EncodeChar c ++ rest) = c :: decodeFrom none rest := by
  have valid : c.val.toNat.isValidChar := c.valid
  have same : Char.ofNat c.val.toNat = c := Char.ofNat_toNat c
  unfold String.utf8EncodeChar
  generalize c.val.toNat = v at *
  have range : v < 0xD800 ∨ 0xDFFF < v ∧ v < 0x110000 := valid
  subst same
  dsimp only
  split
  · next one =>
    rw [List.singleton_append, decodeFrom, begin?_ofNat (by omega), if_pos (by omega)]
  · split
    · next two =>
      rw [List.cons_append, decodeFrom, begin?_ofNat (by omega), if_neg (by omega),
        if_neg (by omega), if_pos (by omega)]
      simp only [List.cons_append, List.nil_append, decodeFrom_tail]
      congr 2
      omega
    · split
      · next three =>
        rw [List.cons_append, decodeFrom, begin?_ofNat (by omega), if_neg (by omega),
          if_neg (by omega), if_neg (by omega), if_pos (by omega)]
        simp only [List.cons_append, List.nil_append]
        -- no character is encoded in more bytes than it needs, and none is a surrogate
        rw [decodeFrom_second _ _ _ (by show _ → 160 ≤ _; omega) (by show _ → _ ≤ 159; omega)]
        simp only [decodeFrom_tail]
        congr 2
        omega
      · next four =>
        rw [List.cons_append, decodeFrom, begin?_ofNat (by omega), if_neg (by omega),
          if_neg (by omega), if_neg (by omega), if_neg (by omega), if_pos (by omega)]
        simp only [List.cons_append, List.nil_append]
        rw [decodeFrom_second _ _ _ (by show _ → 144 ≤ _; omega) (by show _ → _ ≤ 143; omega)]
        simp only [decodeFrom_tail]
        congr 2
        omega

/-- **A text is read from its encoding.** -/
theorem decodeLossy_encode (s : String) : decodeLossy s.toUTF8.toList = s.toList := by
  have encoded (cs : List Char) : decodeFrom none (cs.flatMap String.utf8EncodeChar) = cs := by
    induction cs with
    | nil => rfl
    | cons c cs ih => rw [List.flatMap_cons, decodeFrom_encode, ih]
  rw [toList_toUTF8]
  exact encoded s.toList

end Text.Utf8

/-! ## Digits and blanks -/

namespace Text

/-- No digit of any script is a blank. -/
theorem isDigit_of_isBlank {c : Char} (blank : isBlank c = true) : isDigit c = false := by
  rw [← Bool.not_eq_true]
  intro digit
  obtain ⟨first, block, own⟩ := List.any_eq_true.mp digit
  have apart : ∀ first ∈ digitBlocks, 0x20 < first ∧ (first + 10 ≤ 0x85 ∨ 0x85 < first) ∧
      (first + 10 ≤ 0xA0 ∨ 0xA0 < first) ∧ (first + 10 ≤ 0x1680 ∨ 0x1680 < first) ∧
      (first + 10 ≤ 0x2000 ∨ 0x205F < first) ∧ (first + 10 ≤ 0x3000 ∨ 0x3000 < first) := by
    decide
  have := apart first block
  simp only [Bool.and_eq_true, decide_eq_true_eq] at own
  simp only [isBlank, Bool.or_eq_true, Bool.and_eq_true, decide_eq_true_eq, beq_iff_eq] at blank
  omega

/-- The digits of a number. -/
theorem toList_toString (id : UInt16) : (toString id).toList = Nat.toDigits 10 id.toNat := by
  show (toString id.toNat).toList = _
  simp

theorem isDigit_toString {id : UInt16} {c : Char} (own : c ∈ (toString id).toList) :
    isDigit c = true := by
  rw [toList_toString] at own
  exact isDigit_of_digitValue?
    (digitValue?_of_isDigit (Nat.isDigit_of_mem_toDigits (by decide) (by decide) own))

/-- Trimming goes up to a character that is not blank. -/
theorem trimEnd_append {front s : List Char} {c : Char} (other : isBlank c = false) :
    trimEnd (front ++ c :: s) = front ++ c :: trimEnd s := by
  have stop : (front ++ [c]).reverse.dropWhile isBlank = (front ++ [c]).reverse := by
    simp [other]
  unfold trimEnd
  rw [← List.singleton_append, ← List.append_assoc, List.reverse_append, List.dropWhile_append]
  split
  · next none =>
    have none : s.reverse.dropWhile isBlank = [] := List.isEmpty_iff.mp none
    rw [stop, none]
    simp
  · rw [List.reverse_append, List.reverse_reverse]
    simp

/-- Trimming the end first changes nothing. -/
theorem trim_trimEnd (s : List Char) : trim (trimEnd s) = trim s := by
  obtain ⟨front, parts, blank⟩ := trimStart_parts s
  cases rest : trimStart s with
  | nil =>
    rw [rest, List.append_nil] at parts
    have none : trimEnd s = [] := by
      unfold trimEnd
      rw [List.dropWhile_eq_nil_iff.mpr (by simpa [parts] using blank)]
      rfl
    have blank' : trim s = [] := by rw [trim, rest]; rfl
    rw [none, blank', trim_nil]
  | cons c rest' =>
    have other : isBlank c = false := notBlank_of_head_trimStart (s := s) (by rw [rest]; rfl)
    have cut : trimEnd s = front ++ trimEnd (c :: rest') := by
      rw [parts, rest, trimEnd_append other, ← List.nil_append (c :: rest'), trimEnd_append other]
      rfl
    have again : trimEnd (trimEnd (c :: rest')) = trimEnd (c :: rest') :=
      trimEnd_of_getLast fun _ => notBlank_of_getLast_trimEnd
    have starts : trimStart (trimEnd (c :: rest')) = trimEnd (c :: rest') := by
      rw [← List.nil_append (c :: rest'), trimEnd_append other]
      exact trimStart_of_head (by simpa using other)
    rw [cut, trim, trimStart_blank_append blank, starts, again, trim, rest]

end Text

/-! ## Lines that report a setting -/

namespace Frame

/-- **A line that reports a setting**: the sign, the digits of a number, a gap of blanks, an equals
sign and the rest. -/
structure Reports (line id gap rest : List Char) : Prop where
  parts : line = '$' :: (id ++ gap ++ '=' :: rest)
  number : id ≠ []
  digits : ∀ c ∈ id, isDigit c = true
  blank : ∀ c ∈ gap, isBlank c = true

theorem not_isDigit_equals : isDigit '=' = false := by decide

theorem not_isBlank_equals : isBlank '=' = false := by decide

/-- A gap of blanks and an equals sign end a number. -/
theorem isDigit_head {gap : List Char} (blank : ∀ c ∈ gap, isBlank c = true) (rest : List Char) :
    ∀ c ∈ (gap ++ '=' :: rest).head?, ¬ isDigit c = true := by
  intro c first
  cases gap with
  | nil =>
    obtain rfl : '=' = c := by simpa using first
    simp [not_isDigit_equals]
  | cons d gap =>
    obtain rfl : d = c := by simpa using first
    simp [isDigit_of_isBlank (blank d List.mem_cons_self)]

/-- What stands up to the first character of another kind, and the rest. -/
theorem takeWhile_dropWhile {p : Char → Bool} {front back : List Char}
    (all : ∀ c ∈ front, p c = true) (stop : ∀ c ∈ back.head?, ¬ p c = true) :
    (front ++ back).takeWhile p = front ∧ (front ++ back).dropWhile p = back := by
  rw [List.takeWhile_append_of_pos all, List.dropWhile_append_of_pos all]
  cases back with
  | nil => simp
  | cons c back =>
    have other := stop c rfl
    simp [other]

/-- How the parts are found again. -/
theorem Reports.found {line id gap rest : List Char} (reports : Reports line id gap rest) :
    line.tail.takeWhile isDigit = id ∧ (line.tail.dropWhile isDigit).takeWhile isBlank = gap ∧
      (line.tail.dropWhile isDigit).dropWhile isBlank = '=' :: rest := by
  obtain ⟨number, after⟩ := takeWhile_dropWhile reports.digits (isDigit_head reports.blank rest)
  rw [reports.parts, List.append_assoc, List.tail_cons, number, after]
  exact ⟨rfl, takeWhile_dropWhile reports.blank (by simp [not_isBlank_equals])⟩

/-- **A line reports a setting in one way only.** -/
theorem Reports.unique {line id gap rest id' gap' rest' : List Char}
    (reports : Reports line id gap rest) (reports' : Reports line id' gap' rest') :
    id = id' ∧ gap = gap' ∧ rest = rest' := by
  obtain ⟨number, blanks, after⟩ := reports.found
  obtain ⟨number', blanks', after'⟩ := reports'.found
  exact ⟨number.symm.trans number', blanks.symm.trans blanks',
    (List.cons.inj (after.symm.trans after')).2⟩

/-- Such a line is read as the report that it is. -/
theorem setting?_of_reports {line id gap rest : List Char} (reports : Reports line id gap rest)
    (oneLine : '\n' ∉ line) : setting? line = some (id, trim rest) := by
  obtain ⟨number, -, after⟩ := reports.found
  have clean : '\n' ∉ trimStart rest := fun inside => by
    refine oneLine ?_
    rw [reports.parts]
    have := List.dropWhile_sublist isBlank |>.subset inside
    simp [this]
  obtain ⟨rfl, some_, -, -⟩ := reports
  rw [List.tail_cons] at number after
  simp only [setting?, number, after]
  rw [if_pos ⟨some_, clean⟩]

/-- **Which lines report a setting.** -/
theorem classify_eq_setting_iff {line : List Char} (oneLine : '\n' ∉ line) (id value : String) :
    classify line = .setting id value ↔
      ∃ gap rest, Reports line id.toList gap rest ∧ value.toList = trim rest := by
  constructor
  · intro setting
    unfold classify at setting
    split at setting
    · exact absurd setting (by simp)
    · split at setting
      · next number value' found =>
        obtain ⟨rfl, rfl⟩ := Frame.setting.inj setting
        obtain ⟨gap, rest, parts, blank, own, some_, digits⟩ := FrameSplitter.setting?_parts found
        rw [String.toList_ofList, String.toList_ofList]
        exact ⟨gap, rest, ⟨parts, some_, digits, blank⟩, own⟩
      · exact absurd setting (by simp)
  · rintro ⟨gap, rest, reports, own⟩
    have found := setting?_of_reports reports oneLine
    have notStatus : line.head? ≠ some '<' := by simp [reports.parts]
    simp [classify, notStatus, found, ← own]

end Frame

/-! ## Text that ends with a line -/

namespace FrameSplitter

/-- Nothing is left of a text that ends with a line feed. -/
theorem ofText_concat (text : List Char) : (ofText (text ++ ['\n'])).1 = empty := by
  rw [ofText, List.splitOn_append_cons_self, List.splitOn_nil, List.getLast?_concat]
  rfl

/-- The frame of a single line. -/
theorem ofText_line {line : List Char} (oneLine : '\n' ∉ line) (some_ : trim line ≠ []) :
    (ofText (line ++ ['\n'])).2 = [Frame.classify (trim line)] := by
  rw [ofText, List.splitOn_append_cons_self_of_not_mem oneLine, List.splitOn_nil]
  simp [some_]

end FrameSplitter

/-- Bytes that end with a line feed are read as a text that does. -/
theorem Text.Utf8.flatMap_decodeLossy_concat {cs : List (List UInt8)} {bs : List UInt8}
    (ends : cs.flatten = bs ++ [10]) : ∃ text, cs.flatMap decodeLossy = text ++ ['\n'] := by
  induction cs using List.reverseRecOn generalizing bs with
  | nil => exact absurd ends (by simp)
  | append_singleton cs c ih =>
    rw [List.flatten_append, List.flatten_singleton] at ends
    rw [List.flatMap_append, List.flatMap_singleton]
    rcases List.eq_nil_or_concat' c with rfl | ⟨front, b, rfl⟩
    · rw [List.append_nil] at ends
      obtain ⟨text, read⟩ := ih ends
      exact ⟨text, by rw [read, decodeLossy_nil, List.append_nil]⟩
    · rw [← List.append_assoc] at ends
      obtain ⟨-, rfl⟩ := List.append_inj' ends rfl |>.imp_right List.singleton_inj.mp
      refine ⟨cs.flatMap decodeLossy ++ decodeLossy front, ?_⟩
      rw [decodeLossy, decodeFrom_append_lineFeed (by simp [Good]), List.append_assoc]
      rfl

/-! ## The line that sets a setting -/

/-- The text that sets a setting. -/
def settingLine (id : UInt16) (value : String) : List Char :=
  '$' :: ((toString id).toList ++ '=' :: value.toList)

theorem toList_settingLine (id : UInt16) (value : String) :
    s!"${id}={value}".toList = settingLine id value := by
  simp only [String.toList_append, List.append_assoc]
  show "$".toList ++ ((toString id).toList ++ ("=".toList ++ value.toList)) = _
  simp [settingLine]

/-- The line that sets a setting. -/
def Payload.ofSetting (id : UInt16) (value : String) : Payload := .ofLine s!"${id}={value}"

variable {id : UInt16} {value : String}

theorem lineFeed_not_mem_settingLine (oneLine : '\n' ∉ value.toList) :
    '\n' ∉ settingLine id value := by
  have number : '\n' ∉ (toString id).toList := fun inside =>
    absurd (isDigit_toString inside) (by decide)
  simp [settingLine, number, oneLine]

/-- **The line goes over the wire** with one line feed, at its end. -/
theorem bytes_settingLine (oneLine : '\n' ∉ value.toList) :
    (Payload.ofSetting id value).bytes
      = (String.ofList (settingLine id value)).toUTF8.toList ++ [10] := by
  have open_ : s!"${id}={value}".toList.getLast? ≠ some '\n' := by
    rw [toList_settingLine]
    exact fun last => lineFeed_not_mem_settingLine oneLine (List.mem_of_getLast? last)
  have lineFeed : "\n".toList.flatMap String.utf8EncodeChar = [10] := by decide
  generalize line : s!"${id}={value}" = text at *
  rw [← toList_settingLine, line, Payload.ofSetting, line, Payload.ofLine, if_neg open_,
    Payload.bytes, toList_toUTF8, toList_toUTF8, String.toList_append, List.flatMap_append, lineFeed, String.toList_ofList]

/-- Trimming the line trims the value at its end. -/
theorem trim_settingLine (id : UInt16) (value : String) :
    trim (settingLine id value) = '$' :: ((toString id).toList ++ '=' :: trimEnd value.toList) := by
  have starts : trimStart (settingLine id value) = settingLine id value :=
    trimStart_of_head (by simpa [settingLine] using (by decide : isBlank '$' = false))
  rw [trim, starts, settingLine, ← List.cons_append, trimEnd_append Frame.not_isBlank_equals]
  rfl

/-- **What a controller reports by echoing the line**: the number and the trimmed value. -/
theorem classify_settingLine (oneLine : '\n' ∉ value.toList) :
    Frame.classify (trim (settingLine id value))
      = .setting (toString id) (String.ofList (trim value.toList)) := by
  have clean : '\n' ∉ trim (settingLine id value) := by
    rw [trim_settingLine]
    have all : '\n' ∉ settingLine id value := lineFeed_not_mem_settingLine oneLine
    have fewer : trimEnd value.toList ⊆ value.toList := (trimEnd_initial _).subset
    simp only [settingLine, List.mem_cons, List.mem_append, not_or] at all ⊢
    exact ⟨all.1, all.2.1, all.2.2.1, fun inside => all.2.2.2 (fewer inside)⟩
  refine (Frame.classify_eq_setting_iff clean _ _).mpr ⟨[], trimEnd value.toList, ?_, ?_⟩
  · refine ⟨by rw [trim_settingLine, List.append_nil], ?_, fun c => isDigit_toString, by simp⟩
    rw [toList_toString]
    exact Nat.toDigits_ne_nil
  · rw [String.toList_ofList, trim_trimEnd]

/-- **The frames of the echo**, in whatever chunks it comes. -/
theorem feedAll_echo (oneLine : '\n' ∉ value.toList) {cs : List (List UInt8)}
    (echo : cs.flatten = (Payload.ofSetting id value).bytes) :
    (FrameSplitter.empty.feedAll cs).2
        = [.setting (toString id) (String.ofList (trim value.toList))] ↔ Intact cs := by
  have whole := flatMap_decodeLossy cs
  rw [bytes_settingLine oneLine] at echo
  have text : decodeLossy cs.flatten = settingLine id value ++ ['\n'] := by
    rw [echo, decodeLossy, decodeFrom_append_lineFeed (by simp [Good])]
    show decodeLossy _ ++ _ = _
    rw [decodeLossy_encode, String.toList_ofList]
    rfl
  have frames : (FrameSplitter.ofText (settingLine id value ++ ['\n'])).2
      = [.setting (toString id) (String.ofList (trim value.toList))] := by
    have some_ : trim (settingLine id value) ≠ [] := by simp [trim_settingLine]
    rw [FrameSplitter.ofText_line (lineFeed_not_mem_settingLine oneLine) some_,
      classify_settingLine oneLine]
  rw [FrameSplitter.feedAll_empty]
  constructor
  · intro same
    by_contra damaged
    rw [if_neg damaged, text] at whole
    -- the frame holds less damage than was read, and nothing is left over
    obtain ⟨read, ends⟩ := flatMap_decodeLossy_concat echo
    have kept := FrameSplitter.damage_ofText (cs.flatMap decodeLossy)
    have kept' := FrameSplitter.damage_ofText (settingLine id value ++ ['\n'])
    rw [FrameSplitter.damage, frames, FrameSplitter.ofText_concat] at kept'
    rw [FrameSplitter.damage, same, ends, FrameSplitter.ofText_concat, ← ends] at kept
    omega
  · intro intact
    rw [if_pos intact, text] at whole
    rw [whole, frames]

end Cnc
