import Mathlib.Data.List.Sort
import Cnc.Gcode.Word
import Cnc.Proofs.SettingLines

/-!
# Which words a line has

A word is an ASCII letter, blanks and a number, and a number is as long as it
can be. Where a word begins, the scan finds one, and it finds no other: the
words of a line are the only list with these properties
(`Gcode.words_eq_iff`).

No letter is a blank or belongs to a number, so no word begins inside another,
and the places where words begin decide all: the word at a place is unique
(`Gcode.Word.Stands.unique`), and a word that is passed over is missing at the
place where it begins.

What a number is says `Gcode.Number`, without the reader that finds one; the
reader takes the longest (`Gcode.longest_of_takeNumber?`).
-/

namespace Cnc.Gcode

open Text

variable {s v rest : List Char}

/-! ## Numbers -/

/-- **A number without a sign**: digits with an optional point and more digits, or a point and
digits. -/
inductive Unsigned : List Char → Prop
  | whole {ds : List Char} (some_ : ds ≠ []) (digits : ∀ c ∈ ds, isDigit c = true) : Unsigned ds
  | pointed {ds es : List Char} (some_ : ds ≠ []) (digits : ∀ c ∈ ds, isDigit c = true)
      (more : ∀ c ∈ es, isDigit c = true) : Unsigned (ds ++ '.' :: es)
  | fraction {es : List Char} (some_ : es ≠ []) (digits : ∀ c ∈ es, isDigit c = true) :
      Unsigned ('.' :: es)

/-- **A number**: one without a sign, or a sign and such a number. -/
inductive Number : List Char → Prop
  | plain {s : List Char} (unsigned : Unsigned s) : Number s
  | signed {sign : Char} {s : List Char} (either : sign = '+' ∨ sign = '-')
      (unsigned : Unsigned s) : Number (sign :: s)

/-- The characters that numbers consist of. -/
def isNumeric (c : Char) : Bool := isDigit c || c = '.' || c = '+' || c = '-'

theorem Unsigned.numeric (unsigned : Unsigned v) : ∀ c ∈ v, isDigit c = true ∨ c = '.' := by
  cases unsigned with
  | whole _ digits => exact fun c own => .inl (digits c own)
  | pointed _ digits more =>
    intro c own
    rcases List.mem_append.mp own with front | back
    · exact .inl (digits c front)
    · exact (List.mem_cons.mp back).symm.imp (more c) id
  | fraction _ digits =>
    intro c own
    exact (List.mem_cons.mp own).symm.imp (digits c) id

theorem Unsigned.ne_nil (unsigned : Unsigned v) : v ≠ [] := by
  cases unsigned with
  | whole some_ => exact some_
  | pointed | fraction => simp

theorem Number.numeric (number : Number v) : ∀ c ∈ v, isNumeric c = true := by
  intro c own
  cases number with
  | plain unsigned =>
    rcases unsigned.numeric c own with digit | rfl
    · simp [isNumeric, digit]
    · rfl
  | signed either unsigned =>
    rcases List.mem_cons.mp own with rfl | own
    · rcases either with rfl | rfl <;> rfl
    · rcases unsigned.numeric c own with digit | rfl
      · simp [isNumeric, digit]
      · rfl

theorem Number.ne_nil (number : Number v) : v ≠ [] := by
  cases number with
  | plain unsigned => exact unsigned.ne_nil
  | signed => simp

/-- No character of a number is a blank. -/
theorem isBlank_of_isNumeric {c : Char} (numeric : isNumeric c = true) : isBlank c = false := by
  rw [← Bool.not_eq_true]
  intro blank
  simp only [isNumeric, isDigit_of_isBlank blank, Bool.false_or, Bool.or_eq_true,
    decide_eq_true_eq] at numeric
  rcases numeric with (rfl | rfl) | rfl <;> exact absurd blank (by decide)

/-- **No letter belongs to a gap or a number.** -/
theorem isAlpha_of_inside {c : Char} (inside : isBlank c = true ∨ isNumeric c = true) :
    c.isAlpha = false := by
  rw [← Bool.not_eq_true]
  intro letter
  have range : 0x41 ≤ c.toNat ∧ c.toNat ≤ 0x7A := by
    rcases Bool.or_eq_true_iff.mp letter with upper | lower
    · obtain ⟨low, high⟩ := of_decide_eq_true upper
      exact ⟨UInt32.le_iff_toNat_le.mp low,
        Nat.le_trans (UInt32.le_iff_toNat_le.mp high) (by decide)⟩
    · obtain ⟨low, high⟩ := Bool.and_eq_true_iff.mp lower
      exact ⟨Nat.le_trans (by decide) (UInt32.le_iff_toNat_le.mp (of_decide_eq_true low)),
        UInt32.le_iff_toNat_le.mp (of_decide_eq_true high)⟩
  rcases inside with blank | numeric
  · simp only [isBlank, Bool.or_eq_true, Bool.and_eq_true, decide_eq_true_eq, beq_iff_eq] at blank
    omega
  · simp only [isNumeric, Bool.or_eq_true, decide_eq_true_eq] at numeric
    rcases numeric with ((digit | rfl) | rfl) | rfl
    · obtain ⟨first, block, own⟩ := List.any_eq_true.mp digit
      have apart : ∀ first ∈ digitBlocks, first + 10 ≤ 0x41 ∨ 0x7A < first := by decide
      have := apart first block
      simp only [Bool.and_eq_true, decide_eq_true_eq] at own
      omega
    all_goals exact absurd letter (by decide)

/-! ## The longest number -/

/-- **The longest number that a text begins with.** -/
structure Longest (s v : List Char) : Prop where
  number : Number v
  begins : v <+: s
  longest : ∀ u, u <+: s → Number u → u.length ≤ v.length

theorem Longest.unique {u : List Char} (first : Longest s u) (second : Longest s v) : u = v :=
  (List.prefix_of_prefix_length_le first.begins second.begins
    (second.longest u first.begins first.number)).eq_of_length
    (Nat.le_antisymm (second.longest u first.begins first.number)
      (first.longest v second.begins second.number))

theorem unsigned_of_takeUnsigned? (taken : takeUnsigned? s = some (v, rest)) : Unsigned v := by
  have digits (r : List Char) : ∀ c ∈ r.takeWhile isDigit, isDigit c = true :=
    fun _ => List.mem_takeWhile_imp
  unfold takeUnsigned? at taken
  split at taken
  · next r _ =>
    dsimp only at taken
    split at taken
    · exact absurd taken (by simp)
    · next none =>
      obtain ⟨rfl, -⟩ := Prod.mk.inj (Option.some.inj taken)
      by_cases empty : s.takeWhile isDigit = []
      · rw [empty]
        exact .fraction (fun last => none ⟨empty, last⟩) (digits r)
      · exact .pointed empty (digits s) (digits r)
  · dsimp only at taken
    split at taken
    · exact absurd taken (by simp)
    · next some_ =>
      obtain ⟨rfl, -⟩ := Prod.mk.inj (Option.some.inj taken)
      exact .whole some_ (digits s)

/-- A text that begins with a number without a sign has one taken off that begins with it. -/
theorem takeUnsigned?_of_unsigned (unsigned : Unsigned v) (rest : List Char) :
    ∃ more r, takeUnsigned? (v ++ rest) = some (v ++ more, r) := by
  have point : isDigit '.' = false := by decide
  unfold takeUnsigned?
  cases unsigned with
  | whole some_ digits =>
    rw [List.takeWhile_append_of_pos digits, List.dropWhile_append_of_pos digits]
    split
    · dsimp only
      rw [if_neg (by simp [some_]), List.append_assoc]
      exact ⟨_, _, rfl⟩
    · dsimp only
      rw [if_neg (by simp [some_])]
      exact ⟨_, _, rfl⟩
  | @pointed ds es some_ digits more =>
    rw [List.append_assoc, List.takeWhile_append_of_pos digits,
      List.dropWhile_append_of_pos digits]
    simp only [List.cons_append, List.takeWhile_cons, List.dropWhile_cons, point,
      Bool.false_eq_true, if_false, List.append_nil]
    rw [if_neg (by simp [some_]), List.takeWhile_append_of_pos more, ← List.cons_append,
      ← List.append_assoc]
    exact ⟨_, _, rfl⟩
  | @fraction es some_ digits =>
    simp only [List.cons_append, List.takeWhile_cons, List.dropWhile_cons, point,
      Bool.false_eq_true, if_false, List.nil_append]
    rw [List.takeWhile_append_of_pos digits, if_neg (by simp [some_])]
    exact ⟨_, _, rfl⟩

theorem number_of_takeNumber? (taken : takeNumber? s = some (v, rest)) : Number v := by
  obtain ⟨⟨u, r⟩, taken', own⟩ := Option.map_eq_some_iff.mp taken
  obtain ⟨rfl, -⟩ := Prod.mk.inj own
  have unsigned : Unsigned u := unsigned_of_takeUnsigned? taken'
  unfold cutSign
  split
  · exact .signed (.inl rfl) unsigned
  · exact .signed (.inr rfl) unsigned
  · exact .plain unsigned

theorem takeNumber?_of_number (number : Number v) (rest : List Char) :
    ∃ more r, takeNumber? (v ++ rest) = some (v ++ more, r) := by
  unfold takeNumber?
  cases number with
  | plain unsigned =>
    obtain ⟨more, r, taken⟩ := takeUnsigned?_of_unsigned unsigned rest
    have plain : cutSign (v ++ rest) = ([], v ++ rest) := by
      obtain ⟨c, u, rfl⟩ := List.exists_cons_of_ne_nil unsigned.ne_nil
      have sign := unsigned.numeric c List.mem_cons_self
      unfold cutSign
      split
      · next same =>
        rw [(List.cons.inj same).1] at sign
        exact absurd sign (by decide)
      · next same =>
        rw [(List.cons.inj same).1] at sign
        exact absurd sign (by decide)
      · rfl
    rw [plain, taken]
    exact ⟨more, r, rfl⟩
  | @signed sign u either unsigned =>
    obtain ⟨more, r, taken⟩ := takeUnsigned?_of_unsigned unsigned rest
    have cut : cutSign (sign :: u ++ rest) = ([sign], u ++ rest) := by
      rcases either with rfl | rfl <;> rfl
    rw [cut, taken]
    exact ⟨more, r, rfl⟩

/-- **The number that is taken off a text** is the longest that it begins with. -/
theorem longest_of_takeNumber? (taken : takeNumber? s = some (v, rest)) : Longest s v where
  number := number_of_takeNumber? taken
  begins := ⟨rest, (takeNumber?_eq_some taken).1.symm⟩
  longest := by
    rintro u ⟨back, rfl⟩ number
    obtain ⟨more, r, taken'⟩ := takeNumber?_of_number number back
    obtain ⟨rfl, -⟩ := Prod.mk.inj (Option.some.inj (taken'.symm.trans taken))
    simp

/-! ## Byte offsets -/

@[simp] theorem byteLength_append (s t : List Char) :
    byteLength (s ++ t) = byteLength s + byteLength t := by
  induction s with
  | nil => simp [byteLength]
  | cons c s ih => simp [byteLength, ih, Nat.add_assoc]

theorem byteLength_pos {c : Char} : 0 < byteLength (c :: s) :=
  Nat.lt_of_lt_of_le c.utf8Size_pos (Nat.le_add_right _ _)

/-- **A byte offset is one place**: a text is cut in one way only. -/
theorem eq_of_byteLength {front front' back back' : List Char}
    (parts : front ++ back = front' ++ back') (same : byteLength front = byteLength front') :
    front = front' ∧ back = back' := by
  induction front generalizing front' with
  | nil =>
    cases front' with
    | nil => exact ⟨rfl, parts⟩
    | cons c front' => exact absurd same (Nat.ne_of_lt byteLength_pos)
  | cons c front ih =>
    cases front' with
    | nil => exact absurd same.symm (Nat.ne_of_lt byteLength_pos)
    | cons c' front' =>
      obtain ⟨rfl, tail⟩ := List.cons.inj parts
      obtain ⟨rfl, rfl⟩ := ih tail (Nat.add_left_cancel same)
      exact ⟨rfl, rfl⟩

/-! ## Words -/

/-- **How a text begins with a word**: an ASCII letter, blanks, a number, and what follows. -/
structure Spells (s : List Char) (letter : Char) (blanks value after : List Char) : Prop where
  parts : s = letter :: (blanks ++ (value ++ after))
  ascii : letter.isAlpha = true
  blank : ∀ c ∈ blanks, isBlank c = true
  number : Number value

/-- Whether a word begins where a text begins. -/
def BeginsWord (s : List Char) : Prop :=
  ∃ letter blanks value after, Spells s letter blanks value after

/-- The blanks of a word are those that follow its letter. -/
theorem Spells.blanks {letter : Char} {blanks value after : List Char}
    (spells : Spells (letter :: rest) letter blanks value after) :
    rest.takeWhile isBlank = blanks ∧ rest.dropWhile isBlank = value ++ after := by
  obtain ⟨parts, -, blank, number⟩ := spells
  rw [(List.cons.inj parts).2]
  refine Frame.takeWhile_dropWhile blank fun c first => ?_
  obtain ⟨d, value, rfl⟩ := List.exists_cons_of_ne_nil number.ne_nil
  obtain rfl : d = c := by simpa using first
  simp [isBlank_of_isNumeric (number.numeric d List.mem_cons_self)]

/-- **A word begins at a letter** if a number can be taken off behind the blanks. -/
theorem beginsWord_cons {c : Char} :
    BeginsWord (c :: rest) ↔
      c.isAlpha = true ∧ (takeNumber? (rest.dropWhile isBlank)).isSome = true := by
  constructor
  · rintro ⟨letter, blanks, value, after, spells⟩
    obtain rfl : c = letter := (List.cons.inj spells.parts).1
    obtain ⟨more, r, taken⟩ := takeNumber?_of_number spells.number after
    rw [spells.blanks.2, taken]
    exact ⟨spells.ascii, rfl⟩
  · rintro ⟨letter, taken⟩
    obtain ⟨⟨value, after⟩, taken⟩ := Option.isSome_iff_exists.mp taken
    refine ⟨c, rest.takeWhile isBlank, value, after, ?_, letter,
      fun _ => List.mem_takeWhile_imp, number_of_takeNumber? taken⟩
    rw [← (takeNumber?_eq_some taken).1, List.takeWhile_append_dropWhile]

/-- No word begins inside a word. -/
theorem not_beginsWord_of_inside {c : Char} {blanks : List Char}
    (blank : ∀ c ∈ blanks, isBlank c = true) (number : Number v) (inside : c ∈ blanks ++ v) :
    ¬ BeginsWord (c :: rest) := by
  intro begins
  have other : c.isAlpha = false := isAlpha_of_inside
    ((List.mem_append.mp inside).imp (blank c) (number.numeric c))
  rw [(beginsWord_cons.mp begins).1] at other
  exact absurd other (by simp)

/-- **Where a word stands** in a text that begins at a byte offset: at a place between two
characters the text begins with the word, whose number is the longest there, and the span of the
word is that of its letter, blanks and number. -/
structure Word.StandsAt (offset : Nat) (s : List Char) (w : Word) (before : List Char)
    (letter : Char) (blanks after : List Char) : Prop where
  place : ∃ back, s = before ++ back ∧ Spells back letter blanks w.value after
  longest : Longest (w.value ++ after) w.value
  upper : w.letter = letter.toUpper
  start : w.start = offset + byteLength before
  stop : w.stop = w.start + byteLength (letter :: (blanks ++ w.value))

/-- A word stands somewhere in a text. -/
def Word.Stands (offset : Nat) (s : List Char) (w : Word) : Prop :=
  ∃ before letter blanks after, w.StandsAt offset s before letter blanks after

namespace Word.Stands

variable {offset : Nat} {w w' : Word}

theorem start_lt_stop (stands : w.Stands offset s) : w.start < w.stop := by
  obtain ⟨before, letter, blanks, after, stands⟩ := stands
  rw [stands.stop]
  exact Nat.lt_add_of_pos_right byteLength_pos

theorem offset_le_start (stands : w.Stands offset s) : offset ≤ w.start := by
  obtain ⟨before, letter, blanks, after, stands⟩ := stands
  rw [stands.start]
  exact Nat.le_add_right _ _

/-- A word begins where it stands. -/
theorem begins (stands : w.Stands offset s) :
    ∃ before back, s = before ++ back ∧ BeginsWord back ∧ w.start = offset + byteLength before := by
  obtain ⟨before, letter, blanks, after, stands⟩ := stands
  obtain ⟨back, parts, spells⟩ := stands.place
  exact ⟨before, back, parts, ⟨letter, blanks, w.value, after, spells⟩, stands.start⟩

/-- A word that stands in the rest of a text stands in the text. -/
theorem append {front : List Char} (stands : w.Stands (offset + byteLength front) s) :
    w.Stands offset (front ++ s) := by
  obtain ⟨before, letter, blanks, after, stands⟩ := stands
  obtain ⟨back, rfl, spells⟩ := stands.place
  refine ⟨front ++ before, letter, blanks, after, ⟨back, by simp, spells⟩, stands.longest,
    stands.upper, ?_, stands.stop⟩
  rw [stands.start, byteLength_append, Nat.add_assoc]

/-- **One word at most stands at a place.** -/
theorem unique (stands : w.Stands offset s) (stands' : w'.Stands offset s)
    (same : w.start = w'.start) : w = w' := by
  obtain ⟨before, letter, blanks, after, stands⟩ := stands
  obtain ⟨before', letter', blanks', after', stands'⟩ := stands'
  obtain ⟨back, rfl, spells⟩ := stands.place
  obtain ⟨back', parts, spells'⟩ := stands'.place
  have place : byteLength before = byteLength before' :=
    Nat.add_left_cancel (stands.start.symm.trans (same.trans stands'.start))
  obtain ⟨rfl, rfl⟩ := eq_of_byteLength parts place
  obtain ⟨rfl, rest⟩ := List.cons.inj (spells.parts.symm.trans spells'.parts)
  obtain rfl := spells.parts
  obtain rfl : blanks = blanks' := spells.blanks.1.symm.trans spells'.blanks.1
  have value : w.value = w'.value := by
    have longest := stands.longest
    rw [← spells.blanks.2, spells'.blanks.2] at longest
    exact longest.unique stands'.longest
  have stop : w.stop = w'.stop := by rw [stands.stop, stands'.stop, same, value]
  have upper : w.letter = w'.letter := stands.upper.trans stands'.upper.symm
  cases w
  cases w'
  cases value
  cases stop
  cases upper
  cases same
  rfl

end Word.Stands

/-! ## The scan -/

/-- **The words of a text** that begins at a byte offset: each of them stands in it, they follow
each other without overlap, and wherever a word begins one of them does. -/
structure Scan (offset : Nat) (s : List Char) (ws : List Word) : Prop where
  stands : ∀ w ∈ ws, w.Stands offset s
  apart : ws.Pairwise fun v w => v.stop ≤ w.start
  complete : ∀ before back, s = before ++ back → BeginsWord back →
    ∃ w ∈ ws, w.start = offset + byteLength before

namespace Scan

variable {offset : Nat} {ws ws' : List Word}

/-- The words stand at ascending places. -/
theorem ascending (scan : Scan offset s ws) : ws.Pairwise fun v w => v.start < w.start :=
  scan.apart.imp_of_mem fun own _ apart =>
    Nat.lt_of_lt_of_le (scan.stands _ own).start_lt_stop apart

/-- **A text has its words in one way only.** -/
theorem unique (scan : Scan offset s ws) (scan' : Scan offset s ws') : ws = ws' := by
  have among {ws ws' : List Word} (scan : Scan offset s ws) (scan' : Scan offset s ws')
      {w : Word} (own : w ∈ ws) : w ∈ ws' := by
    obtain ⟨before, back, parts, begins, start⟩ := (scan.stands w own).begins
    obtain ⟨w', own', start'⟩ := scan'.complete before back parts begins
    rwa [(scan.stands w own).unique (scan'.stands w' own') (start.trans start'.symm)]
  have irrefl : Std.Irrefl fun v w : Word => v.start < w.start := ⟨fun w => Nat.lt_irrefl w.start⟩
  have antisymm : Std.Antisymm fun v w : Word => v.start < w.start :=
    ⟨fun v w before after => absurd (Nat.lt_trans before after) (Nat.lt_irrefl v.start)⟩
  exact scan.ascending.eq_of_mem_iff scan'.ascending
    fun w => ⟨among scan scan', among scan' scan⟩

/-- A character at which no word begins is passed over. -/
theorem skip {c : Char} (none : ¬ BeginsWord (c :: rest))
    (scan : Scan (offset + c.utf8Size) rest ws) : Scan offset (c :: rest) ws where
  stands w own := (show w.Stands (offset + byteLength [c]) rest from scan.stands w own).append
  apart := scan.apart
  complete := by
    intro before back parts begins
    cases before with
    | nil =>
      rw [parts] at none
      exact absurd begins none
    | cons d before =>
      obtain ⟨rfl, tail⟩ := List.cons.inj parts
      obtain ⟨w, own, start⟩ := scan.complete before back tail begins
      exact ⟨w, own, by rw [start, byteLength, Nat.add_assoc]⟩

/-- **The word that a text begins with is taken**, and the scan goes on behind it. -/
theorem take {letter : Char} {blanks value after : List Char}
    (spells : Spells s letter blanks value after) (longest : Longest (value ++ after) value)
    (scan : Scan (offset + byteLength (letter :: (blanks ++ value))) after ws) :
    Scan offset s (⟨letter.toUpper, value, offset,
      offset + byteLength (letter :: (blanks ++ value))⟩ :: ws) := by
  have parts : s = (letter :: (blanks ++ value)) ++ after := by simp [spells.parts]
  constructor
  case stands =>
    rintro w own
    rcases List.mem_cons.mp own with rfl | later
    · exact ⟨[], letter, blanks, after, ⟨s, rfl, spells⟩, longest, rfl, rfl, rfl⟩
    · rw [parts]
      exact (scan.stands w later).append
  case apart =>
    exact .cons (fun w later => (scan.stands w later).offset_le_start) scan.apart
  case complete =>
    intro before back parts' begins
    cases before with
    | nil => exact ⟨_, List.mem_cons_self, rfl⟩
    | cons d before =>
      rw [parts] at parts'
      obtain ⟨rfl, tail⟩ := List.cons.inj parts'
      -- a word begins behind the one that is taken, because none begins inside
      obtain ⟨front, rfl, rfl⟩ : ∃ front, before = blanks ++ value ++ front ∧
          after = front ++ back := by
        rcases List.append_eq_append_iff.mp tail with ⟨front, own, rest⟩ | ⟨inside, own, rest⟩
        · exact ⟨front, own, rest⟩
        · cases inside with
          | nil => exact ⟨[], by simp [own], by simpa using rest.symm⟩
          | cons c inside =>
            rw [rest] at begins
            exact absurd begins
              (not_beginsWord_of_inside spells.blank spells.number (by simp [own]))
      obtain ⟨w, later, start⟩ := scan.complete front back rfl begins
      refine ⟨w, List.mem_cons_of_mem _ later, ?_⟩
      rw [start, Nat.add_assoc, ← byteLength_append]
      rfl

end Scan

theorem scan_wordsFrom (offset : Nat) (s : List Char) : Scan offset s (wordsFrom offset s) := by
  fun_induction wordsFrom offset s with
  | case1 offset =>
    refine ⟨by simp, .nil, fun before back parts begins => ?_⟩
    obtain ⟨-, rfl⟩ := List.append_eq_nil_iff.mp parts.symm
    obtain ⟨letter, blanks, value, after, spells⟩ := begins
    exact absurd spells.parts (by simp)
  | case2 offset c rest letter value after taken stop ih =>
    have spells : Spells (c :: rest) c (rest.takeWhile isBlank) value after := by
      refine ⟨?_, letter, fun _ => List.mem_takeWhile_imp, number_of_takeNumber? taken⟩
      rw [← (takeNumber?_eq_some taken).1, List.takeWhile_append_dropWhile]
    have longest := longest_of_takeNumber? taken
    rw [spells.blanks.2] at longest
    exact Scan.take spells longest ih
  | case3 offset c rest letter none ih =>
    refine Scan.skip (fun begins => ?_) ih
    have taken := (beginsWord_cons.mp begins).2
    rw [none] at taken
    exact absurd taken (by simp)
  | case4 offset c rest other ih =>
    exact Scan.skip (fun begins => other (beginsWord_cons.mp begins).1) ih

/-- **The words of a line** are the letters with their numbers, each where it stands, the longest
number at each, in order and without overlap; wherever in the line a word begins, one of them does,
so none begins outside their spans. There is one such list only. -/
theorem words_eq_iff {line : List Char} {ws : List Word} : words line = ws ↔ Scan 0 line ws := by
  constructor
  · rintro rfl
    exact scan_wordsFrom 0 line
  · exact (scan_wordsFrom 0 line).unique

end Cnc.Gcode
