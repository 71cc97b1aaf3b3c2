import Mathlib
import Cnc.Controller.Command
import Cnc.Proofs.PositionalNotation
import Cnc.Proofs.Scanning

/-!
# A jog is scanned as it was asked for

The line of a jog has four words: the two modes that it is given in, the axis with
the distance, and the feed. Scanned and read, they are exactly the numbers that
the jog was asked for, for all finite ones (`Gcode.words_jog`).

A number ends where a character follows that belongs to none
(`Gcode.longest_of_stop`), and all of positional notation belongs to the number
(`Gcode.number_positional`). The prefix has a letter too, but no number behind it.
-/

namespace Cnc

open Text Layout

namespace Gcode

variable {s v rest after : List Char} {offset : ℕ}

/-! ## Numbers as they are written -/

/-- **A number that is followed by what belongs to none** is the longest one. -/
theorem longest_of_stop (number : Number v) (stop : ∀ c ∈ rest.head?, isNumeric c = false) :
    Longest (v ++ rest) v where
  number := number
  begins := List.prefix_append v rest
  longest := by
    rintro u ⟨back, parts⟩ number'
    rcases List.append_eq_append_iff.mp parts with ⟨more, own, -⟩ | ⟨more, own, tail⟩
    · simp [own]
    · cases more with
      | nil => simp [own]
      | cons c more =>
        have numeric := number'.numeric c (by simp [own])
        rw [stop c (by simp [tail])] at numeric
        exact Bool.noConfusion numeric

/-- A plain decimal is a number, with a sign and without. -/
theorem number_plain {whole fraction : List Char} {negative plus : Bool}
    (plain : IsPlain s whole fraction) : Number (signText negative plus ++ s) := by
  have digits : ∀ c ∈ whole ++ fraction, isDigit c = true := fun c own =>
    isDigit_of_digitValue? (digitValue?_of_isDigit (plain.digits c own))
  have unsigned : Unsigned s := by
    rw [plain.text]
    split
    · rw [List.append_nil]
      exact .whole plain.some_ fun c own => digits c (List.mem_append_left _ own)
    · exact .pointed plain.some_ (fun c own => digits c (List.mem_append_left _ own))
        fun c own => digits c (List.mem_append_right _ own)
  cases negative
  · cases plus
    · exact .plain unsigned
    · exact .signed (.inl rfl) unsigned
  · exact .signed (.inr rfl) unsigned

/-- **Positional notation** is one number. -/
theorem number_positional {x : Float} (finite : Scalar.isFinite x = true) (plus : Bool) :
    Number (positional x plus) := by
  obtain ⟨negative, n, k, text, -⟩ := positional_of_finite finite plus
  obtain ⟨whole, fraction, plain, -⟩ := placeDigits_plain n k
  rw [text]
  exact number_plain plain

/-! ## Words without their places -/

/-- **The letters and numbers of the words of a text**, wherever it begins. -/
def HasWords (s : List Char) (ps : List (Char × List Char)) : Prop :=
  ∀ offset, (wordsFrom offset s).map (fun w => (w.letter, w.value)) = ps

namespace HasWords

variable {c letter : Char} {ps : List (Char × List Char)}

theorem of_scan (h : ∀ offset, ∃ ws, Scan offset s ws ∧
    ws.map (fun w => (w.letter, w.value)) = ps) : HasWords s ps := by
  intro offset
  obtain ⟨ws, scan, own⟩ := h offset
  rwa [scan.unique (scan_wordsFrom offset s)] at own

theorem nil : HasWords [] [] := fun offset => by simp [wordsFrom]

/-- A word is taken up to the character that ends it. -/
theorem word (ascii : letter.isAlpha = true) (number : Number v)
    (stop : ∀ c ∈ after.head?, isNumeric c = false) (further : HasWords after ps) :
    HasWords (letter :: (v ++ after)) ((letter.toUpper, v) :: ps) := by
  refine of_scan fun offset => ?_
  have spells : Spells (letter :: (v ++ after)) letter [] v after :=
    ⟨rfl, ascii, by simp, number⟩
  exact ⟨_, .take spells (longest_of_stop number stop) (scan_wordsFrom _ after),
    congrArg (_ :: ·) (further _)⟩

/-- What is no letter is passed over, -/
theorem skip (other : c.isAlpha = false) (further : HasWords rest ps) :
    HasWords (c :: rest) ps := by
  refine of_scan fun offset => ⟨_, .skip (fun begins => ?_) (scan_wordsFrom _ rest), further _⟩
  rw [(beginsWord_cons.mp begins).1] at other
  exact Bool.noConfusion other

/-- and so is a letter before an equals sign. -/
theorem assigned (further : HasWords ('=' :: rest) ps) : HasWords (c :: '=' :: rest) ps := by
  refine of_scan fun offset => ⟨_, .skip (fun begins => ?_) (scan_wordsFrom _ _), further _⟩
  have taken := (beginsWord_cons.mp begins).2
  have equals : isDigit '=' = false ∧ isBlank '=' = false := by decide
  simp [equals, takeNumber?, cutSign, takeUnsigned?] at taken

end HasWords

/-! ## The line of a jog -/

variable (delta feed : Float)

/-- The line of a jog, cut where its words begin and end. -/
theorem toList_jog (axis : Axis) : (Command.line (.jog axis delta feed)).toList =
    '$' :: 'J' :: '=' :: 'G' :: (['9', '1'] ++ ' ' :: 'G' :: (['2', '1'] ++ ' ' :: axis.letter ::
      (positional delta true ++ ' ' :: 'F' :: (positional feed false ++ [])))) := by
  have cut (d f : List Char) : "$J=G91 G21 ".toList ++ axis.letter :: d ++ " F".toList ++ f =
      '$' :: 'J' :: '=' :: 'G' :: (['9', '1'] ++ ' ' :: 'G' :: (['2', '1'] ++ ' ' ::
        axis.letter :: (d ++ ' ' :: 'F' :: (f ++ [])))) := by
    simp
  exact String.toList_ofList.trans (cut _ _)

variable {delta feed}

theorem hasWords_jog (axis : Axis) (finiteD : Scalar.isFinite delta = true)
    (finiteF : Scalar.isFinite feed = true) :
    HasWords (Command.line (.jog axis delta feed)).toList
      [('G', ['9', '1']), ('G', ['2', '1']), (axis.letter, positional delta true),
        ('F', positional feed false)] := by
  have number (c d : Char) (digits : isDigit c = true ∧ isDigit d = true) : Number [c, d] :=
    .plain (.whole (by simp) (by simp [digits]))
  have blank {s : List Char} : ∀ c ∈ (' ' :: s).head?, isNumeric c = false := by
    rintro c ⟨⟩
    decide
  have letter : axis.letter.isAlpha = true ∧ axis.letter.toUpper = axis.letter := by
    cases axis <;> decide
  have space : ' '.isAlpha = false := by decide
  rw [toList_jog]
  have feedWord : HasWords ('F' :: (positional feed false ++ [])) (('F', _) :: []) :=
    .word (by decide) (number_positional finiteF false) (by simp) .nil
  have axisWord := HasWords.word letter.1 (number_positional finiteD true) blank
    (.skip space feedWord)
  rw [letter.2] at axisWord
  have unitWord : HasWords ('G' :: (['2', '1'] ++ ' ' :: _)) (('G', ['2', '1']) :: _) :=
    .word (by decide) (number '2' '1' (by decide)) blank (.skip space axisWord)
  have modeWord : HasWords ('G' :: (['9', '1'] ++ ' ' :: _)) (('G', ['9', '1']) :: _) :=
    .word (by decide) (number '9' '1' (by decide)) blank (.skip space unitWord)
  exact .skip (by decide) (.assigned (.skip (by decide) modeWord))

/-- **A jog is scanned as it was asked for.** For finite numbers its line has four words: the modes
91 and 21, the axis with the distance, and the feed, which are read as the very numbers. -/
theorem words_jog (axis : Axis) (delta feed : Float) (finiteD : Scalar.isFinite delta = true)
    (finiteF : Scalar.isFinite feed = true) :
    (words (Command.line (.jog axis delta feed)).toList).map
        (fun w => (w.letter, (w.number? : Option Float))) =
      [('G', some 91), ('G', some 21), (axis.letter, some delta), ('F', some feed)] := by
  have read {x : Float} (finite : Scalar.isFinite x = true) (plus : Bool) :
      ((Decimal.read? (positional x plus)).map Scalar.ofDecimal).filter Scalar.isFinite =
        some x := by
    have value : (Decimal.read? (positional x plus)).map Scalar.ofDecimal = some x :=
      read?_positional finite plus
    rw [value, Option.filter_some, finite]
    rfl
  have modes : ((Decimal.read? ['9', '1']).map Scalar.ofDecimal).filter Scalar.isFinite =
        some (91 : Float) ∧
      ((Decimal.read? ['2', '1']).map Scalar.ofDecimal).filter Scalar.isFinite =
        some (21 : Float) := by
    decide +kernel
  have spelled := congrArg
    (List.map fun p =>
      (p.1, (((Decimal.read? p.2).map Scalar.ofDecimal).filter Scalar.isFinite : Option Float)))
    (hasWords_jog axis finiteD finiteF 0)
  simp only [List.map_map, List.map_cons, List.map_nil, modes, read finiteD, read finiteF]
    at spelled
  exact spelled

/-- A distance of many places, and a large feed. -/
theorem words_jog_tenth : Scalar.isFinite (-0.1 : Float) = true ∧
    Scalar.isFinite (1e22 : Float) = true ∧
    (words (Command.line (.jog .z (-0.1) 1e22)).toList).map
        (fun w => (w.letter, (w.number? : Option Float))) =
      [('G', some 91), ('G', some 21), ('Z', some (-0.1)), ('F', some 1e22)] := by
  have finiteD : Scalar.isFinite (-0.1 : Float) = true := by decide +kernel
  have finiteF : Scalar.isFinite (1e22 : Float) = true := by decide +kernel
  exact ⟨finiteD, finiteF, words_jog .z (-0.1) 1e22 finiteD finiteF⟩

end Gcode

end Cnc
