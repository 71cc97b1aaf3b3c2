import Cnc.Text.Blank
import Cnc.Geometry.Scalar

/-!
# Words of a G-code line

A word is an ASCII letter, blanks, and a number: an optional sign, then
digits with an optional point and more digits, or a point and digits. A line
is read from left to right; where a word begins, the longest one is taken,
and everything else is skipped. Words are located by byte offsets into the
UTF-8 form of the line.

`takeNumber?` cuts the longest number off a text and `words` is the scan.
-/

namespace Cnc.Gcode

open Cnc.Text

/-- A letter and a number. -/
structure Word where
  /-- The letter in upper case. -/
  letter : Char
  /-- The number as it is written. -/
  value : List Char
  /-- The byte offset of the letter. -/
  start : Nat
  /-- The byte offset after the number. -/
  stop : Nat
deriving DecidableEq, Repr

/-- The number of bytes of a text in UTF-8. -/
def byteLength : List Char → Nat
  | [] => 0
  | c :: rest => c.utf8Size + byteLength rest

/-- A leading sign and the text after it. -/
def cutSign (s : List Char) : List Char × List Char :=
  match s with
  | '+' :: rest => (['+'], rest)
  | '-' :: rest => (['-'], rest)
  | _ => ([], s)

/-- The longest number without a sign at the beginning of a text, and the text after it. -/
def takeUnsigned? (s : List Char) : Option (List Char × List Char) :=
  let whole := s.takeWhile isDigit
  match s.dropWhile isDigit with
  | '.' :: rest =>
    let fraction := rest.takeWhile isDigit
    if whole = [] ∧ fraction = [] then none
    else some (whole ++ '.' :: fraction, rest.dropWhile isDigit)
  | rest => if whole = [] then none else some (whole, rest)

/-- The longest number at the beginning of a text, and the text after it. -/
def takeNumber? (s : List Char) : Option (List Char × List Char) :=
  (takeUnsigned? (cutSign s).2).map fun p => ((cutSign s).1 ++ p.1, p.2)

/-- Cutting a sign off splits the text. -/
theorem cutSign_append (s : List Char) : (cutSign s).1 ++ (cutSign s).2 = s := by
  unfold cutSign
  split <;> rfl

/-- Cutting an unsigned number off splits the text, and the number is not empty. -/
theorem takeUnsigned?_eq_some {s value rest : List Char}
    (h : takeUnsigned? s = some (value, rest)) : s = value ++ rest ∧ value ≠ [] := by
  have hs := List.takeWhile_append_dropWhile (p := isDigit) (l := s)
  unfold takeUnsigned? at h
  split at h
  · next r hr =>
    have hrest := List.takeWhile_append_dropWhile (p := isDigit) (l := r)
    dsimp only at h
    split at h
    · exact absurd h (by simp)
    · simp only [Option.some.injEq, Prod.mk.injEq] at h
      obtain ⟨rfl, rfl⟩ := h
      refine ⟨?_, by simp⟩
      rw [List.append_assoc, List.cons_append, hrest, ← hr, hs]
  · dsimp only at h
    split at h
    · exact absurd h (by simp)
    · next hw =>
      simp only [Option.some.injEq, Prod.mk.injEq] at h
      obtain ⟨rfl, rfl⟩ := h
      exact ⟨hs.symm, hw⟩

/-- Cutting a number off splits the text, and the number is not empty. -/
theorem takeNumber?_eq_some {s value rest : List Char}
    (h : takeNumber? s = some (value, rest)) : s = value ++ rest ∧ value ≠ [] := by
  obtain ⟨⟨v, r⟩, hv, he⟩ := Option.map_eq_some_iff.1 h
  simp only [Prod.mk.injEq] at he
  obtain ⟨rfl, rfl⟩ := he
  obtain ⟨h1, h2⟩ := takeUnsigned?_eq_some hv
  refine ⟨?_, by simp [h2]⟩
  rw [List.append_assoc, ← h1, cutSign_append]

/-- The words of a text that begins at a byte offset of the line. -/
def wordsFrom (offset : Nat) (s : List Char) : List Word :=
  match s with
  | [] => []
  | c :: rest =>
    if c.isAlpha then
      match _h : takeNumber? (rest.dropWhile isBlank) with
      | some (value, after) =>
        let stop := offset + byteLength (c :: rest.takeWhile isBlank ++ value)
        ⟨c.toUpper, value, offset, stop⟩ :: wordsFrom stop after
      | none => wordsFrom (offset + c.utf8Size) rest
    else wordsFrom (offset + c.utf8Size) rest
termination_by s.length
decreasing_by
  · have hlen := congrArg List.length (takeNumber?_eq_some _h).1
    have hdrop : (rest.dropWhile isBlank).length ≤ rest.length :=
      (List.dropWhile_suffix isBlank).length_le
    simp only [List.length_append] at hlen
    simp only [List.length_cons]
    omega
  · simp
  · simp

/-- **The words of a line**, in the order they are written. -/
def words (line : List Char) : List Word := wordsFrom 0 line

namespace Word

variable {α : Type} [Scalar α]

/-- The value of a word's number; none if it is not finite or not written in ASCII digits. -/
def number? (w : Word) : Option α :=
  ((Decimal.read? w.value).map Scalar.ofDecimal).filter Scalar.isFinite

/-- The command code of a word: its number if that is a natural number, at most the largest
32-bit one. -/
def code? (α : Type) [Scalar α] (w : Word) : Option Nat :=
  ((w.number? : Option α).bind Scalar.natural?).map (Nat.min · (Nat.pow 2 32 - 1))

end Word

/-- The first readable number among the words with a letter. -/
def valueOf? {α : Type} [Scalar α] (ws : List Word) (letter : Char) : Option α :=
  (ws.filter (·.letter = letter)).findSome? Word.number?

/-- The motion commands. -/
inductive Motion where
  /-- `G0`: move fast, in a straight line. -/
  | rapid
  /-- `G1`: cut in a straight line. -/
  | linear
  /-- `G2`: cut a clockwise arc. -/
  | arcClockwise
  /-- `G3`: cut a counter-clockwise arc. -/
  | arcCounterclockwise
deriving DecidableEq, Repr

/-- The motion command with a code. -/
def Motion.ofCode? : Nat → Option Motion
  | 0 => some .rapid
  | 1 => some .linear
  | 2 => some .arcClockwise
  | 3 => some .arcCounterclockwise
  | _ => none

/-- The first motion command of a line; other `G` words are passed over. -/
def motion? (α : Type) [Scalar α] (ws : List Word) : Option Motion :=
  (ws.filter (·.letter = 'G')).findSome? fun w => (w.code? α).bind Motion.ofCode?

/-- The motion command that a line begins with, at its very first byte. -/
def leadingMotion? (α : Type) [Scalar α] (ws : List Word) : Option Motion :=
  (ws.head?.filter fun w => w.letter = 'G' ∧ w.start = 0).bind
    fun w => (w.code? α).bind Motion.ofCode?

end Cnc.Gcode
