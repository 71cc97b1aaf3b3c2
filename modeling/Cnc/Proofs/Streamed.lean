import Cnc.Proofs.PathShape
import Cnc.Proofs.Texts

/-!
# What is drawn is what is sent

The lines that are sent to a controller are not the lines of the program:
comments and blanks are taken off, and lines that nothing is left of are left
out (`Gcode.programLines`). A controller that reads them draws the same path
as the program itself, except for the numbers of the lines
(`Toolpath.ofProgram_streamed`).

Two facts carry this. Taking off comments and blanks leaves a text that it
changes nothing of (`Gcode.stripComments_stripComments`), so both readings
find the same words in a line that carries a command. And the sent lines,
joined by line feeds, are read as the same lines again, because none of them
is empty or ends with a carriage return (`Text.lines_intercalate`).
-/

namespace Cnc

open Gcode Text

/-! ## Lines that are joined again -/

namespace Text

/-- A line that is read as itself wherever it stands in a text. -/
structure Joinable (l : List Char) : Prop where
  lineFeed : '\n' ∉ l
  nonempty : l ≠ []
  carriageReturn : l.getLast? ≠ some '\r'

/-- **Lines joined by line feeds** are the lines of the text. -/
theorem lines_intercalate {ls : List (List Char)} (joinable : ∀ l ∈ ls, Joinable l) :
    lines (['\n'].intercalate ls) = ls := by
  rcases List.eq_nil_or_concat' ls with rfl | ⟨front, last, rfl⟩
  · rfl
  · have pieces := List.splitOn_intercalate '\n' (fun l own => (joinable l own).lineFeed)
      (List.append_ne_nil_of_right_ne_nil front (List.cons_ne_nil last []))
    have kept : front.map dropCarriageReturn = front := by
      refine List.map_congr_left (g := id) (fun l own => ?_) |>.trans (List.map_id _)
      exact if_neg (joinable l (List.mem_append_left _ own)).carriageReturn
    have nonempty := (joinable last (by simp)).nonempty
    simp [lines, pieces, kept, nonempty]

end Text

/-! ## Lines without comments -/

namespace Gcode

theorem no_sign_of_outsideComments (inside : Bool) (s : List Char) :
    '(' ∉ outsideComments inside s ∧ ';' ∉ outsideComments inside s := by
  fun_induction outsideComments inside s with
  | case1 => simp
  | case2 c rest ih => exact ih
  | case3 rest ih => exact ih
  | case4 rest other => simp
  | case5 c rest notOpen notComment ih =>
    simp only [List.mem_cons, not_or]
    exact ⟨⟨Ne.symm notOpen, ih.1⟩, Ne.symm notComment, ih.2⟩

theorem no_sign_of_stripComments (line : List Char) :
    '(' ∉ stripComments line ∧ ';' ∉ stripComments line := by
  rw [stripComments_eq]
  exact (no_sign_of_outsideComments false line).imp (mt mem_of_mem_trim) (mt mem_of_mem_trim)

/-- What is left of a line is trimmed. -/
theorem trim_stripComments (line : List Char) : trim (stripComments line) = stripComments line := by
  rw [stripComments_eq, trim_trim]

/-- **Taking comments off again** changes nothing. -/
theorem stripComments_stripComments (line : List Char) :
    stripComments (stripComments line) = stripComments line := by
  obtain ⟨paren, semicolon⟩ := no_sign_of_stripComments line
  rw [stripComments_of_no_sign paren semicolon, trim_stripComments]

/-- Whether a line carries a command: something is left of it when its comments are taken off. -/
def carries (line : List Char) : Bool := !isBlankOrComment line && stripComments line ≠ []

/-- The lines that are sent are those that carry a command. -/
theorem programLines_eq (text : List Char) :
    programLines text = ((lines text).filter carries).map stripComments := by
  unfold programLines
  rw [List.filter_map, List.filter_filter]
  congr 2
  funext line
  simp [carries, Bool.and_comm]

theorem joinable_of_programLines {text line : List Char} (sent : line ∈ programLines text) :
    Joinable line := by
  rw [programLines_eq] at sent
  obtain ⟨whole, found, rfl⟩ := List.mem_map.mp sent
  obtain ⟨among, carried⟩ := List.mem_filter.mp found
  refine ⟨fun inside => ?_, ?_, fun last => ?_⟩
  · rw [stripComments_eq] at inside
    exact lineFeed_not_mem_lines among (mem_of_mem_outsideComments (mem_of_mem_trim inside))
  · simp only [carries, Bool.and_eq_true, decide_eq_true_eq] at carried
    exact carried.2
  · rw [stripComments_eq] at last
    exact absurd (notBlank_of_getLast_trimEnd last) (by decide)

/-- A trimmed line without comment signs is no comment. -/
theorem isBlankOrComment_of_no_sign {line : List Char} (trimmed : trim line = line)
    (nonempty : line ≠ []) (paren : '(' ∉ line) (semicolon : ';' ∉ line) :
    isBlankOrComment line = false := by
  obtain ⟨c, rest, rfl⟩ := List.exists_cons_of_ne_nil nonempty
  simp only [List.mem_cons, not_or] at paren semicolon
  simp [isBlankOrComment, trimmed, Ne.symm paren.1, Ne.symm semicolon.1]

/-- **A line that carries a command** carries the same one when its comments are taken off. -/
theorem commandWords_stripComments {line : List Char} (carried : carries line = true) :
    Toolpath.commandWords (stripComments line) = Toolpath.commandWords line := by
  simp only [carries, Bool.and_eq_true, Bool.not_eq_true', decide_eq_true_eq] at carried
  obtain ⟨plain, nonempty⟩ := carried
  obtain ⟨paren, semicolon⟩ := no_sign_of_stripComments line
  have plain' : isBlankOrComment (stripComments line) = false :=
    isBlankOrComment_of_no_sign (trim_stripComments line) nonempty paren semicolon
  unfold Toolpath.commandWords
  rw [plain, plain', stripComments_stripComments]

theorem commandWords_of_not_carries {line : List Char} (empty : ¬ carries line = true) :
    Toolpath.commandWords line = [] := by
  unfold Toolpath.commandWords
  split
  · rfl
  · next plain =>
    have nothing : stripComments line = [] := by simpa [carries, plain] using empty
    rw [nothing, words, wordsFrom]

end Gcode

/-! ## The same path -/

namespace Toolpath

variable {α : Type} [Scalar α]

/-- The index among the sent lines of a line of the program. -/
def sentIndex (ls : List (List Char)) (n : Nat) : Nat := (ls.take n).countP carries

theorem step_nil (o : Flattening α) (p : Point α) (n : Nat) : step o p n [] = (p, []) := rfl

/-- What the lines that carry a command draw is what all lines draw, with other numbers. -/
theorem chordsFrom_filter_carries (o : Flattening α) (p : Point α) (before ls : List (List Char)) :
    chordsFrom o p (before.countP carries) ((ls.filter carries).map stripComments)
      = (chordsFrom o p before.length ls).map
          fun c => { c with line := sentIndex (before ++ ls) c.line } := by
  induction ls generalizing p before with
  | nil => rfl
  | cons l ls ih =>
    have rest (q : Point α) := ih q (before ++ [l])
    rw [List.length_append, List.length_singleton, List.append_assoc, List.countP_append,
      List.countP_singleton] at rest
    by_cases carried : carries l = true
    · rw [if_pos carried] at rest
      rw [List.filter_cons_of_pos carried, List.map_cons]
      simp only [chordsFrom, commandWords_stripComments carried, List.map_append]
      rw [step_relabel o p (before.countP carries) before.length, rest]
      congr 1
      refine List.map_congr_left fun c drawn => ?_
      rw [line_of_step drawn, sentIndex, List.take_left]
    · rw [if_neg carried] at rest
      rw [List.filter_cons_of_neg carried]
      simp only [chordsFrom, commandWords_of_not_carries carried, step_nil, List.nil_append]
      exact rest p

theorem measure_renumber (t : α) (f : Nat → Nat) (cs : List (Chord α)) :
    measure t (cs.map fun c => { c with line := f c.line })
      = (measure t cs).map fun s => { s with line := f s.line } := by
  induction cs generalizing t with
  | nil => rfl
  | cons c cs ih =>
    simp only [List.map_cons, measure, ih]

/-- A line that draws something carries a command. -/
theorem carries_of_mem_chords {o : Flattening α} {text : List Char} {c : Chord α}
    (drawn : c ∈ chords o text) : ∃ l, (lines text)[c.line]? = some l ∧ carries l = true := by
  have bound := (line_of_chordsFrom drawn).2
  rw [Nat.zero_add] at bound
  refine ⟨_, List.getElem?_eq_getElem bound, by_contra fun empty => ?_⟩
  have own := chordsFrom_filter o [] (lines text) (List.getElem?_eq_getElem bound)
  rw [commandWords_of_not_carries empty, List.length_nil, Nat.zero_add] at own
  have nothing : (chords o text).filter (·.line = c.line) = [] := own
  exact List.filter_eq_nil_iff.mp nothing c drawn (decide_eq_true rfl)

/-- The line of the program that is sent at an index. -/
theorem programLines_sentIndex {text l : List Char} {n : Nat} (here : (lines text)[n]? = some l)
    (carried : carries l = true) :
    (programLines text)[sentIndex (lines text) n]? = some (stripComments l) := by
  have parts : lines text = (lines text).take n ++ l :: (lines text).drop (n + 1) := by
    obtain ⟨bound, rfl⟩ := List.getElem?_eq_some_iff.mp here
    rw [List.getElem_cons_drop, List.take_append_drop]
  have found : ((lines text).filter carries)[(((lines text).take n).filter carries).length]?
      = some l := by
    rw [congrArg (List.filter carries) parts, List.filter_append, List.filter_cons_of_pos carried,
      List.getElem?_append_right (Nat.le_refl _), Nat.sub_self]
    rfl
  rw [programLines_eq, List.getElem?_map, sentIndex, List.countP_eq_length_filter, found]
  rfl

/-- **The sent lines draw the path of the program.** For every text and all options, the path of the
sent lines, joined by line feeds, consists of the pieces of the program's path in the same order,
which differ only in the number of the line, and is as long. The line that a piece is drawn for is,
without comments, the line with the piece's other number among those that are sent. -/
theorem ofProgram_streamed (o : Flattening α) (text : List Char) :
    (ofProgram o (['\n'].intercalate (programLines text))).segments
        = (ofProgram o text).segments.map
            (fun s => { s with line := sentIndex (lines text) s.line })
      ∧ (ofProgram o (['\n'].intercalate (programLines text))).totalLength
        = (ofProgram o text).totalLength
      ∧ ∀ s ∈ (ofProgram o text).segments, ∃ l, (lines text)[s.line]? = some l
          ∧ (programLines text)[sentIndex (lines text) s.line]? = some (stripComments l) := by
  have sent : lines (['\n'].intercalate (programLines text)) = programLines text :=
    lines_intercalate fun _ => joinable_of_programLines
  have drawn : chords o.sanitized (['\n'].intercalate (programLines text))
      = (chords o.sanitized text).map
          fun c => { c with line := sentIndex (lines text) c.line } := by
    unfold chords
    rw [sent, programLines_eq]
    exact chordsFrom_filter_carries o.sanitized Point.origin [] (lines text)
  have pieces : (ofProgram o (['\n'].intercalate (programLines text))).segments
      = (ofProgram o text).segments.map
          (fun s => { s with line := sentIndex (lines text) s.line }) := by
    simp only [ofProgram, ofChords, drawn]
    exact measure_renumber _ _ _
  have total (text : List Char) : (ofProgram o text).totalLength
      = ((ofProgram o text).segments.getLast?.map (·.travelled)).getD Scalar.zero := rfl
  refine ⟨pieces, ?_, fun s piece => ?_⟩
  · rw [total, total, pieces, List.getLast?_map, Option.map_map]
    rfl
  · have chord : s.toChord ∈ chords o.sanitized text := by
      rw [← measure_chords Scalar.zero (chords o.sanitized text)]
      exact List.mem_map_of_mem piece
    obtain ⟨l, here, carried⟩ := carries_of_mem_chords chord
    exact ⟨l, here, programLines_sentIndex here carried⟩

end Toolpath

end Cnc
