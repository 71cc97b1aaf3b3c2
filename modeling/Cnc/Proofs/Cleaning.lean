import Cnc.Proofs.LineSplitting
import Cnc.Proofs.Streamed

/-!
# The lines of a program that are sent

A program is cleaned in one pass. What comes out are clean lines – trimmed, not
empty, one line each and without comment signs – and cleaning changes nothing
of clean lines, so the lines that are sent are exactly those that are their own
cleaning (`Gcode.programLines_stable`).

Not every command comes out. A line counts as a comment by its first sign
alone, but a comment in parentheses may be closed again, and what stands behind
it is left when the comment is taken off. Such a line hides a command
(`Gcode.HidesCommand`); a program is sent completely exactly if none of its
lines does (`Gcode.programLines_eq_commands_iff`).
-/

namespace Cnc

open Text

/-- A neat text is what is left when it is trimmed. -/
theorem Text.Neat.trim_eq {text : List Char} (neat : Neat text) : trim text = text := by
  rw [trim, trimStart_of_head neat.first, trimEnd_of_getLast neat.last]

/-- What is left of a text begins where the text does, behind its blanks. -/
theorem Text.trim_of_trimStart {s rest : List Char} {c : Char} (start : trimStart s = c :: rest) :
    trim s = c :: trimEnd rest := by
  have other : isBlank c = false := notBlank_of_head_trimStart (s := s) (by rw [start]; rfl)
  rw [trim, start, ← List.nil_append (c :: rest), trimEnd_append other]
  rfl

namespace Gcode

variable {l note rest : List Char}

/-! ## Where comments end -/

/-- A text without comment signs stands outside comments. -/
theorem outsideComments_append {front : List Char} (paren : '(' ∉ front) (semicolon : ';' ∉ front)
    (s : List Char) : outsideComments false (front ++ s) = front ++ outsideComments false s := by
  induction front with
  | nil => rfl
  | cons c front ih =>
    simp only [List.mem_cons, not_or] at paren semicolon
    rw [List.cons_append, outsideComments, if_neg (Ne.symm paren.1), if_neg (Ne.symm semicolon.1),
      ih paren.2 semicolon.2]
    rfl

/-- **A comment goes up to the parenthesis that closes it.** -/
theorem outsideComments_note (open_ : ')' ∉ note) (rest : List Char) :
    outsideComments true (note ++ ')' :: rest) = outsideComments false rest := by
  induction note with
  | nil => rfl
  | cons c note ih =>
    simp only [List.mem_cons, not_or] at open_
    rw [List.cons_append, outsideComments, decide_eq_true (Ne.symm open_.1), ih open_.2]

/-- A comment that is not closed goes up to the end. -/
theorem outsideComments_unclosed (open_ : ')' ∉ note) : outsideComments true note = [] := by
  induction note with
  | nil => rfl
  | cons c note ih =>
    simp only [List.mem_cons, not_or] at open_
    rw [outsideComments, decide_eq_true (Ne.symm open_.1), ih open_.2]

/-- Blanks before a line make no difference to what is left of it. -/
theorem stripComments_trimStart (l : List Char) :
    stripComments (trimStart l) = stripComments l := by
  obtain ⟨front, parts, blank⟩ := trimStart_parts l
  have paren : '(' ∉ front := fun own => absurd (blank _ own) (by decide)
  have semicolon : ';' ∉ front := fun own => absurd (blank _ own) (by decide)
  rw [stripComments_eq (trimStart l)]
  conv_rhs => rw [parts, stripComments_eq, outsideComments_append paren semicolon, trim,
    trimStart_blank_append blank]
  rfl

/-! ## Lines that hide a command -/

/-- **The commands of a program**: what is left of its lines without comments, where anything is. -/
def commands (text : List Char) : List (List Char) :=
  ((lines text).map stripComments).filter (· ≠ [])

/-- **A line hides a command** if it begins with a comment that is closed and something is left of
what follows. -/
def HidesCommand (l : List Char) : Prop :=
  ∃ note rest, trimStart l = '(' :: (note ++ ')' :: rest) ∧ ')' ∉ note ∧ stripComments rest ≠ []

/-- What is left of a line that begins with a closed comment is what is left behind it. -/
theorem stripComments_of_note (start : trimStart l = '(' :: (note ++ ')' :: rest))
    (open_ : ')' ∉ note) : stripComments l = stripComments rest := by
  rw [← stripComments_trimStart, start, stripComments_eq, outsideComments, if_pos rfl,
    outsideComments_note open_, stripComments_eq]

/-- **The lines that hide a command** are those that count as comments and leave something. -/
theorem hidesCommand_iff :
    HidesCommand l ↔ isBlankOrComment l = true ∧ stripComments l ≠ [] := by
  constructor
  · rintro ⟨note, rest, start, open_, left⟩
    refine ⟨?_, by rwa [stripComments_of_note start open_]⟩
    unfold isBlankOrComment
    rw [trim_of_trimStart start]
    rfl
  · rintro ⟨comment, left⟩
    cases start : trimStart l with
    | nil =>
      rw [← stripComments_trimStart, start] at left
      exact absurd rfl left
    | cons c behind =>
      unfold isBlankOrComment at comment
      rw [trim_of_trimStart start] at comment
      rcases of_decide_eq_true comment with rfl | rfl
      · rw [← stripComments_trimStart, start] at left
        exact absurd rfl left
      · by_cases closed : ')' ∈ behind
        · obtain ⟨note, rest, rfl, open_⟩ := List.eq_append_cons_of_mem closed
          refine ⟨note, rest, start, open_, ?_⟩
          rwa [← stripComments_of_note start open_]
        · rw [← stripComments_trimStart, start, stripComments_eq, outsideComments, if_pos rfl,
            outsideComments_unclosed closed] at left
          exact absurd rfl left

/-- **Which programs are sent completely.** The lines that are sent are the commands of the program
exactly if no line of it hides one; and a line that counts as a comment leaves something exactly if
it hides a command. -/
theorem programLines_eq_commands_iff (text : List Char) :
    (programLines text = commands text ↔ ∀ l ∈ lines text, ¬ HidesCommand l) ∧
      ∀ l, isBlankOrComment l = true → (stripComments l = [] ↔ ¬ HidesCommand l) := by
  have all : commands text
      = ((lines text).filter fun l => decide (stripComments l ≠ [])).map stripComments := by
    rw [commands, List.filter_map]
    rfl
  refine ⟨?_, fun l comment => by simp [hidesCommand_iff, comment]⟩
  rw [all, programLines_eq]
  constructor
  · intro same l member hides
    obtain ⟨comment, left⟩ := hidesCommand_iff.mp hides
    -- fewer lines are kept than have something left, but none fewer if as many are sent
    have kept : (lines text).filter carries
        = (lines text).filter fun l => decide (stripComments l ≠ []) :=
      (List.monotone_filter_right _ fun l carried => by
        simpa [carries] using (Bool.and_eq_true_iff.mp carried).2).eq_of_length
        (by simpa using congrArg List.length same)
    have carried : l ∈ (lines text).filter carries := by
      rw [kept]
      exact List.mem_filter.mpr ⟨member, decide_eq_true left⟩
    simpa [carries, comment] using (List.mem_filter.mp carried).2
  · intro none
    congr 1
    refine List.filter_congr fun l member => ?_
    have plain := mt hidesCommand_iff.mpr (none l member)
    cases comment : isBlankOrComment l with
    | false => simp [carries, comment]
    | true =>
      have nothing : stripComments l = [] := by simpa [comment] using plain
      simp [carries, nothing]

/-- A command behind a comment is not sent. -/
theorem programLines_ne_commands_of_note :
    isBlankOrComment "(cut) G0 X1".toList = true ∧
      stripComments "(cut) G0 X1".toList = "G0 X1".toList ∧
      commands "(cut) G0 X1".toList = ["G0 X1".toList] ∧
      programLines "(cut) G0 X1".toList = [] ∧
      ¬ programLines "(cut) G0 X1".toList = commands "(cut) G0 X1".toList := by
  decide +kernel

/-! ## Clean lines -/

/-- **A clean line**: one line, not empty, with no blank at either end and without comment signs. -/
structure Clean (l : List Char) : Prop extends Text.Neat l where
  some_ : l ≠ []
  paren : '(' ∉ l
  semicolon : ';' ∉ l

theorem Clean.joinable (clean : Clean l) : Joinable l where
  lineFeed := clean.oneLine
  nonempty := clean.some_
  carriageReturn last := absurd (clean.last _ last) (by decide)

/-- Cleaning changes nothing of a clean line. -/
theorem Clean.stripComments_eq (clean : Clean l) : stripComments l = l :=
  (stripComments_of_no_sign clean.paren clean.semicolon).trans clean.trim_eq

theorem Clean.carries (clean : Clean l) : carries l = true := by
  have plain := isBlankOrComment_of_no_sign clean.trim_eq clean.some_ clean.paren clean.semicolon
  simp [Gcode.carries, plain, clean.stripComments_eq, clean.some_]

/-- **What is sent is clean.** -/
theorem clean_of_programLines {text : List Char} (sent : l ∈ programLines text) : Clean l := by
  have joinable := joinable_of_programLines sent
  rw [programLines_eq] at sent
  obtain ⟨whole, -, rfl⟩ := List.mem_map.mp sent
  obtain ⟨paren, semicolon⟩ := no_sign_of_stripComments whole
  rw [stripComments_eq] at joinable paren semicolon ⊢
  exact ⟨⟨fun _ => notBlank_of_head_trim, fun _ => notBlank_of_getLast_trimEnd,
    joinable.lineFeed⟩, joinable.nonempty, paren, semicolon⟩

/-- Clean lines, joined by line feeds, are sent as they are. -/
theorem programLines_intercalate {ls : List (List Char)} (clean : ∀ l ∈ ls, Clean l) :
    programLines (['\n'].intercalate ls) = ls := by
  rw [programLines_eq, lines_intercalate fun l own => (clean l own).joinable,
    List.filter_eq_self.mpr fun l own => (clean l own).carries]
  exact (List.map_congr_left fun l own => (clean l own).stripComments_eq).trans (List.map_id _)

/-- **Cleaning is stable.** The lines that are sent of a program are clean, and joined by line feeds
they are sent as the same lines again; and lines are sent as they are exactly if they are clean. -/
theorem programLines_stable (text : List Char) :
    (∀ l ∈ programLines text, Clean l) ∧
      programLines (['\n'].intercalate (programLines text)) = programLines text ∧
      ∀ ls, programLines (['\n'].intercalate ls) = ls ↔ ∀ l ∈ ls, Clean l := by
  refine ⟨fun _ => clean_of_programLines,
    programLines_intercalate fun _ => clean_of_programLines, fun ls => ⟨fun same l own => ?_,
    programLines_intercalate⟩⟩
  rw [← same] at own
  exact clean_of_programLines own

end Gcode

end Cnc
