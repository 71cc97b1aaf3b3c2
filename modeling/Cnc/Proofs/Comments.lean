import Cnc.Proofs.Cleaning

/-!
# What is left of a line

`Gcode.stripComments` reads a line with one bit of memory, whether it is
inside a comment. Here the same is said without a state, by how a line is made
up of text and comments (`Gcode.Keeps`): text goes up to the first sign that
begins a comment; a `;` there ends the line, and a `(` begins a comment that
goes up to the next `)`, behind which it all begins again, or to the end. A
`)` that closes nothing is text like any other, and signs inside a comment
mean nothing, so comments do not nest.

Every line is made up in this way, and keeps one text. What is left of the
line is this text, trimmed (`Gcode.stripComments_projects`).
-/

namespace Cnc.Gcode

open Text

/-- **The text of a line that is kept**, by how the line is made up of text and comments. -/
inductive Keeps : List Char → List Char → Prop
  | text {text : List Char} (paren : '(' ∉ text) (semicolon : ';' ∉ text) : Keeps text text
  | ended {text : List Char} (paren : '(' ∉ text) (semicolon : ';' ∉ text) (note : List Char) :
    Keeps (text ++ ';' :: note) text
  | unclosed {text note : List Char} (paren : '(' ∉ text) (semicolon : ';' ∉ text)
    (open_ : ')' ∉ note) : Keeps (text ++ '(' :: note) text
  | closed {text note rest kept : List Char} (paren : '(' ∉ text) (semicolon : ';' ∉ text)
    (open_ : ')' ∉ note) (behind : Keeps rest kept) :
    Keeps (text ++ '(' :: (note ++ ')' :: rest)) (text ++ kept)

variable {line kept rest : List Char}

/-- A character that begins no comment is kept in front of what is kept of the others. -/
theorem Keeps.cons {c : Char} (keeps : Keeps rest kept) (paren : c ≠ '(') (semicolon : c ≠ ';') :
    Keeps (c :: rest) (c :: kept) := by
  have longer {sign : Char} {text : List Char} (other : c ≠ sign) (none : sign ∉ text) :
      sign ∉ c :: text :=
    List.not_mem_cons_of_ne_of_not_mem (Ne.symm other) none
  cases keeps with
  | text hp hs => exact .text (longer paren hp) (longer semicolon hs)
  | ended hp hs note => exact .ended (longer paren hp) (longer semicolon hs) note
  | unclosed hp hs open_ => exact .unclosed (longer paren hp) (longer semicolon hs) open_
  | closed hp hs open_ behind => exact .closed (longer paren hp) (longer semicolon hs) open_ behind

/-- The characters outside comments are kept. -/
theorem keeps_outsideComments : ∀ line, Keeps line (outsideComments false line)
  | [] => .text List.not_mem_nil List.not_mem_nil
  | c :: rest => by
    have none {sign : Char} : sign ∉ ([] : List Char) := List.not_mem_nil
    by_cases paren : c = '('
    · subst paren
      rw [outsideComments, if_pos rfl]
      by_cases closed : ')' ∈ rest
      · obtain ⟨note, behind, rfl, open_⟩ := List.eq_append_cons_of_mem closed
        rw [outsideComments_note open_]
        exact .closed none none open_ (keeps_outsideComments behind)
      · rw [outsideComments_unclosed closed]
        exact .unclosed none none closed
    · by_cases semicolon : c = ';'
      · subst semicolon
        exact .ended none none rest
      · rw [outsideComments, if_neg paren, if_neg semicolon]
        exact (keeps_outsideComments rest).cons paren semicolon
termination_by line => line.length

/-- **What a line keeps** are its characters outside comments. -/
theorem keeps_iff : Keeps line kept ↔ kept = outsideComments false line := by
  constructor
  · intro keeps
    induction keeps with
    | text paren semicolon => rw [outsideComments_of_no_sign paren semicolon]
    | ended paren semicolon note =>
      rw [outsideComments_append paren semicolon]
      simp [outsideComments]
    | unclosed paren semicolon open_ =>
      rw [outsideComments_append paren semicolon, outsideComments, if_pos rfl,
        outsideComments_unclosed open_, List.append_nil]
    | closed paren semicolon open_ behind ih =>
      rw [outsideComments_append paren semicolon, outsideComments, if_pos rfl,
        outsideComments_note open_, ih]
  · rintro rfl
    exact keeps_outsideComments line

/-- **Taking comments off.** Every line keeps one text, and what is left of the line is this text,
trimmed; where no comment is looked for, looking for them would give the same. What is left has no
sign that begins a comment, and taking comments off again changes nothing. -/
theorem stripComments_projects (line : List Char) :
    (∃! kept, Keeps line kept) ∧
      (∀ kept, Keeps line kept → stripComments line = trim kept) ∧
      (hasCommentSign line = false → trim line = trim (outsideComments false line)) ∧
      ('(' ∉ stripComments line ∧ ';' ∉ stripComments line) ∧
      stripComments (stripComments line) = stripComments line := by
  refine ⟨⟨_, keeps_outsideComments line, fun _ => keeps_iff.mp⟩, fun kept keeps => ?left,
    fun plain => ?shortcut, no_sign_of_stripComments line, stripComments_stripComments line⟩
  case left => rw [stripComments_eq, keeps_iff.mp keeps]
  case shortcut =>
    obtain ⟨paren, semicolon⟩ := hasCommentSign_eq_false.mp plain
    rw [outsideComments_of_no_sign paren semicolon]

/-- Comments do not nest, and one that is not closed goes up to the end. -/
example : stripComments "G1 (a (b) X2) ; Y3 (deep".toList = "G1  X2)".toList := by decide +kernel

end Cnc.Gcode
