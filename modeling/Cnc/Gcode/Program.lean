import Cnc.Text.Blank
import Cnc.Text.Lines

/-!
# Program text

A comment is what stands between `(` and the next `)`, or the end of the
line if none follows, and what follows a `;` outside parentheses. A line
that is blank or begins with a comment sign carries no command.

`programLines` are the lines that are sent to a controller: without
comments, trimmed, and without those that nothing is left of.
-/

namespace Cnc.Gcode

open Cnc.Text

/-- Whether a line is blank or begins with a comment. -/
def isBlankOrComment (line : List Char) : Bool :=
  match trim line with
  | [] => true
  | c :: _ => c = ';' ∨ c = '('

/-- The characters of a text outside comments; `inside` tells whether it begins within one. -/
def outsideComments (inside : Bool) (s : List Char) : List Char :=
  match inside, s with
  | _, [] => []
  | true, c :: rest => outsideComments (c ≠ ')') rest
  | false, c :: rest =>
    if c = '(' then outsideComments true rest
    else if c = ';' then []
    else c :: outsideComments false rest

/-- Whether a sign that begins a comment stands in a line. -/
def hasCommentSign (line : List Char) : Bool := line.any fun c => c = '(' ∨ c = ';'

/-- **A line without its comments**, trimmed. Comments are looked for only in a line that has a sign
of them. -/
def stripComments (line : List Char) : List Char :=
  if hasCommentSign line then trim (outsideComments false line) else trim line

theorem hasCommentSign_eq_false {line : List Char} :
    hasCommentSign line = false ↔ '(' ∉ line ∧ ';' ∉ line := by
  simp only [hasCommentSign, List.any_eq_false, decide_eq_true_eq, not_or]
  exact ⟨fun plain => ⟨fun own => (plain _ own).1 rfl, fun own => (plain _ own).2 rfl⟩,
    fun plain c own => ⟨fun e => plain.1 (e ▸ own), fun e => plain.2 (e ▸ own)⟩⟩

/-- A line without comment signs stands outside comments. -/
theorem outsideComments_of_no_sign {line : List Char} (hp : '(' ∉ line) (hs : ';' ∉ line) :
    outsideComments false line = line := by
  induction line with
  | nil => rfl
  | cons c rest ih =>
    simp only [List.mem_cons, not_or] at hp hs
    rw [outsideComments, if_neg (fun e => hp.1 e.symm), if_neg (fun e => hs.1 e.symm),
      ih hp.2 hs.2]

/-- What is left of a line is the same whether comments are looked for or not. -/
theorem stripComments_eq (line : List Char) :
    stripComments line = trim (outsideComments false line) := by
  unfold stripComments
  split
  · rfl
  · next plain =>
    obtain ⟨hp, hs⟩ := hasCommentSign_eq_false.1 (by simpa using plain)
    rw [outsideComments_of_no_sign hp hs]

/-- A line without comment signs is only trimmed. -/
theorem stripComments_of_no_sign {line : List Char} (hp : '(' ∉ line) (hs : ';' ∉ line) :
    stripComments line = trim line := by
  rw [stripComments_eq, outsideComments_of_no_sign hp hs]

/-- **The lines that are sent to a controller**, in order. -/
def programLines (text : List Char) : List (List Char) :=
  ((lines text).filter (!isBlankOrComment ·)).map stripComments |>.filter (· ≠ [])

end Cnc.Gcode
