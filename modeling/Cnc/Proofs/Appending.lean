import Cnc.Proofs.Extents
import Cnc.Proofs.Pieces
import Cnc.Proofs.Streamed

/-!
# Programs one after the other

A text that is put behind another, on a new line, leaves the path of the first
text as it is: the path goes on with what the second text draws from the modal
position and the length that the first one leads to, and its lines are counted
on (`Toolpath.ofProgram_append`).

A path knows of the text before a line only the modal position, the length and
the number of lines. Where the two texts meet, the last line of the first one
is read in two ways, as one that nothing follows and as one that is ended by a
line feed. Its words are the same: a carriage return in front of the line feed
is blank, and an empty line that only comes into being because the first text
ended with a line feed draws nothing.
-/

namespace Cnc

open Gcode Text

/-! ## Where two texts meet -/

namespace Text

/-- The lines of a text that is followed by a line feed. -/
def closedLines (text : List Char) : List (List Char) :=
  (text.splitOn '\n').map dropCarriageReturn

theorem splitOn_append_lineFeed (a b : List Char) :
    (a ++ '\n' :: b).splitOn '\n' = a.splitOn '\n' ++ b.splitOn '\n' := by
  obtain ⟨ls, l, pieces⟩ :=
    (List.eq_nil_or_concat' (a.splitOn '\n')).resolve_left (List.splitOn_ne_nil '\n' a)
  have piece : l ∈ a.splitOn '\n' := by rw [pieces]; simp
  have clean : '\n' ∉ l := not_mem_of_mem_splitOn piece
  have next : ('\n' :: b).splitOn '\n' = [] :: b.splitOn '\n' := by
    rw [List.splitOn_cons_eq_if_modifyHead, if_pos (beq_self_eq_true _)]
  rw [splitOn_append pieces, splitOn_append_of_not_mem clean, next, pieces, List.append_assoc,
    List.modifyHead_cons, List.append_nil]
  rfl

/-- **The lines of two texts** with a line feed between them. -/
theorem lines_append_lineFeed (a b : List Char) :
    lines (a ++ '\n' :: b) = closedLines a ++ lines b := by
  have some := List.splitOn_ne_nil '\n' b
  unfold lines closedLines
  simp only [splitOn_append_lineFeed]
  rw [List.dropLast_append_of_ne_nil some, List.getLast?_append_of_ne_nil _ some, List.map_append,
    List.append_assoc]

theorem length_closedLines (text : List Char) :
    (closedLines text).length = text.count '\n' + 1 := by
  rw [closedLines, List.length_map]
  induction text with
  | nil => rfl
  | cons c text ih =>
    rw [List.splitOn_cons_eq_if_modifyHead, List.count_cons]
    split
    · rw [List.length_cons, ih]
    · rw [List.length_modifyHead, ih]

/-- A blank at the end of a text is trimmed off. -/
theorem trim_concat_blank {c : Char} (blank : isBlank c = true) (s : List Char) :
    trim (s ++ [c]) = trim s := by
  have ending (s : List Char) : trimEnd (s ++ [c]) = trimEnd s := by
    rw [trimEnd, List.reverse_concat, List.dropWhile_cons_of_pos blank]
    rfl
  unfold trim trimStart
  rw [List.dropWhile_append]
  split
  · next empty =>
    rw [List.isEmpty_iff.mp empty, List.dropWhile_cons_of_pos blank]
    rfl
  · exact ending _

end Text

namespace Gcode

/-- A carriage return at the end of a line stands there too when comments are taken off, or it is
part of a comment. -/
theorem outsideComments_carriageReturn (inside : Bool) (s : List Char) :
    outsideComments inside (s ++ ['\r']) = outsideComments inside s ∨
      outsideComments inside (s ++ ['\r']) = outsideComments inside s ++ ['\r'] := by
  fun_induction outsideComments inside s with
  | case1 inside =>
    cases inside with
    | true => exact .inl rfl
    | false => exact .inr rfl
  | case2 c rest ih => exact ih
  | case3 rest ih => exact ih
  | case4 rest other => exact .inl (by rw [List.cons_append, outsideComments, if_neg other, if_pos rfl])
  | case5 c rest notOpen notComment ih =>
    rw [List.cons_append, outsideComments, if_neg notOpen, if_neg notComment]
    exact ih.imp (congrArg (c :: ·)) (congrArg (c :: ·))

end Gcode

namespace Toolpath

/-- **A carriage return at the end of a line** makes no difference to its words. -/
theorem commandWords_dropCarriageReturn (l : List Char) :
    commandWords (dropCarriageReturn l) = commandWords l := by
  unfold dropCarriageReturn
  split
  · next last =>
    obtain ⟨front, rfl⟩ := List.getLast?_eq_some_iff.mp last
    have blank : isBlank '\r' = true := rfl
    have stripped : stripComments (front ++ ['\r']) = stripComments front := by
      rw [stripComments_eq, stripComments_eq]
      rcases outsideComments_carriageReturn false front with same | longer
      · rw [same]
      · rw [longer, trim_concat_blank blank]
    rw [List.dropLast_concat, commandWords, commandWords, stripped, isBlankOrComment,
      isBlankOrComment, trim_concat_blank blank]
  · rfl

/-- **The words of the last line** are the same whether a line feed follows or not; after a line
feed there is one line more, which is empty. -/
theorem commandWords_closedLines (text : List Char) :
    (closedLines text).map commandWords = (lines text).map commandWords ∨
      (closedLines text).map commandWords = (lines text ++ [[]]).map commandWords := by
  obtain ⟨ls, l, pieces⟩ :=
    (List.eq_nil_or_concat' (text.splitOn '\n')).resolve_left (List.splitOn_ne_nil '\n' text)
  have closed : (closedLines text).map commandWords
      = (ls.map dropCarriageReturn ++ [l]).map commandWords := by
    rw [closedLines, pieces]
    simp [commandWords_dropCarriageReturn]
  have open_ : lines text = ls.map dropCarriageReturn ++ if l.isEmpty then [] else [l] := by
    simp [lines, pieces]
  rw [closed, open_]
  cases l with
  | nil => exact .inr (by simp)
  | cons c l => exact .inl rfl

variable {α : Type} [Scalar α]

/-! ## What is known of the lines before -/

/-- A path is drawn from the words of the lines. -/
theorem chordsFrom_congr {ls ms : List (List Char)}
    (same : ls.map commandWords = ms.map commandWords) (o : Flattening α) (p : Point α) (n : Nat) :
    chordsFrom o p n ls = chordsFrom o p n ms := by
  induction ls generalizing ms p n with
  | nil =>
    obtain rfl := List.map_eq_nil_iff.mp same.symm
    rfl
  | cons l ls ih =>
    obtain ⟨m, ms, rfl, own, rest⟩ := List.map_eq_cons_iff.mp same.symm
    simp only [chordsFrom, own, ih rest.symm]

theorem positionAfter_congr {ls ms : List (List Char)}
    (same : ls.map commandWords = ms.map commandWords) :
    positionAfter (α := α) ls = positionAfter ms := by
  have named (axis : Char) (ls : List (List Char)) :
      ls.filterMap (axisWord? (α := α) axis) = (ls.map commandWords).filterMap fun ws =>
        if (motion? α ws).isSome then valueOf? ws axis else none := by
    rw [List.filterMap_map]
    rfl
  simp only [positionAfter, lastNamed, named, same]

/-- **More lines draw from the modal position** that the lines before lead to. -/
theorem chordsFrom_append (o : Flattening α) (before ls ms : List (List Char)) :
    chordsFrom o (positionAfter before) before.length (ls ++ ms)
      = chordsFrom o (positionAfter before) before.length ls
        ++ chordsFrom o (positionAfter (before ++ ls)) (before ++ ls).length ms := by
  induction ls generalizing before with
  | nil => rw [List.append_nil]; rfl
  | cons l ls ih =>
    have rest := ih (before ++ [l])
    rw [List.length_append, List.length_singleton, List.append_assoc, List.singleton_append] at rest
    rw [List.cons_append]
    simp only [chordsFrom, step_position, rest, List.append_assoc]

/-- **Lines that are counted on** draw the same chords. -/
theorem chordsFrom_renumber (o : Flattening α) (p : Point α) (n k : Nat) (ls : List (List Char)) :
    chordsFrom o p (n + k) ls = (chordsFrom o p n ls).map fun c => { c with line := c.line + k } := by
  induction ls generalizing p n with
  | nil => rfl
  | cons l ls ih =>
    have own : ((step o p n (commandWords l)).2.map fun c => { c with line := n + k })
        = (step o p n (commandWords l)).2.map fun c => { c with line := c.line + k } :=
      List.map_congr_left fun c drawn => by rw [line_of_step drawn]
    simp only [chordsFrom, List.map_append]
    rw [step_relabel o p (n + k) n, own, Nat.add_right_comm, ih]

/-- The length of a path up to the end of some chords. -/
def lengthAfter (travelled : α) (cs : List (Chord α)) : α :=
  ((measure travelled cs).getLast?.map (·.travelled)).getD travelled

/-- **More chords are measured from the length** that the chords before lead to. -/
theorem measure_append (t : α) (cs ds : List (Chord α)) :
    measure t (cs ++ ds) = measure t cs ++ measure (lengthAfter t cs) ds := by
  induction cs generalizing t with
  | nil => rfl
  | cons c cs ih =>
    have rest : lengthAfter t (c :: cs) = lengthAfter (t + c.start.distance c.finish) cs := by
      simp only [lengthAfter, measure, List.getLast?_cons]
      cases (measure (t + c.start.distance c.finish) cs).getLast? <;> rfl
    rw [List.cons_append, rest, measure, measure, ih, List.cons_append]

/-! ## One text after another -/

/-- **What a text draws from a position and a length on**, with its lines counted from zero. -/
def drawnFrom (o : Flattening α) (position : Point α) (travelled : α) (text : List Char) :
    List (Segment α) :=
  measure travelled (chordsFrom o.sanitized position 0 (lines text))

/-- A program draws from the origin on. -/
theorem ofProgram_segments (o : Flattening α) (text : List Char) :
    (ofProgram o text).segments = drawnFrom o Point.origin Scalar.zero text := rfl

/-- **Appending never changes the path so far.** For all texts and options, the path of a text
with another one on the lines behind it consists of the path of the first text, followed by what the
second text draws from the modal position and the length that the first one leads to. The lines of
the second text are counted on from the number of line feeds before it. -/
theorem ofProgram_append (o : Flattening α) (a b : List Char) :
    (ofProgram o (a ++ '\n' :: b)).segments
      = (ofProgram o a).segments
        ++ (drawnFrom o (positionAfter (lines a)) (ofProgram o a).totalLength b).map
          fun s => { s with line := s.line + (a.count '\n' + 1) } := by
  have still : ¬ Moves α [] := fun moves => moves rfl
  have known : chordsFrom o.sanitized Point.origin 0 (closedLines a) = chords o.sanitized a
      ∧ positionAfter (α := α) (closedLines a) = positionAfter (lines a) := by
    rcases commandWords_closedLines a with same | blank
    · exact ⟨chordsFrom_congr same _ _ _, positionAfter_congr same⟩
    · have nothing := chordsFrom_append o.sanitized [] (lines a) [[]]
      rw [chordsFrom_congr blank, positionAfter_congr blank, positionAfter_of_still still]
      exact ⟨nothing.trans (List.append_nil _), rfl⟩
  have drawn : chords o.sanitized (a ++ '\n' :: b)
      = chords o.sanitized a
        ++ (chordsFrom o.sanitized (positionAfter (lines a)) 0 (lines b)).map
          fun c => { c with line := c.line + (a.count '\n' + 1) } := by
    have parts := chordsFrom_append o.sanitized [] (closedLines a) (lines b)
    rw [List.nil_append, length_closedLines, ← Nat.zero_add (a.count '\n' + 1),
      chordsFrom_renumber, known.2] at parts
    rw [chords, lines_append_lineFeed]
    exact parts.trans (congrArg (· ++ _) known.1)
  calc (ofProgram o (a ++ '\n' :: b)).segments
      = measure Scalar.zero (chords o.sanitized (a ++ '\n' :: b)) := rfl
    _ = measure Scalar.zero (chords o.sanitized a)
          ++ measure (lengthAfter Scalar.zero (chords o.sanitized a))
            ((chordsFrom o.sanitized (positionAfter (lines a)) 0 (lines b)).map
              fun c => { c with line := c.line + (a.count '\n' + 1) }) := by
      rw [drawn, measure_append]
    _ = _ := congrArg (_ ++ ·) (measure_renumber _ (· + (a.count '\n' + 1)) _)

end Toolpath

end Cnc
