import Mathlib.Data.List.Chain
import Mathlib.Logic.Relation
import Cnc.Toolpath.Basic

/-!
# The shape of a program's path

A path is drawn line by line. Where a line begins is the modal position: each
axis has the value that the last motion line naming it gave
(`Toolpath.positionAfter`). From there a line goes to the target that its own
words name, in one straight piece, in chords of an arc, or without drawing
anything if it is there already.

So the pieces of a path form one chain from the origin. The chain has no gaps,
but a line that draws nothing may still change the sign of a zero: it leads to
a position that compares equal to the one before, and the next piece begins
there (`Toolpath.Still`).
-/

namespace Cnc

open Gcode Text

namespace Toolpath

variable {α : Type} [Scalar α]

/-! ## The modal position -/

/-- What a line says about an axis, if it moves the tool at all. -/
def axisWord? (axis : Char) (line : List Char) : Option α :=
  if (motion? α (commandWords line)).isSome then valueOf? (commandWords line) axis else none

/-- The last value that some lines give an axis; zero if there is none. -/
def lastNamed (axis : Char) (ls : List (List Char)) : α :=
  (ls.filterMap (axisWord? axis)).getLast?.getD Scalar.zero

/-- **The modal position after some lines.** -/
def positionAfter (ls : List (List Char)) : Point α :=
  ⟨lastNamed 'X' ls, lastNamed 'Y' ls, lastNamed 'Z' ls⟩

theorem lastNamed_concat (axis : Char) (ls : List (List Char)) (l : List Char) :
    lastNamed (α := α) axis (ls ++ [l]) = (axisWord? axis l).getD (lastNamed axis ls) := by
  unfold lastNamed
  rw [List.filterMap_append]
  cases word : axisWord? (α := α) axis l <;> simp [word]

/-- **A line leads from the modal position before it to the one after it.** -/
theorem step_position (o : Flattening α) (before : List (List Char)) (n : Nat) (l : List Char) :
    (step o (positionAfter before) n (commandWords l)).1 = positionAfter (before ++ [l]) := by
  simp only [positionAfter, lastNamed_concat, axisWord?]
  cases moves : motion? α (commandWords l) with
  | none => simp [step, moves]
  | some m => simp [step, moves, target]

/-! ## What one line draws -/

/-- Chords that are drawn for another line are the same chords. -/
theorem straight_relabel (kind : MoveKind) (n k : Nat) (p q : Point α) :
    straight kind n p q = (straight kind k p q).map fun c => { c with line := n } := by
  unfold straight
  split <;> rfl

theorem step_relabel (o : Flattening α) (p : Point α) (n k : Nat) (ws : List Word) :
    step o p n ws = ((step o p k ws).1, (step o p k ws).2.map fun c => { c with line := n }) := by
  have circular (a : Arc α) :
      circular o n a = (circular o k a).map fun c => { c with line := n } := by
    unfold Toolpath.circular
    split
    · exact straight_relabel _ _ _ _ _
    · simp
  unfold step
  cases motion? α ws with
  | none => rfl
  | some m =>
    cases m with
    | rapid | linear => simp only [draw, ← straight_relabel]
    | arcClockwise | arcCounterclockwise => simp only [draw, ← circular]

/-- What a line draws bears the line's index. -/
theorem line_of_step {o : Flattening α} {p : Point α} {n : Nat} {ws : List Word} {c : Chord α}
    (drawn : c ∈ (step o p n ws).2) : c.line = n := by
  rw [step_relabel o p n n ws] at drawn
  obtain ⟨d, -, rfl⟩ := List.mem_map.mp drawn
  rfl

/-- The lines of a program bear their own indices. -/
theorem line_of_chordsFrom {o : Flattening α} {p : Point α} {n : Nat} {ls : List (List Char)}
    {c : Chord α} (drawn : c ∈ chordsFrom o p n ls) : n ≤ c.line ∧ c.line < n + ls.length := by
  induction ls generalizing p n with
  | nil => exact absurd drawn (by simp [chordsFrom])
  | cons l ls ih =>
    simp only [chordsFrom, List.mem_append] at drawn
    rw [List.length_cons]
    rcases drawn with now | later
    · have := line_of_step now
      omega
    · have := ih later
      omega

/-- **What is drawn for the line with an index** is what this line draws from the modal position. -/
theorem chordsFrom_filter (o : Flattening α) (before ls : List (List Char)) {k : Nat}
    {l : List Char} (here : ls[k]? = some l) :
    (chordsFrom o (positionAfter before) before.length ls).filter (·.line = before.length + k)
      = (step o (positionAfter (before ++ ls.take k)) (before.length + k) (commandWords l)).2 := by
  induction ls generalizing before k with
  | nil => exact absurd here (by simp)
  | cons l' ls ih =>
    have next := step_position o before before.length l'
    simp only [chordsFrom, next, List.filter_append]
    cases k with
    | zero =>
      obtain rfl := Option.some.inj here
      have own : ∀ c ∈ (step o (positionAfter before) before.length (commandWords l')).2,
          decide (c.line = before.length + 0) = true :=
        fun c drawn => by simpa using line_of_step drawn
      have others : ∀ c ∈ chordsFrom o (positionAfter (before ++ [l'])) (before.length + 1) ls,
          ¬ decide (c.line = before.length + 0) = true := by
        intro c drawn
        have := line_of_chordsFrom drawn
        simp only [decide_eq_true_eq]
        omega
      rw [List.filter_eq_self.mpr own, List.filter_eq_nil_iff.mpr others, List.append_nil,
        List.take_zero, List.append_nil, Nat.add_zero]
    | succ k =>
      have own : ∀ c ∈ (step o (positionAfter before) before.length (commandWords l')).2,
          ¬ decide (c.line = before.length + (k + 1)) = true := by
        intro c drawn
        have := line_of_step drawn
        simp only [decide_eq_true_eq]
        omega
      have later := ih (before ++ [l']) (k := k) here
      rw [List.length_append, List.length_singleton, Nat.add_assoc, Nat.add_comm 1 k,
        List.append_assoc] at later
      rw [List.filter_eq_nil_iff.mpr own, List.nil_append, List.take_succ_cons]
      exact later

/-! ## One chain -/

/-- **The tool stays where it is**, up to positions that compare equal. -/
def Still : Point α → Point α → Prop := Relation.ReflTransGen fun p q => q.same p = true

/-- Chords that lead from one position to another without a gap. -/
def Leads (p : Point α) : List (Chord α) → Point α → Prop
  | [], q => Still p q
  | c :: cs, q => Still p c.start ∧ Leads c.finish cs q

theorem Leads.still {p q r : Point α} {cs : List (Chord α)} (still : Still p q)
    (leads : Leads q cs r) : Leads p cs r := by
  cases cs with
  | nil => exact still.trans leads
  | cons c cs => exact ⟨still.trans leads.1, leads.2⟩

theorem Leads.append {p q r : Point α} {cs ds : List (Chord α)} (first : Leads p cs q)
    (second : Leads q ds r) : Leads p (cs ++ ds) r := by
  induction cs generalizing p with
  | nil => exact second.still first
  | cons c cs ih => exact ⟨first.1, ih first.2⟩

theorem straight_leads (kind : MoveKind) (n : Nat) (p q : Point α) :
    Leads p (straight kind n p q) q := by
  unfold straight
  split
  · next same => exact .single same
  · exact ⟨.refl, .refl⟩

/-- The chords of an arc lead from vertex to vertex. -/
theorem vertices_lead (a : Arc α) (line n m : Nat) :
    Leads (a.vertex n 0)
      ((List.range m).map fun k => ⟨.arc, line, a.vertex n k, a.vertex n (k + 1)⟩)
      (a.vertex n m) := by
  induction m with
  | zero => exact .refl
  | succ m ih =>
    rw [List.range_succ, List.map_append, List.map_singleton]
    exact ih.append ⟨.refl, .refl⟩

theorem vertex_last (a : Arc α) {n : Nat} (some : 1 ≤ n) : a.vertex n n = a.target := by
  rw [Arc.vertex, if_neg (by omega), if_pos rfl]

/-- **Sanitized bounds** on the number of chords are bounds, and allow none to be missing. -/
theorem sanitized_bounds (o : Flattening α) :
    1 ≤ o.sanitized.least ∧ o.sanitized.least ≤ o.sanitized.most :=
  ⟨Nat.le_max_right _ _, Nat.le_max_right _ _⟩

theorem chords_bounds (a : Arc α) {o : Flattening α} (ordered : o.least ≤ o.most) :
    o.least ≤ a.chords o ∧ a.chords o ≤ o.most :=
  ⟨Nat.le_min.mpr ⟨Nat.le_max_right _ _, ordered⟩, Nat.min_le_right _ _⟩

theorem circular_leads (o : Flattening α) (line : Nat) (a : Arc α) :
    Leads a.start (circular o.sanitized line a) a.target := by
  unfold circular
  split
  · exact straight_leads _ _ _ _
  · have one := (sanitized_bounds o).1
    have least := (chords_bounds a (sanitized_bounds o).2).1
    have leads := vertices_lead a line (a.chords o.sanitized) (a.chords o.sanitized)
    rw [vertex_last a (by omega)] at leads
    exact leads

/-- **A line leads from the position before it to the one after it.** -/
theorem step_leads (o : Flattening α) (p : Point α) (n : Nat) (ws : List Word) :
    Leads p (step o.sanitized p n ws).2 (step o.sanitized p n ws).1 := by
  unfold step
  cases motion? α ws with
  | none => exact .refl
  | some m =>
    cases m with
    | rapid | linear => exact straight_leads _ _ _ _
    | arcClockwise => exact circular_leads o n ⟨p, target p ws, _, _, true⟩
    | arcCounterclockwise => exact circular_leads o n ⟨p, target p ws, _, _, false⟩

/-- **A program leads from the origin to the modal position after it.** -/
theorem chordsFrom_leads (o : Flattening α) (before ls : List (List Char)) :
    Leads (positionAfter before)
      (chordsFrom o.sanitized (positionAfter before) before.length ls)
      (positionAfter (before ++ ls)) := by
  induction ls generalizing before with
  | nil =>
    rw [List.append_nil]
    exact .refl
  | cons l ls ih =>
    have rest := ih (before ++ [l])
    rw [List.length_append, List.length_singleton, List.append_assoc] at rest
    simp only [chordsFrom]
    have first := step_leads o (positionAfter before) before.length (commandWords l)
    rw [step_position] at first ⊢
    exact first.append rest

end Toolpath

end Cnc
