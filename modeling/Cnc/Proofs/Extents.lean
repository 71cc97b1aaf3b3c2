import Cnc.Toolpath.Bounds
import Cnc.Proofs.Ordering
import Cnc.Proofs.PathShape

/-!
# The extent of a program is that of its path

The extent of a program is read off the text alone, and its path is drawn from
the same text another time. Both keep a modal position, and both move it at the
same lines if every motion command is the first word of its line. Then the box
is the one around the origin and the ends of the lines of the path
(`extent_fits_path`).

Between the two stand the positions that the lines lead through
(`Toolpath.turns`). The extent takes in each of them (`extentFrom_measures`). A
line of the path ends at the position that the line leads to, and a line that
draws nothing leads to one that compares equal to the position before it, so
nothing is lost if only the ends of drawn lines are looked at
(`Toolpath.reached_near`).
-/

namespace Cnc

open Gcode Text Scalar

variable {α : Type} [Scalar α]

/-! ## Finite positions -/

/-- What is read from an axis word is finite. -/
theorem Gcode.finite_of_valueOf? {ws : List Word} {axis : Char} {x : α}
    (named : valueOf? ws axis = some x) : Scalar.isFinite x = true := by
  obtain ⟨w, -, number⟩ := List.exists_of_findSome?_eq_some named
  exact (Option.filter_eq_some_iff.mp number).2

namespace Point

/-- The coordinates of a position are finite. -/
structure Finite (p : Point α) : Prop where
  x : Scalar.isFinite p.x = true
  y : Scalar.isFinite p.y = true
  z : Scalar.isFinite p.z = true

variable [Ordered α] {p q r : Point α}

theorem Finite.same_self (finite : p.Finite) : p.same p = true := by
  simp [same, Ordered.number_of_finite, finite.x, finite.y, finite.z]

theorem same_trans (h : p.same q = true) (k : q.same r = true) : p.same r = true := by
  simp only [same, Bool.and_eq_true] at h k ⊢
  exact ⟨⟨eq_trans h.1.1 k.1.1, eq_trans h.1.2 k.1.2⟩, eq_trans h.2 k.2⟩

end Point

/-! ## Boxes around positions -/

namespace Extent

/-- **A box fits some positions**: its sides are the least and the greatest X and Y among them. -/
structure Fits (e : Extent α) (ps : Set (Point α)) : Prop where
  minX : Least e.minX (Point.x '' ps)
  maxX : Greatest e.maxX (Point.x '' ps)
  minY : Least e.minY (Point.y '' ps)
  maxY : Greatest e.maxY (Point.y '' ps)

variable [Ordered α] {e : Extent α} {p : Point α} {ps qs : Set (Point α)}

/-- The box that holds one position fits it. -/
theorem fits_single (finite : p.Finite) : (single p.x p.y).Fits {p} := by
  have x := Ordered.number_of_finite finite.x
  have y := Ordered.number_of_finite finite.y
  constructor <;> rw [Set.image_singleton]
  · exact Extreme.singleton x (le_refl_of_number x)
  · exact Extreme.singleton x (le_refl_of_number x)
  · exact Extreme.singleton y (le_refl_of_number y)
  · exact Extreme.singleton y (le_refl_of_number y)

/-- **A box that takes in one more position** fits it too. -/
theorem Fits.add (fits : e.Fits ps) (finite : p.Finite) : (e.add p.x p.y).Fits (insert p ps) := by
  constructor <;> rw [Set.image_insert_eq]
  · exact fits.minX.insert (Ordered.number_of_finite finite.x)
  · exact fits.maxX.insert (Ordered.number_of_finite finite.x)
  · exact fits.minY.insert (Ordered.number_of_finite finite.y)
  · exact fits.maxY.insert (Ordered.number_of_finite finite.y)

/-- **Positions that have their equals among the others** make no difference. -/
theorem Fits.subset (fits : e.Fits ps) (sub : qs ⊆ ps)
    (near : ∀ p ∈ ps, ∃ q ∈ qs, p.same q = true) : e.Fits qs := by
  have nearX : ∀ x ∈ Point.x '' ps, ∃ z ∈ Point.x '' qs, Scalar.eq x z = true := by
    rintro _ ⟨p, own, rfl⟩
    obtain ⟨q, own', same⟩ := near p own
    simp only [Point.same, Bool.and_eq_true] at same
    exact ⟨q.x, ⟨q, own', rfl⟩, same.1.1⟩
  have nearY : ∀ y ∈ Point.y '' ps, ∃ z ∈ Point.y '' qs, Scalar.eq y z = true := by
    rintro _ ⟨p, own, rfl⟩
    obtain ⟨q, own', same⟩ := near p own
    simp only [Point.same, Bool.and_eq_true] at same
    exact ⟨q.y, ⟨q, own', rfl⟩, same.1.2⟩
  exact ⟨Extreme.subset fits.minX (Set.image_mono sub) nearX,
    Extreme.subset fits.maxX (Set.image_mono sub) nearX,
    Extreme.subset fits.minY (Set.image_mono sub) nearY,
    Extreme.subset fits.maxY (Set.image_mono sub) nearY⟩

end Extent

/-! ## The positions that a program leads through -/

namespace Toolpath

/-- Whether a line moves the tool. -/
def Moves (α : Type) [Scalar α] (l : List Char) : Prop := motion? α (commandWords l) ≠ none

variable {l : List Char}

/-- A line that does not move the tool leaves it where it is. -/
theorem positionAfter_of_still (still : ¬ Moves α l) (ls : List (List Char)) :
    positionAfter (α := α) (ls ++ [l]) = positionAfter ls := by
  have none : motion? α (commandWords l) = none := not_not.mp still
  simp [positionAfter, lastNamed_concat, axisWord?, none]

/-- A line that moves the tool leads to its target. -/
theorem positionAfter_of_moves (moves : Moves α l) (ls : List (List Char)) :
    positionAfter (α := α) (ls ++ [l]) = target (positionAfter ls) (commandWords l) := by
  have some_ : (motion? α (commandWords l)).isSome = true := Option.isSome_iff_ne_none.mpr moves
  simp [positionAfter, lastNamed_concat, axisWord?, some_, target]

/-- **Modal positions are finite.** -/
theorem finite_positionAfter [Ordered α] (ls : List (List Char)) :
    (positionAfter (α := α) ls).Finite := by
  have finite (axis : Char) : Scalar.isFinite (lastNamed (α := α) axis ls) = true := by
    unfold lastNamed
    cases last : (ls.filterMap (axisWord? (α := α) axis)).getLast? with
    | none => exact Ordered.finite_zero
    | some x =>
      obtain ⟨l, -, named⟩ := List.mem_filterMap.mp (List.mem_of_getLast? last)
      unfold axisWord? at named
      split at named
      · exact finite_of_valueOf? named
      · exact absurd named (by simp)
  exact ⟨finite _, finite _, finite _⟩

/-- **The positions that some lines lead through**: those after each beginning of the lines. -/
def turns (ls : List (List Char)) : Set (Point α) :=
  {p | ∃ front, front <+: ls ∧ positionAfter front = p}

theorem turns_nil : turns (α := α) [] = {Point.origin} := by
  ext p
  simp only [turns, List.prefix_nil, Set.mem_ofPred_eq, exists_eq_left, Set.mem_singleton_iff]
  exact eq_comm

theorem turns_concat (ls : List (List Char)) (l : List Char) :
    turns (α := α) (ls ++ [l]) = insert (positionAfter (ls ++ [l])) (turns ls) := by
  ext p
  simp only [turns, List.prefix_concat_iff, Set.mem_ofPred_eq, Set.mem_insert_iff, or_and_right,
    exists_or, exists_eq_left]
  rw [eq_comm]

theorem positionAfter_mem_turns (ls : List (List Char)) :
    positionAfter (α := α) ls ∈ turns ls := ⟨ls, List.prefix_rfl, rfl⟩

/-! ## Where the lines of a path end -/

/-- **The origin and the ends of the lines of a path**: where the last segment of each line
finishes. -/
def reached (path : Toolpath α) : Set (Point α) :=
  {p | p = Point.origin ∨
    ∃ n, ∃ s ∈ (path.segments.filter (·.line = n)).getLast?, s.finish = p}

/-- A line that contributes nothing does not move the tool, or leads to where it is. -/
theorem Contributes.of_nil {o : Flattening α} {p : Point α} {ws : List Word}
    (contributes : Contributes o p ws []) :
    motion? α ws = none ∨ (target p ws).same p = true := by
  unfold Contributes at contributes
  cases moves : motion? α ws with
  | none => exact .inl rfl
  | some m =>
    simp only [moves] at contributes
    cases m with
    | rapid | linear => exact .inr (contributes.still.mp rfl)
    | arcClockwise | arcCounterclockwise =>
      dsimp only at contributes
      split at contributes
      · exact .inr (contributes.still.mp rfl)
      · exact absurd (Nat.le_trans (sanitized_bounds o).1 contributes.least) (by simp)

/-- **A line of a path ends at the position that the line leads to.** -/
theorem finish_eq_positionAfter (o : Flattening α) {text : List Char} {n : Nat} {s : Segment α}
    (here : (lines text)[n]? = some l)
    (last : s ∈ ((ofProgram o text).segments.filter (·.line = n)).getLast?) :
    s.finish = positionAfter ((lines text).take (n + 1)) := by
  have contributes := contributes_ofProgram o here
  have moves : Moves α l := fun none => by
    unfold Contributes at contributes
    simp only [none] at contributes
    rw [contributes] at last
    exact absurd last (by simp)
  rw [List.take_add_one, here, Option.toList_some, positionAfter_of_moves moves]
  exact contributes.ends s last

/-- **The ends of the lines are positions that the lines lead through.** -/
theorem reached_subset (o : Flattening α) (text : List Char) :
    reached (ofProgram o text) ⊆ turns (lines text) := by
  rintro p (rfl | ⟨n, s, last, rfl⟩)
  · exact ⟨[], List.nil_prefix, rfl⟩
  · obtain ⟨piece, own⟩ := List.mem_filter.mp (List.mem_of_getLast? last)
    have bound := line_of_ofProgram piece
    rw [of_decide_eq_true own] at bound
    refine ⟨(lines text).take (n + 1), List.take_prefix _ _, ?_⟩
    exact (finish_eq_positionAfter o (List.getElem?_eq_getElem bound) last).symm

/-- **Every position that the lines lead through compares equal to an end of one**, because a line
that draws nothing leads to where the tool is. -/
theorem reached_near [Ordered α] (o : Flattening α) (text : List Char) :
    ∀ p ∈ turns (lines text), ∃ q ∈ reached (ofProgram o text), p.same q = true := by
  rintro p ⟨front, begins, rfl⟩
  induction front using List.reverseRecOn with
  | nil => exact ⟨Point.origin, .inl rfl, (finite_positionAfter []).same_self⟩
  | append_singleton front l ih =>
    have earlier : front <+: lines text := (List.prefix_append front [l]).trans begins
    have before : (lines text).take front.length = front :=
      (List.prefix_iff_eq_take.mp earlier).symm
    have here : (lines text)[front.length]? = some l := by
      obtain ⟨back, parts⟩ := begins
      rw [← parts, List.append_assoc]
      simp
    cases last : ((ofProgram o text).segments.filter (·.line = front.length)).getLast? with
    | some s =>
      have finish := finish_eq_positionAfter o here last
      rw [List.take_add_one, here, before, Option.toList_some] at finish
      refine ⟨s.finish, .inr ⟨front.length, s, last, rfl⟩, ?_⟩
      rw [finish]
      exact (finite_positionAfter _).same_self
    | none =>
      -- the line draws nothing: what is near the position before it is near this one
      obtain ⟨q, own, near⟩ := ih earlier
      have contributes := contributes_ofProgram o here
      rw [before, List.getLast?_eq_none_iff.mp last] at contributes
      by_cases moves : Moves α l
      · rw [positionAfter_of_moves moves]
        exact ⟨q, own, Point.same_trans (contributes.of_nil.resolve_left moves) near⟩
      · rw [positionAfter_of_still moves]
        exact ⟨q, own, near⟩

end Toolpath

/-! ## The extent of a text -/

open Toolpath

/-- A motion command that a line begins with is its motion command. -/
theorem Gcode.motion?_of_leadingMotion? {ws : List Word} {m : Motion}
    (leads : leadingMotion? α ws = some m) : motion? α ws = some m := by
  obtain ⟨w, found, code⟩ := Option.bind_eq_some_iff.mp leads
  obtain ⟨first, letter⟩ := Option.filter_eq_some_iff.mp found
  obtain ⟨rest, rfl⟩ := List.head?_eq_some_iff.mp first
  have letter : w.letter = 'G' := (of_decide_eq_true letter).1
  unfold motion?
  rw [List.filter_cons_of_pos (by simpa using letter), List.findSome?_cons, code]

/-- **Every motion command of some lines begins its line.** -/
def AllLead (α : Type) [Scalar α] (ls : List (List Char)) : Prop :=
  ∀ l ∈ ls, ∀ m, motion? α (commandWords l) = some m → leadingMotion? α (commandWords l) = some m

/-- **What a box says of the lines so far**: there is none as long as no line moves the tool, and
the box fits the positions that the lines lead through. -/
structure Measures (before : List (List Char)) (e : Option (Extent α)) : Prop where
  none_iff : e = none ↔ ∀ l ∈ before, ¬ Moves α l
  fits : (e.getD (Extent.single (positionAfter before).x (positionAfter before).y)).Fits
    (turns before)

namespace Measures

variable {before : List (List Char)} {e : Option (Extent α)} {l : List Char}

/-- A line that does not move the tool makes no difference. -/
theorem still (measures : Measures before e) (still : ¬ Moves α l) :
    Measures (before ++ [l]) e where
  none_iff := by
    rw [measures.none_iff]
    simp [or_imp, forall_and, still]
  fits := by
    rw [turns_concat, positionAfter_of_still still,
      Set.insert_eq_of_mem (positionAfter_mem_turns before)]
    exact measures.fits

variable [Ordered α]

theorem nil : Measures (α := α) [] none where
  none_iff := by simp
  fits := by
    rw [turns_nil]
    exact Extent.fits_single (finite_positionAfter [])

/-- A line that moves the tool adds the position that it leads to. -/
theorem moves (measures : Measures before e) (moves : Moves α l) :
    Measures (before ++ [l])
      (some ((e.getD (Extent.single (positionAfter before).x (positionAfter before).y)).add
        (positionAfter (before ++ [l])).x (positionAfter (before ++ [l])).y)) where
  none_iff := by simp [or_imp, forall_and, moves]
  fits := by
    rw [turns_concat]
    exact measures.fits.add (finite_positionAfter (before ++ [l]))

end Measures

/-- **The extent of a text takes in every position** that its lines lead through. -/
theorem extentFrom_measures [Ordered α] {before ls : List (List Char)} {e : Option (Extent α)}
    (leads : AllLead α ls) (measures : Measures before e) :
    Measures (before ++ ls)
      (extentFrom (positionAfter before).x (positionAfter before).y e ls) := by
  induction ls generalizing before e with
  | nil =>
    rw [List.append_nil]
    exact measures
  | cons l ls ih =>
    have later : AllLead α ls := fun l' own => leads l' (List.mem_cons_of_mem l own)
    rw [List.append_cons]
    unfold extentFrom
    dsimp only
    split
    · next none =>
      have still : ¬ Moves α l := fun moves => by
        obtain ⟨m, motion⟩ := Option.ne_none_iff_exists'.mp moves
        rw [leads l List.mem_cons_self m motion] at none
        exact absurd none (by simp)
      have rest := ih later (measures.still still)
      rwa [positionAfter_of_still still] at rest
    · next some_ =>
      obtain ⟨m, leading⟩ := Option.ne_none_iff_exists'.mp (by simpa using some_)
      have moves : Moves α l := by
        unfold Moves
        rw [motion?_of_leadingMotion? leading]
        exact Option.some_ne_none m
      have rest := ih later (measures.moves moves)
      rwa [positionAfter_of_moves moves] at rest

/-- **The extent of a program is that of its path.** If every motion command of a program begins its
line, the program has no extent exactly if no line has a motion command; and otherwise the sides of
its extent are the least and the greatest X and Y among the origin and the ends of the lines of its
path, whatever the options. All of these are finite. -/
theorem extent_fits_path (o : Flattening Float) (text : List Char)
    (leads : AllLead Float (lines text)) :
    (extent? (α := Float) text = none ↔
        ∀ l ∈ lines text, motion? Float (commandWords l) = none) ∧
      (∀ e, extent? text = some e → e.Fits (reached (ofProgram o text))) ∧
      ∀ p ∈ reached (ofProgram o text), p.Finite := by
  have measures : Measures (lines text) (extent? (α := Float) text) :=
    extentFrom_measures leads .nil
  refine ⟨?_, fun e own => ?_, fun p turn => ?_⟩
  · simpa only [Moves, not_not] using measures.none_iff
  · have fits := measures.fits
    rw [own, Option.getD_some] at fits
    exact fits.subset (reached_subset o text) (reached_near o text)
  · obtain ⟨front, -, rfl⟩ := reached_subset o text turn
    exact finite_positionAfter front

/-- A program with a comment, an arc, a line without a motion command, one that only changes the
height and one that leads nowhere. -/
theorem extent_fits_path_pocket :
    AllLead Float (lines "(pocket)\nG1 X2 Y-1\nM3\nG2 X0 Y3 I1\nG1 Z-5\nG0".toList) ∧
      ∃ e : Extent Float,
        extent? "(pocket)\nG1 X2 Y-1\nM3\nG2 X0 Y3 I1\nG1 Z-5\nG0".toList = some e ∧
        (e.minX == 0 && e.maxX == 2 && e.minY == -1 && e.maxY == 3) = true ∧
        e.Fits (reached (ofProgram .standard
          "(pocket)\nG1 X2 Y-1\nM3\nG2 X0 Y3 I1\nG1 Z-5\nG0".toList)) := by
  have leads : AllLead Float (lines "(pocket)\nG1 X2 Y-1\nM3\nG2 X0 Y3 I1\nG1 Z-5\nG0".toList) := by
    unfold AllLead
    decide +kernel
  have sides : (extent? "(pocket)\nG1 X2 Y-1\nM3\nG2 X0 Y3 I1\nG1 Z-5\nG0".toList).any
      (fun e : Extent Float => e.minX == 0 && e.maxX == 2 && e.minY == -1 && e.maxY == 3)
        = true := by
    decide +kernel
  obtain ⟨e, own, sides⟩ := Option.any_eq_true _ _ |>.mp sides
  exact ⟨leads, e, own, sides, (extent_fits_path .standard _ leads).2.1 e own⟩

end Cnc
