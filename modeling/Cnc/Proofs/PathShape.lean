import Mathlib
import Cnc.Proofs.Drawing

/-!
# Paths are well formed

Whatever the text and the options, the path of a program is one chain from
the origin whose lengths add up, and each line contributes to it what its
motion command asks for: nothing, one straight piece, or the chords of an arc
(`Toolpath.wellFormed_ofProgram`).

The chain is that of `Drawing`; measuring it adds to every piece its length
and the running sum, and changes nothing else. Floating-point numbers that
compare equal are the same number, with one exception: the two zeros compare
equal and differ in their sign (`FloatScalar.coincide_of_eq`).
-/

namespace Cnc

open Gcode Text

/-! ## Positions that compare equal -/

namespace Scalar

variable {α : Type} [Scalar α] {x y z : α}

/-- **Two values are identical, or both are zero.** A zero of either sign compares equal to zero. -/
def Coincide (x y : α) : Prop :=
  x = y ∨ Scalar.eq x Scalar.zero = true ∧ Scalar.eq y Scalar.zero = true

theorem Coincide.refl (x : α) : Coincide x x := .inl rfl

theorem Coincide.symm (h : Coincide x y) : Coincide y x := by
  rcases h with rfl | ⟨hx, hy⟩
  · exact .inl rfl
  · exact .inr ⟨hy, hx⟩

theorem Coincide.trans (h : Coincide x y) (k : Coincide y z) : Coincide x z := by
  rcases h with rfl | ⟨hx, hy⟩
  · exact k
  · rcases k with rfl | ⟨-, hz⟩
    · exact .inr ⟨hx, hy⟩
    · exact .inr ⟨hx, hz⟩

end Scalar

/-- **Numbers that compare equal are identical, or zeros.** -/
theorem FloatScalar.coincide_of_eq {x y : Float} (h : Scalar.eq x y = true) :
    Scalar.Coincide x y := by
  have positive : Scalar.eq (0 : Float) Scalar.zero = true := by decide +kernel
  have negative : Scalar.eq (-0 : Float) Scalar.zero = true := by decide +kernel
  obtain ⟨-, -, same | ⟨rfl, rfl⟩ | ⟨rfl, rfl⟩⟩ := Float.beq_iff_ne_nan_and_eq.mp h
  · exact .inl same
  · exact .inr ⟨positive, negative⟩
  · exact .inr ⟨negative, positive⟩

/-- **Two positions coincide**: their coordinates are identical, or zeros of either sign. -/
structure Point.Coincide {α : Type} [Scalar α] (p q : Point α) : Prop where
  x : Scalar.Coincide p.x q.x
  y : Scalar.Coincide p.y q.y
  z : Scalar.Coincide p.z q.z

theorem Point.Coincide.symm {α : Type} [Scalar α] {p q : Point α} (h : p.Coincide q) :
    q.Coincide p :=
  ⟨h.x.symm, h.y.symm, h.z.symm⟩

namespace Toolpath

variable {α : Type} [Scalar α]

/-- Where values that compare equal coincide, a tool that stays where it is leads to positions that
coincide. -/
theorem Still.coincide (law : ∀ x y : α, Scalar.eq x y = true → Scalar.Coincide x y)
    {p q : Point α} (still : Still p q) : p.Coincide q := by
  induction still with
  | refl => exact ⟨.refl _, .refl _, .refl _⟩
  | @tail q r _ same ih =>
    simp only [Point.same, Bool.and_eq_true] at same
    obtain ⟨⟨hx, hy⟩, hz⟩ := same
    exact ⟨ih.x.trans (law _ _ hx).symm, ih.y.trans (law _ _ hy).symm,
      ih.z.trans (law _ _ hz).symm⟩

theorem Leads.chain {p q : Point α} {cs : List (Chord α)} (leads : Leads p cs q) :
    (∀ c ∈ cs.head?, Still p c.start) ∧ cs.IsChain fun c d => Still c.finish d.start := by
  induction cs generalizing p with
  | nil => exact ⟨by simp, .nil⟩
  | cons c cs ih =>
    obtain ⟨first, rest⟩ := ih leads.2
    refine ⟨fun d own => ?_, List.isChain_cons.mpr ⟨fun d next => first d next, rest⟩⟩
    obtain rfl : c = d := by simpa using own
    exact leads.1

/-! ## Measuring -/

/-- Measuring changes nothing of what is drawn. -/
theorem measure_chords (t : α) (cs : List (Chord α)) :
    (measure t cs).map Segment.toChord = cs := by
  induction cs generalizing t with
  | nil => rfl
  | cons c cs ih => rw [measure, List.map_cons, ih]

theorem measure_filter (t : α) (cs : List (Chord α)) (n : Nat) :
    ((measure t cs).filter (·.line = n)).map Segment.toChord = cs.filter (·.line = n) := by
  conv_rhs => rw [← measure_chords t cs]
  rw [List.filter_map]
  rfl

theorem measure_length {t : α} {cs : List (Chord α)} {s : Segment α} (piece : s ∈ measure t cs) :
    s.length = s.start.distance s.finish := by
  induction cs generalizing t with
  | nil => exact absurd piece (by simp [measure])
  | cons c cs ih =>
    rw [measure, List.mem_cons] at piece
    rcases piece with rfl | later
    · rfl
    · exact ih later

/-- **The travelled lengths are the running sums**, each the one before and the length of the
piece. -/
theorem measure_sums (t : α) (cs : List (Chord α)) :
    (∀ s ∈ (measure t cs).head?, s.travelled = t + s.length) ∧
      (measure t cs).IsChain fun s u => u.travelled = s.travelled + u.length := by
  induction cs generalizing t with
  | nil => exact ⟨by simp [measure], .nil⟩
  | cons c cs ih =>
    obtain ⟨first, rest⟩ := ih (t + c.start.distance c.finish)
    refine ⟨fun s own => ?_, List.isChain_cons.mpr ⟨fun s next => first s next, rest⟩⟩
    obtain rfl := Option.some.inj own
    rfl

/-- The lines of a path never go back. -/
theorem chordsFrom_ascending (o : Flattening α) (p : Point α) (n : Nat) (ls : List (List Char)) :
    (chordsFrom o p n ls).Pairwise (·.line ≤ ·.line) := by
  induction ls generalizing p n with
  | nil => exact .nil
  | cons l ls ih =>
    simp only [chordsFrom]
    refine List.pairwise_append.mpr ⟨?_, ih _ _, fun c now d later => ?_⟩
    · refine List.pairwise_of_forall_mem_list fun c now d now' => ?_
      rw [line_of_step now, line_of_step now']
    · have := line_of_step now
      have := line_of_chordsFrom later
      omega

/-! ## What a line contributes -/

/-- **A straight move**: one piece from the position to the target, or none if these compare
equal. -/
structure StraightMove (kind : MoveKind) (position goal : Point α) (ss : List (Segment α)) :
    Prop where
  atMostOne : ss.length ≤ 1
  still : ss = [] ↔ goal.same position = true
  piece : ∀ s ∈ ss, s.kind = kind ∧ s.start = position ∧ s.finish = goal

/-- **An arc**: a run of chords from the position to the target, as many as the options allow. -/
structure ArcMove (o : Flattening α) (position goal : Point α) (ss : List (Segment α)) : Prop where
  kind : ∀ s ∈ ss, s.kind = .arc
  least : o.sanitized.least ≤ ss.length
  most : ss.length ≤ o.sanitized.most
  begins : ∀ s ∈ ss.head?, s.start = position
  ends : ∀ s ∈ ss.getLast?, s.finish = goal

/-- **What a line contributes to the path** from a position, by its motion command and the radius of
its arc. -/
def Contributes (o : Flattening α) (position : Point α) (ws : List Word) (ss : List (Segment α)) :
    Prop :=
  let i : α := (valueOf? ws 'I').getD Scalar.zero
  let j : α := (valueOf? ws 'J').getD Scalar.zero
  match motion? α ws with
  | none => ss = []
  | some .rapid => StraightMove .rapid position (target position ws) ss
  | some .linear => StraightMove .feed position (target position ws) ss
  | some _ =>
    if Scalar.lt (Scalar.hypot i j) (Scalar.ofDecimal ⟨false, 1, -9⟩) then
      StraightMove .feed position (target position ws) ss
    else ArcMove o position (target position ws) ss

theorem StraightMove.of_straight {kind : MoveKind} {n : Nat} {p q : Point α}
    {ss : List (Segment α)} (drawn : ss.map Segment.toChord = straight kind n p q) :
    StraightMove kind p q ss := by
  unfold straight at drawn
  split at drawn
  · next same =>
    obtain rfl := List.map_eq_nil_iff.mp drawn
    exact ⟨Nat.zero_le _, by simp [same], by simp⟩
  · next apart =>
    obtain ⟨s, rfl, own⟩ := List.map_eq_singleton_iff.mp drawn
    refine ⟨Nat.le_refl _, by simp [apart], fun u piece => ?_⟩
    obtain rfl := List.mem_singleton.mp piece
    exact ⟨congrArg Chord.kind own, congrArg Chord.start own, congrArg Chord.finish own⟩

theorem ArcMove.of_vertices {o : Flattening α} {a : Arc α} {line : Nat} {ss : List (Segment α)}
    (drawn : ss.map Segment.toChord = (List.range (a.chords o.sanitized)).map fun k =>
      ⟨.arc, line, a.vertex (a.chords o.sanitized) k, a.vertex (a.chords o.sanitized) (k + 1)⟩) :
    ArcMove o a.start a.target ss := by
  have one := (sanitized_bounds o).1
  obtain ⟨least, most⟩ := chords_bounds a (sanitized_bounds o).2
  obtain ⟨m, count⟩ : ∃ m, a.chords o.sanitized = m + 1 :=
    ⟨a.chords o.sanitized - 1, by omega⟩
  have length : ss.length = a.chords o.sanitized := by
    simpa using congrArg List.length drawn
  constructor
  case kind =>
    intro s piece
    have chord := List.mem_map_of_mem (f := Segment.toChord) piece
    rw [drawn] at chord
    obtain ⟨k, -, own⟩ := List.mem_map.mp chord
    exact (congrArg Chord.kind own).symm
  case least => rw [length]; exact least
  case most => rw [length]; exact most
  case begins =>
    intro s first
    have head := congrArg List.head? drawn
    rw [List.head?_map, first, count, List.range_succ_eq_map] at head
    exact congrArg Chord.start (Option.some.inj head)
  case ends =>
    intro s last
    have tail := congrArg List.getLast? drawn
    rw [List.getLast?_map, last, count, List.range_succ, List.map_append,
      List.map_singleton, List.getLast?_concat] at tail
    have finish : s.finish = a.vertex (m + 1) (m + 1) :=
      congrArg Chord.finish (Option.some.inj tail)
    rw [finish, vertex_last a (by omega)]

theorem contributes_of_step {o : Flattening α} {p : Point α} {n : Nat} {ws : List Word}
    {ss : List (Segment α)} (drawn : ss.map Segment.toChord = (step o.sanitized p n ws).2) :
    Contributes o p ws ss := by
  have circular {a : Arc α} (drawn : ss.map Segment.toChord = circular o.sanitized n a) :
      if Scalar.lt (Scalar.hypot a.i a.j) (Scalar.ofDecimal ⟨false, 1, -9⟩) then
        StraightMove .feed a.start a.target ss
      else ArcMove o a.start a.target ss := by
    unfold Toolpath.circular at drawn
    show if a.isDegenerate then _ else _
    split at drawn
    · next small =>
      rw [if_pos small]
      exact .of_straight drawn
    · next large =>
      rw [if_neg large]
      exact .of_vertices drawn
  unfold Contributes
  unfold step at drawn
  cases moves : motion? α ws with
  | none => simpa [moves] using drawn
  | some m =>
    simp only [moves] at drawn
    cases m with
    | rapid | linear => exact .of_straight drawn
    | arcClockwise => exact circular (a := ⟨p, target p ws, _, _, true⟩) drawn
    | arcCounterclockwise => exact circular (a := ⟨p, target p ws, _, _, false⟩) drawn

/-- A line that contributes anything ends at its target. -/
theorem Contributes.ends {o : Flattening α} {p : Point α} {ws : List Word} {ss : List (Segment α)}
    (contributes : Contributes o p ws ss) : ∀ s ∈ ss.getLast?, s.finish = target p ws := by
  intro s last
  have piece := List.mem_of_getLast? last
  unfold Contributes at contributes
  cases moves : motion? α ws with
  | none =>
    simp only [moves] at contributes
    rw [contributes] at piece
    exact absurd piece (by simp)
  | some m =>
    simp only [moves] at contributes
    cases m with
    | rapid | linear => exact (contributes.piece s piece).2.2
    | arcClockwise | arcCounterclockwise =>
      dsimp only at contributes
      split at contributes
      · exact (contributes.piece s piece).2.2
      · exact contributes.ends s last

/-! ## The whole path -/

/-- **A path of a program is well formed.** -/
structure WellFormed (o : Flattening α) (text : List Char) (path : Toolpath α) : Prop where
  /-- The number of chords of an arc is bounded by what can be bounds. -/
  bounds : 1 ≤ o.sanitized.least ∧ o.sanitized.least ≤ o.sanitized.most
  begins : ∀ s ∈ path.segments.head?, s.start.Coincide Point.origin
  chained : path.segments.IsChain fun s u => u.start.Coincide s.finish
  length : ∀ s ∈ path.segments, s.length = s.start.distance s.finish
  first : ∀ s ∈ path.segments.head?, s.travelled = Scalar.zero + s.length
  sums : path.segments.IsChain fun s u => u.travelled = s.travelled + u.length
  total : path.totalLength = (path.segments.getLast?.map (·.travelled)).getD Scalar.zero
  ascending : path.segments.Pairwise (·.line ≤ ·.line)
  /-- Every piece comes from a line of the text, -/
  known : ∀ s ∈ path.segments, s.line < (lines text).length
  /-- every line contributes what it asks for from the modal position before it, -/
  line : ∀ (n : Nat) (l : List Char), (lines text)[n]? = some l →
    Contributes o (positionAfter ((lines text).take n)) (commandWords l)
      (path.segments.filter (·.line = n))
  /-- and ends exactly at its target. -/
  ends : ∀ (n : Nat) (l : List Char), (lines text)[n]? = some l →
    ∀ s ∈ (path.segments.filter (·.line = n)).getLast?,
      s.finish = target (positionAfter ((lines text).take n)) (commandWords l)

/-- **Each line of a program contributes** what it asks for from the modal position before it. -/
theorem contributes_ofProgram (o : Flattening α) {text l : List Char} {n : Nat}
    (here : (lines text)[n]? = some l) :
    Contributes o (positionAfter ((lines text).take n)) (commandWords l)
      ((ofProgram o text).segments.filter (·.line = n)) := by
  have own := chordsFrom_filter o.sanitized [] (lines text) here
  rw [List.nil_append, List.length_nil, Nat.zero_add] at own
  exact contributes_of_step ((measure_filter _ _ _).trans own)

/-- Every piece of a path comes from a line of the text. -/
theorem line_of_ofProgram {o : Flattening α} {text : List Char} {s : Segment α}
    (piece : s ∈ (ofProgram o text).segments) : s.line < (lines text).length := by
  have drawn : (ofProgram o text).segments.map Segment.toChord = chords o.sanitized text :=
    measure_chords _ _
  have chord := List.mem_map_of_mem (f := Segment.toChord) piece
  rw [drawn] at chord
  simpa using (line_of_chordsFrom chord).2

/-- Paths are well formed in every arithmetic in which values that compare equal coincide. -/
theorem wellFormed_of_law (law : ∀ x y : α, Scalar.eq x y = true → Scalar.Coincide x y)
    (o : Flattening α) (text : List Char) : WellFormed o text (ofProgram o text) := by
  have leads : (∀ c ∈ (chords o.sanitized text).head?, Still Point.origin c.start) ∧
      (chords o.sanitized text).IsChain fun c d => Still c.finish d.start :=
    (chordsFrom_leads o [] (lines text)).chain
  have sums := measure_sums Scalar.zero (chords o.sanitized text)
  have drawn : (ofProgram o text).segments.map Segment.toChord = chords o.sanitized text :=
    measure_chords _ _
  constructor
  case bounds => exact sanitized_bounds o
  case begins =>
    intro s first
    refine (leads.1 s.toChord ?_).coincide law |>.symm
    rw [← drawn, List.head?_map, first]
    rfl
  case chained =>
    have chain := leads.2
    rw [← drawn, List.isChain_map] at chain
    exact chain.imp fun s u still => (still.coincide law).symm
  case length => exact fun s piece => measure_length piece
  case first => exact sums.1
  case sums => exact sums.2
  case total => rfl
  case ascending =>
    have ascending : (chords o.sanitized text).Pairwise (·.line ≤ ·.line) :=
      chordsFrom_ascending _ _ _ _
    rw [← drawn, List.pairwise_map] at ascending
    exact ascending
  case known => exact fun s => line_of_ofProgram
  case line => exact fun n l => contributes_ofProgram o
  case ends => exact fun n l here => (contributes_ofProgram o here).ends

/-- **The path of every program is well formed**, in floating-point numbers and whatever the
options. -/
theorem wellFormed_ofProgram (o : Flattening Float) (text : List Char) :
    WellFormed o text (ofProgram o text) :=
  wellFormed_of_law (fun _ _ => FloatScalar.coincide_of_eq) o text

end Toolpath

end Cnc
