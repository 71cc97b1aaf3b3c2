import Cnc.Config
import Cnc.Toolpath.Basic

/-!
# Usable options for arcs

Options are made usable before a path is drawn, and a configuration is checked
when it is read. Both tests are written out by themselves. What making options
usable does is said for all options: the result is usable, what was usable is
kept, and doing it again changes nothing.

For a configuration that passes the check this means that all its options are
kept, with one exception: an infinite chord length passes, because it is greater
than zero, and is then replaced by the standard one
(`Config.sanitized_arcs_eq_iff`).
-/

namespace Cnc

namespace Flattening

/-- **A usable chord length** is finite and positive. -/
def UsableChord (x : Float) : Prop := Scalar.isFinite x = true ∧ Scalar.lt Scalar.zero x = true

/-- **Usable options**: chords have a length, and the bounds on their number are bounds. -/
structure Usable (o : Flattening Float) : Prop where
  chord : UsableChord o.chord
  least : 1 ≤ o.least
  ordered : o.least ≤ o.most

/-- **Options `s` keep what is usable** of the options `o`. -/
structure Keeps (o s : Flattening Float) : Prop where
  chord : UsableChord o.chord → s.chord = o.chord
  least : 1 ≤ o.least → s.least = o.least
  most : s.least ≤ o.most → s.most = o.most

variable (o : Flattening Float)

theorem sanitized_keeps : Keeps o o.sanitized where
  chord usable := if_pos (by rw [usable.1, usable.2]; rfl)
  least some_ := Nat.max_eq_left some_
  most ordered := Nat.max_eq_left ordered

theorem sanitized_usable : o.sanitized.Usable where
  chord := by
    by_cases usable : (Scalar.isFinite o.chord && Scalar.lt Scalar.zero o.chord) = true
    · have kept : o.sanitized.chord = o.chord := if_pos usable
      rw [kept]
      exact Bool.and_eq_true_iff.mp usable
    · have replaced : o.sanitized.chord = (standard : Flattening Float).chord := if_neg usable
      rw [replaced]
      unfold UsableChord
      decide +kernel
  least := Nat.le_max_right _ _
  ordered := Nat.le_max_right _ _

variable {o}

/-- Bounds on the number of chords that are bounds are kept. -/
theorem sanitized_of_bounds (some_ : 1 ≤ o.least) (ordered : o.least ≤ o.most) :
    o.sanitized = { o with chord := o.sanitized.chord } := by
  have least := (sanitized_keeps o).least some_
  have most := (sanitized_keeps o).most (least ▸ ordered)
  rw [← least, ← most]

/-- Nothing of usable options is replaced. -/
theorem sanitized_of_usable (usable : o.Usable) : o.sanitized = o := by
  rw [sanitized_of_bounds usable.least usable.ordered, (sanitized_keeps o).chord usable.chord]

end Flattening

namespace Config

open Flattening

variable {c : Config}

/-- **The configurations that pass the check.** -/
theorem fault?_eq_none_iff : c.fault? = none ↔ c.baud ≠ 0 ∧ c.pollInterval ≠ 0 ∧
    Scalar.lt Scalar.zero c.arcs.chord = true ∧ 1 ≤ c.arcs.least ∧ c.arcs.least ≤ c.arcs.most := by
  grind [fault?]

/-- Options that pass the check are usable if the length of a chord is finite. -/
theorem usable_arcs (accepted : c.fault? = none) (finite : Scalar.isFinite c.arcs.chord = true) :
    c.arcs.Usable := by
  obtain ⟨-, -, positive, some_, ordered⟩ := fault?_eq_none_iff.mp accepted
  exact ⟨⟨finite, positive⟩, some_, ordered⟩

/-- **Options that pass the check are kept, but for an infinite chord length.** Whatever the
options, they are made usable, which keeps what is usable and changes nothing when done again. For a
configuration that passes the check they are the options themselves if and only if the length of a
chord is finite, and then the path of every program is drawn with them; otherwise the standard
length takes the place of the infinite one. -/
theorem sanitized_arcs_eq_iff (o : Flattening Float) (c : Config) :
    (o.sanitized.Usable ∧ Keeps o o.sanitized ∧ o.sanitized.sanitized = o.sanitized) ∧
    (c.fault? = none →
      (c.arcs.sanitized = c.arcs ↔ Scalar.isFinite c.arcs.chord = true) ∧
      (∀ text, Scalar.isFinite c.arcs.chord = true →
        Toolpath.ofProgram c.arcs text = .ofChords (Toolpath.chords c.arcs text)) ∧
      (Scalar.isFinite c.arcs.chord = false →
        c.arcs.sanitized =
          { c.arcs with chord := (Flattening.standard : Flattening Float).chord })) := by
  refine ⟨?_, fun accepted => ?_⟩
  · have usable := sanitized_usable o
    exact ⟨usable, sanitized_keeps o, sanitized_of_usable usable⟩
  · obtain ⟨-, -, -, some_, ordered⟩ := fault?_eq_none_iff.mp accepted
    have kept (finite : Scalar.isFinite c.arcs.chord = true) : c.arcs.sanitized = c.arcs :=
      sanitized_of_usable (usable_arcs accepted finite)
    refine ⟨⟨fun same => ?_, kept⟩, fun text finite => ?_, fun infinite => ?_⟩
    · rw [← same]
      exact (sanitized_usable c.arcs).chord.1
    · rw [Toolpath.ofProgram, kept finite]
    · have chord : c.arcs.sanitized.chord = (Flattening.standard : Flattening Float).chord :=
        if_neg (by rw [infinite]; exact Bool.false_ne_true)
      rw [sanitized_of_bounds some_ ordered, chord]

/-- The least chord length there is, and the largest counters. -/
theorem sanitized_arcs_eq_extreme : ∃ c : Config,
    c.fault? = none ∧ Scalar.isFinite c.arcs.chord = true ∧ c.arcs.least = 0xFFFFFFFFFFFFFFFF ∧
      c.arcs.sanitized = c.arcs := by
  let c : Config := { standard with
    arcs := ⟨Float.ofBits 1, 0xFFFFFFFFFFFFFFFF, 0xFFFFFFFFFFFFFFFF⟩ }
  have accepted : c.fault? = none := by decide +kernel
  have finite : Scalar.isFinite c.arcs.chord = true := by decide +kernel
  exact ⟨c, accepted, finite, rfl, ((sanitized_arcs_eq_iff c.arcs c).2 accepted).1.mpr finite⟩

/-- **An infinite chord length is read without an error, and is not kept.** -/
theorem sanitized_arcs_ne_infinite : ∃ c,
    ofText "[interpreter]\narc_segment_length = inf" = .ok c ∧ c.fault? = none ∧
      c.arcs.sanitized ≠ c.arcs := by
  have read : (ofText "[interpreter]\narc_segment_length = inf").toOption.any
      (fun c => !Scalar.isFinite c.arcs.chord) = true := by
    decide +kernel
  cases text : ofText "[interpreter]\narc_segment_length = inf" with
  | error e =>
    rw [text] at read
    exact absurd read (by simp [Except.toOption])
  | ok c =>
    rw [text] at read
    have infinite : Scalar.isFinite c.arcs.chord = false := by simpa [Except.toOption] using read
    refine ⟨c, rfl, fault?_of_ofText text, fun same => ?_⟩
    have finite := (sanitized_usable c.arcs).chord.1
    rw [same, infinite] at finite
    exact Bool.noConfusion finite

end Config

end Cnc
