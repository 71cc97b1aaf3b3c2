import Mathlib
import Cnc.Geometry.Scalar

/-!
# Least and greatest numbers

Numbers that are not infinite are ordered, and numbers that compare equal are
on one level (`Scalar.Ordered`): the two zeros are. The least of some numbers
is one that compares equal to one of them and is not above any
(`Scalar.Least`); taking in one number after the other by `Scalar.min` keeps it
(`Scalar.Least.insert`), and so does leaving out numbers that have their equals
among the others (`Scalar.Extreme.subset`).

Floating-point numbers are compared by sign, exponent and mantissa. Taken
together these are a rank in a linear order (`FloatScalar.rank`), and what is
not a number is on no level.
-/

namespace Cnc

/-! ## Numbers in order -/

namespace Scalar

/-- **An arithmetic whose numbers are ordered.** Everything that compares equal to itself is a
number; finite values are, and so is zero. -/
class Ordered (α : Type) [Scalar α] : Prop where
  finite_zero : isFinite (zero : α) = true
  number_of_finite {x : α} : isFinite x = true → eq x x = true
  eq_iff {x y : α} : eq x y = true ↔ le x y = true ∧ le y x = true
  le_of_lt {x y : α} : lt x y = true → le x y = true
  le_of_not_lt {x y : α} : eq x x = true → eq y y = true → lt x y = false → le y x = true
  trans {x y z : α} : le x y = true → le y z = true → le x z = true

variable {α : Type} [Scalar α] [Ordered α] {x y z : α}

theorem eq_symm (h : eq x y = true) : eq y x = true := Ordered.eq_iff.mpr (Ordered.eq_iff.mp h).symm

theorem eq_trans (h : eq x y = true) (k : eq y z = true) : eq x z = true := by
  obtain ⟨up, down⟩ := Ordered.eq_iff.mp h
  obtain ⟨up', down'⟩ := Ordered.eq_iff.mp k
  exact Ordered.eq_iff.mpr ⟨Ordered.trans up up', Ordered.trans down' down⟩

theorem le_refl_of_number (h : eq x x = true) : le x x = true := (Ordered.eq_iff.mp h).1

/-- **The smaller of two numbers** is one of them and not above either. -/
theorem min_spec (hx : eq x x = true) (hy : eq y y = true) :
    (min x y = x ∨ min x y = y) ∧ le (min x y) x = true ∧ le (min x y) y = true := by
  have number : isNaN x = false := by simp [isNaN, hx]
  unfold min
  rw [number, Bool.false_or]
  cases smaller : lt y x with
  | true => exact ⟨.inr rfl, Ordered.le_of_lt smaller, le_refl_of_number hy⟩
  | false => exact ⟨.inl rfl, le_refl_of_number hx, Ordered.le_of_not_lt hy hx smaller⟩

/-- **The larger of two numbers** is one of them and not below either. -/
theorem max_spec (hx : eq x x = true) (hy : eq y y = true) :
    (max x y = x ∨ max x y = y) ∧ le x (max x y) = true ∧ le y (max x y) = true := by
  have number : isNaN x = false := by simp [isNaN, hx]
  unfold max
  rw [number, Bool.false_or]
  cases larger : lt x y with
  | true => exact ⟨.inr rfl, Ordered.le_of_lt larger, le_refl_of_number hy⟩
  | false => exact ⟨.inl rfl, le_refl_of_number hx, Ordered.le_of_not_lt hx hy larger⟩

/-! ## The least and the greatest -/

/-- **A value is at the end of some values**: it compares equal to one of them and stands in a
relation to all. -/
structure Extreme (r : α → α → Bool) (x : α) (s : Set α) : Prop where
  attained : ∃ y ∈ s, eq x y = true
  bound : ∀ y ∈ s, r x y = true

/-- The least of some values. -/
def Least (x : α) (s : Set α) : Prop := Extreme le x s

/-- The greatest of some values. -/
def Greatest (x : α) (s : Set α) : Prop := Extreme (fun x y => le y x) x s

namespace Extreme

variable {r : α → α → Bool} {s t : Set α}

omit [Ordered α] in
/-- The end of one more value, chosen from the end so far and the value. -/
theorem insert (trans : ∀ {a b c}, r a b = true → r b c = true → r a c = true)
    (extreme : Extreme r x s) (number : eq y y = true) (chosen : z = x ∨ z = y)
    (left : r z x = true) (right : r z y = true) : Extreme r z (insert y s) where
  attained := by
    rcases chosen with rfl | rfl
    · obtain ⟨w, own, same⟩ := extreme.attained
      exact ⟨w, Set.mem_insert_of_mem y own, same⟩
    · exact ⟨z, Set.mem_insert z s, number⟩
  bound w own := by
    rcases own with rfl | own
    · exact right
    · exact trans left (extreme.bound w own)

/-- **Values that have their equals among the others** may be left out. -/
theorem subset (extreme : Extreme r x s) (sub : t ⊆ s)
    (near : ∀ y ∈ s, ∃ z ∈ t, eq y z = true) : Extreme r x t where
  attained := by
    obtain ⟨y, own, same⟩ := extreme.attained
    obtain ⟨z, own', same'⟩ := near y own
    exact ⟨z, own', eq_trans same same'⟩
  bound y own := extreme.bound y (sub own)

omit [Ordered α] in
/-- A value that compares equal to itself is at both ends of itself. -/
theorem singleton (number : eq x x = true) (self : r x x = true) : Extreme r x {x} where
  attained := ⟨x, Set.mem_singleton x, number⟩
  bound y own := by rw [Set.mem_singleton_iff.mp own]; exact self

/-- A value at the end of some is a number. -/
theorem number (extreme : Extreme r x s) : eq x x = true := by
  obtain ⟨y, -, same⟩ := extreme.attained
  exact eq_trans same (eq_symm same)

end Extreme

/-- **Taking in one more number** by the smaller of two keeps the least. -/
theorem Least.insert {s : Set α} (least : Least x s) (number : eq y y = true) :
    Least (min x y) (insert y s) :=
  have spec := min_spec (Extreme.number least) number
  Extreme.insert Ordered.trans least number spec.1 spec.2.1 spec.2.2

theorem Greatest.insert {s : Set α} (greatest : Greatest x s) (number : eq y y = true) :
    Greatest (max x y) (insert y s) :=
  have spec := max_spec (Extreme.number greatest) number
  Extreme.insert (fun first second => Ordered.trans second first) greatest number spec.1 spec.2.1
    spec.2.2

end Scalar

/-! ## The order of floating-point numbers -/

namespace FloatScalar

open Float.Model UnpackedFloat

/-- **The rank of a number**: its kind and sign, then the exponent and the mantissa, counted down for
negative numbers. -/
def rank : UnpackedFloat → ℤ ×ₗ ℤ ×ₗ ℤ
  | .infinity .positive => toLex (2, toLex (0, 0))
  | .finite .positive m e _ => toLex (1, toLex (e, (m : ℤ)))
  | .zero _ | .notANumber => toLex (0, toLex (0, 0))
  | .finite .negative m e _ => toLex (-1, toLex (-e, -(m : ℤ)))
  | .infinity .negative => toLex (-2, toLex (0, 0))

variable {u v : UnpackedFloat}

theorem compare_toLex (a b : ℤ) {β : Type} [Ord β] (c d : β) :
    compare (toLex (a, c)) (toLex (b, d)) = (compare a b).then (compare c d) := by
  rw [Prod.Lex.compare_def]
  rfl

theorem compare_natCast (m n : ℕ) : compare (m : ℤ) n = compare m n := by
  rw [← cmp_eq_compare, ← cmp_eq_compare]
  exact Nat.strictMono_cast.cmp_map_eq m n

theorem compare_neg (a b : ℤ) : compare (-a) (-b) = (compare a b).swap := by
  rw [← cmp_eq_compare, ← cmp_eq_compare, cmp_swap]
  exact StrictAnti.cmp_map_eq (fun _ _ => neg_lt_neg) a b

/-- **Numbers are compared by their ranks.** -/
theorem compare_rank (hu : u ≠ .notANumber) (hv : v ≠ .notANumber) :
    u.compare v = some (compare (rank u) (rank v)) := by
  -- unequal kinds or signs decide; of equal ones exponent and mantissa do
  rcases u with s | _ | s | ⟨s, m, e, _⟩ <;> rcases v with t | _ | t | ⟨t, m', e', _⟩
  case notANumber.infinity | notANumber.zero | notANumber.finite | notANumber.notANumber =>
    exact absurd rfl hu
  case infinity.notANumber | zero.notANumber | finite.notANumber => exact absurd rfl hv
  case finite.finite =>
    cases s <;> cases t
    case negative.negative =>
      simp only [UnpackedFloat.compare, rank, compare_toLex, compare_neg, compare_natCast,
        Ordering.swap_then]
      rfl
    case positive.positive =>
      simp only [UnpackedFloat.compare, rank, compare_toLex, compare_natCast]
      rfl
    all_goals
      simp only [UnpackedFloat.compare, rank, compare_toLex]
      rfl
  all_goals
    cases s <;> cases t <;> rfl

/-- What is not a number does not compare to anything. -/
theorem compare_eq_none (h : u = .notANumber ∨ v = .notANumber) : u.compare v = none := by
  rcases h with rfl | rfl
  · rfl
  · cases u with
    | notANumber | zero => rfl
    | infinity s | finite s => cases s <;> rfl

/-- **How numbers compare**, and that nothing else does. -/
theorem compare_eq_some_iff {o : Ordering} : u.compare v = some o ↔
    u ≠ .notANumber ∧ v ≠ .notANumber ∧ compare (rank u) (rank v) = o := by
  by_cases hu : u = .notANumber
  · simp [hu, compare_eq_none]
  · by_cases hv : v = .notANumber
    · simp [hv, compare_eq_none]
    · simp [hu, hv, compare_rank hu hv]

/-- Whether a floating-point number is a number. -/
def IsNumber (x : Float) : Prop := x.toModel.unpack ≠ .notANumber

/-- The rank of a floating-point number. -/
def level (x : Float) : ℤ ×ₗ ℤ ×ₗ ℤ := rank x.toModel.unpack

variable {x y : Float}

theorem eq_iff_level : Scalar.eq x y = true ↔ IsNumber x ∧ IsNumber y ∧ level x = level y := by
  have compares : Scalar.eq x y = (x.toModel.unpack.compare y.toModel.unpack == some .eq) := rfl
  rw [compares, beq_iff_eq, compare_eq_some_iff, compare_eq_iff_eq]
  rfl

theorem lt_iff_level : Scalar.lt x y = true ↔ IsNumber x ∧ IsNumber y ∧ level x < level y := by
  have compares : Scalar.lt x y = (x.toModel.unpack.compare y.toModel.unpack == some .lt) := by
    simp only [Scalar.lt, LT.lt, Float.lt, Bool.decide_eq_true]
    rfl
  rw [compares, beq_iff_eq, compare_eq_some_iff, compare_lt_iff_lt]
  rfl

theorem le_iff_level : Scalar.le x y = true ↔ IsNumber x ∧ IsNumber y ∧ level x ≤ level y := by
  have compares : Scalar.le x y = (x.toModel.unpack.compare y.toModel.unpack).any (·.isLE) := by
    simp only [Scalar.le, LE.le, Float.le, Bool.decide_eq_true]
    rfl
  rw [compares, Option.any_eq_true]
  simp only [compare_eq_some_iff, and_assoc, exists_and_left, exists_eq_left',
    Ordering.isLE_iff_ne_gt, compare_le_iff_le]
  rfl

/-- **Floating-point numbers are ordered.** -/
instance : Scalar.Ordered Float where
  finite_zero := by decide +kernel
  number_of_finite {x} finite := by
    have number : IsNumber x := fun same => by
      have finite : x.toModel.unpack.isFinite = true := finite
      rw [same] at finite
      exact absurd finite (by decide)
    exact eq_iff_level.mpr ⟨number, number, rfl⟩
  eq_iff {x y} := by
    rw [eq_iff_level, le_iff_level, le_iff_level, le_antisymm_iff]
    tauto
  le_of_lt h := by
    obtain ⟨hx, hy, below⟩ := lt_iff_level.mp h
    exact le_iff_level.mpr ⟨hx, hy, le_of_lt below⟩
  le_of_not_lt {x y} hx hy h := by
    obtain ⟨hx, -, -⟩ := eq_iff_level.mp hx
    obtain ⟨hy, -, -⟩ := eq_iff_level.mp hy
    refine le_iff_level.mpr ⟨hy, hx, le_of_not_gt fun below => ?_⟩
    rw [lt_iff_level.mpr ⟨hx, hy, below⟩] at h
    exact absurd h (by simp)
  trans h k := by
    obtain ⟨hx, -, first⟩ := le_iff_level.mp h
    obtain ⟨-, hz, second⟩ := le_iff_level.mp k
    exact le_iff_level.mpr ⟨hx, hz, le_trans first second⟩

end FloatScalar

end Cnc
