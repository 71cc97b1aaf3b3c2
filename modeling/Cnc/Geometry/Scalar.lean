import Cnc.Decimal.Numeral

/-!
# The numbers that paths are computed with

Path geometry is written once over any `Scalar`: arithmetic, comparisons,
a square root and the circular functions, and the two ways in and out of
it, from decimal numerals and to natural numbers. No law is assumed, so the
same definitions can be run in binary floating point, where sums are
rounded, and read in exact real arithmetic.

`Float` is the instance that runs.
-/

namespace Cnc

/-- Numbers that coordinates, lengths and angles are made of. -/
class Scalar (α : Type) extends Add α, Sub α, Mul α, Div α where
  /-- The value of a decimal numeral, or the nearest value there is. -/
  ofDecimal : Decimal → α
  /-- Whether a value is a number and not infinite. -/
  isFinite : α → Bool
  /-- Whether two values compare equal. -/
  eq : α → α → Bool
  /-- Whether the first value compares less than the second. -/
  lt : α → α → Bool
  /-- Whether the first value compares less than or equal to the second. -/
  le : α → α → Bool
  /-- The square root. -/
  sqrt : α → α
  /-- The length of the vector with the given components. -/
  hypot : α → α → α
  /-- The angle of the vector with components `x` and `y`, given as `atan2 y x`. -/
  atan2 : α → α → α
  /-- The cosine. -/
  cos : α → α
  /-- The sine. -/
  sin : α → α
  /-- A full turn, `2 π`. -/
  turn : α
  /-- The least natural number that is no less than the value; 0 for values below zero. -/
  ceil : α → Nat
  /-- The natural number that the value is, if it is one. -/
  natural? : α → Option Nat

namespace Scalar

variable {α : Type} [Scalar α]

/-- The value of a natural number. -/
def ofNatural (n : Nat) : α := ofDecimal ⟨false, n, 0⟩

/-- Zero. -/
def zero : α := ofNatural 0

/-- One. -/
def one : α := ofNatural 1

/-- Whether a value is not a number: it does not compare equal to itself. -/
def isNaN (x : α) : Bool := !eq x x

/-- The magnitude of a value. -/
def abs (x : α) : α := if lt x zero then zero - x else x

/-- The smaller of two values; a value that is not a number gives way to the other. -/
def min (x y : α) : α := if isNaN x || lt y x then y else x

/-- The larger of two values; a value that is not a number gives way to the other. -/
def max (x y : α) : α := if isNaN x || lt x y then y else x

/-- The value moved into the unit interval; what is not a number stays as it is. -/
def clampUnit (x : α) : α := if lt x zero then zero else if lt one x then one else x

end Scalar

namespace FloatScalar

/-- The length of a vector whose components are neither huge nor tiny, `y` not above `x`: the
rounded square root of the sum of squares, corrected once for what the rounding lost. -/
def hypotScaled (x y : Float) : Float :=
  let h := Float.sqrt (x * x + y * y)
  let correction :=
    if h ≤ 2.0 * y then
      let d := h - y
      x * (2.0 * d - x) + (d - 2.0 * (x - y)) * d
    else
      let d := h - x
      2.0 * d * (x - 2.0 * y) + ((4.0 * d - y) * y + d * d)
  h - correction / (2.0 * h)

/-- The length of a vector of finite components, without overflow or underflow on the way. -/
def hypot (x y : Float) : Float :=
  let a := Float.abs x
  let b := Float.abs y
  let large := if a < b then b else a
  let small := if a < b then a else b
  let scale : Float := Float.ofBits 0x1A70000000000000
  if large > Float.ofBits 0x5FE0000000000000 then
    if small ≤ large * Float.ofBits 0x3C90000000000000 then large + small
    else hypotScaled (large * scale) (small * scale) / scale
  else if small < Float.ofBits 0x2340000000000000 then
    if large ≥ small / Float.ofBits 0x3C90000000000000 then large + small
    else hypotScaled (large / scale) (small / scale) * scale
  else if small ≤ large * Float.ofBits 0x3C90000000000000 then large + small
  else hypotScaled large small

/-- The least integer above a number, saturating at the largest 64-bit integer. -/
def ceil (x : Float) : Nat :=
  let below := x.toUInt64
  if below.toFloat < x then Nat.min (below.toNat + 1) (Nat.pow 2 64 - 1) else below.toNat

/-- The natural number that a number is; past 64 bits the largest 64-bit integer. -/
def natural? (x : Float) : Option Nat :=
  if x < 0.0 then none
  else if x ≥ 9007199254740992.0 ∨ x.toUInt64.toFloat == x then some x.toUInt64.toNat
  else none

end FloatScalar

instance : Scalar Float where
  ofDecimal := Decimal.toFloat
  isFinite := Float.isFinite
  eq x y := x == y
  lt x y := x < y
  le x y := x ≤ y
  sqrt := Float.sqrt
  hypot := FloatScalar.hypot
  atan2 := Float.atan2
  cos := Float.cos
  sin := Float.sin
  turn := Float.ofBits 0x401921FB54442D18
  ceil := FloatScalar.ceil
  natural? := FloatScalar.natural?

end Cnc
