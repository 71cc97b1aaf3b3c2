/-!
# The shortest decimal that reads back

A finite positive binary floating-point number is `mantissa · 2 ^ exponent`.
The real numbers that round to it form an interval around it: half a step
upwards, half a step downwards (a quarter at the bottom of a binade), with
the ends included when the mantissa is even, because ties go to even.

The shortest decimal in that interval is a multiple of the largest power of
ten that has a multiple in it, and the multiple nearest to the number is one
of its two neighbours on that grid. `Binary.shortest` walks down the powers
of ten and tests both neighbours in exact integer arithmetic. Where both are
equally near, the notation that the digits are for decides (`Tie`).
-/

namespace Cnc

/-- A finite number `± mantissa · 2 ^ exponent`. -/
structure Binary where
  negative : Bool
  mantissa : Nat
  exponent : Int
deriving DecidableEq, Repr

/-- The parts of a finite floating-point number; `none` for infinities and not-a-number. -/
def Binary.ofFloat? (x : Float) : Option Binary :=
  let bits := x.toBits.toNat
  let biased : Nat := bits / Nat.pow 2 52 % Nat.pow 2 11
  let fraction : Nat := bits % Nat.pow 2 52
  let negative := decide (bits / Nat.pow 2 63 % 2 = 1)
  if biased = Nat.pow 2 11 - 1 then none
  else if biased = 0 then some ⟨negative, fraction, -1074⟩
  else some ⟨negative, Nat.pow 2 52 + fraction, (biased : Int) - 1075⟩

/-- Which of two equally near neighbours is taken. -/
inductive Tie where
  /-- The one with an even last digit. -/
  | toEven
  /-- The one further from zero. -/
  | away
deriving DecidableEq, Repr

/-- Whether the neighbour below is taken if the one above is equally near. -/
def Tie.takesBelow (tie : Tie) (below : Nat) : Bool :=
  match tie with
  | .toEven => below % 2 = 0
  | .away => false

/-- The interval of real numbers that round to a number, as fractions over one denominator. -/
structure RoundingInterval where
  /-- The numerator of the lower end. -/
  low : Nat
  /-- The numerator of the number itself. -/
  value : Nat
  /-- The numerator of the upper end. -/
  high : Nat
  /-- The common denominator. -/
  denominator : Nat
  /-- Whether the ends belong to the interval. -/
  closed : Bool

namespace Binary

/-- The real numbers that round to this one. -/
def interval (b : Binary) : RoundingInterval :=
  let bottomOfBinade := b.mantissa = Nat.pow 2 52 ∧ -1074 < b.exponent
  let up := Nat.pow 2 (b.exponent - 2).toNat
  { low := (4 * b.mantissa - if bottomOfBinade then 1 else 2) * up
    value := 4 * b.mantissa * up
    high := (4 * b.mantissa + 2) * up
    denominator := Nat.pow 2 (2 - b.exponent).toNat
    closed := b.mantissa % 2 = 0 }

end Binary

namespace RoundingInterval

/-- Whether `n / d` lies in the interval. -/
def contains (i : RoundingInterval) (n d : Nat) : Bool :=
  if i.closed then i.low * d ≤ n * i.denominator && n * i.denominator ≤ i.high * d
  else i.low * d < n * i.denominator && n * i.denominator < i.high * d

/-- The multiple of `10 ^ k` in the interval that is nearest to the number, as a factor of
`10 ^ k`. -/
def nearestMultiple? (i : RoundingInterval) (tie : Tie) (k : Int) : Option Nat :=
  let unit := Nat.pow 10 k.toNat
  let parts := Nat.pow 10 (-k).toNat
  let step := i.denominator * unit
  let below := i.value * parts / step
  let above := below + 1
  let distanceBelow := i.value * parts - below * step
  let distanceAbove := above * step - i.value * parts
  match i.contains (below * unit) parts, i.contains (above * unit) parts with
  | true, true =>
    if distanceBelow < distanceAbove ∨
        (distanceBelow = distanceAbove ∧ tie.takesBelow below) then some below
    else some above
  | true, false => some below
  | false, true => some above
  | false, false => none

/-- Walks down the powers of ten from `10 ^ k` until one has a multiple in the interval. -/
def search (i : RoundingInterval) (tie : Tie) (steps : Nat) (k : Int) : Nat × Int :=
  match i.nearestMultiple? tie k, steps with
  | some n, _ => (n, k)
  | none, steps + 1 => i.search tie steps (k - 1)
  | none, 0 => (0, k)

end RoundingInterval

/-- **The shortest decimal that rounds to a positive number**, as digits without a trailing zero
and a power of ten. The walk begins above the number and needs at most seventeen digits. -/
def Binary.shortest (b : Binary) (tie : Tie) : Nat × Int :=
  let magnitude := (Nat.log2 b.mantissa : Int) + b.exponent
  b.interval.search tie 24 (magnitude * 30103 / 100000 + 3)

end Cnc
