import Cnc.Decimal.Shortest

/-!
# Laying out the digits of a number

Three ways to write a floating-point number, each used by one kind of output:

* `Layout.positional`: the shortest digits that read back, a tie away from
  zero, never with an exponent, for commands sent to a controller;
* `Layout.json?`: the shortest digits, a tie to the even one, with a point in
  every positional form and with an exponent outside `10⁻⁵ … 10¹⁶`, for
  reports;
* `Layout.fixed`: a given number of places, the exact value rounded half to
  even, for tables.
-/

namespace Cnc.Layout

/-- The decimal digits of a natural number. -/
def digitsOf (n : Nat) : List Char := Nat.toDigits 10 n

/-- `n` zeros. -/
def zeros (n : Nat) : List Char := List.replicate n '0'

/-- The digits of `n · 10 ^ k` in positional notation, with a point only where it is needed. -/
def placeDigits (n : Nat) (k : Int) : List Char :=
  let ds := digitsOf n
  let before : Int := ds.length + k
  if 0 ≤ k then ds ++ zeros k.toNat
  else if 0 < before then ds.take before.toNat ++ '.' :: ds.drop before.toNat
  else '0' :: '.' :: zeros (-before).toNat ++ ds

/-- A sign as it is written: minus for negative numbers, a plus only where asked for. -/
def signText (negative plus : Bool) : List Char :=
  if negative then ['-'] else if plus then ['+'] else []

/-- The quotient of two natural numbers, rounded to the nearest, a half to the even neighbour. -/
def roundHalfEven (num den : Nat) : Nat :=
  let q := num / den
  let twice := 2 * (num % den)
  if den < twice ∨ (twice = den ∧ q % 2 = 1) then q + 1 else q

/-- The names of the values that have no digits. -/
def nonFiniteText (x : Float) (plus : Bool) : List Char :=
  if x.isNaN then "NaN".toList else signText (x < 0) plus ++ "inf".toList

/-- **Positional notation**: the shortest digits that read back and no exponent. Zero keeps its
sign; with `plus` a number that is not negative has a plus sign. -/
def positional (x : Float) (plus : Bool) : List Char :=
  match Binary.ofFloat? x with
  | none => nonFiniteText x plus
  | some b =>
    let (n, k) := if b.mantissa = 0 then (0, 0) else b.shortest .away
    signText b.negative plus ++ placeDigits n k

/-- **Fixed notation** with `places` digits after the point: the exact value of the number, rounded
half to even. -/
def fixed (x : Float) (places : Nat) : List Char :=
  match Binary.ofFloat? x with
  | none => nonFiniteText x false
  | some b =>
    let scaled := b.mantissa * Nat.pow 10 places * Nat.pow 2 b.exponent.toNat
    let n := roundHalfEven scaled (Nat.pow 2 (-b.exponent).toNat)
    let ds := digitsOf n
    let padded := zeros (places + 1 - ds.length) ++ ds
    let whole := padded.take (padded.length - places)
    let fraction := padded.drop (padded.length - places)
    signText b.negative false ++ whole ++ if places = 0 then [] else '.' :: fraction

/-- The exponent of scientific notation, always with a sign. -/
def exponentText (e : Int) : List Char :=
  'e' :: (if e < 0 then '-' else '+') :: digitsOf e.natAbs

/-- **Report notation**: positional with at least one digit after the point while the first digit
stands for `10⁻⁵` to `10¹⁵`, scientific outside. Only finite numbers have it. -/
def json? (x : Float) : Option (List Char) :=
  (Binary.ofFloat? x).map fun b =>
    if b.mantissa = 0 then signText b.negative false ++ "0.0".toList
    else
      let (n, k) := b.shortest .toEven
      let ds := digitsOf n
      let e : Int := ds.length + k - 1
      signText b.negative false ++
        if -5 ≤ e ∧ e ≤ 15 then placeDigits n k ++ if 0 ≤ k then ".0".toList else []
        else ds.take 1 ++ (if ds.length = 1 then [] else '.' :: ds.drop 1) ++ exponentText e

end Cnc.Layout
