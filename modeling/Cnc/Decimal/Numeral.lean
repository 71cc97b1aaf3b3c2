import Cnc.Text.Digit

/-!
# Numbers as they are written

A decimal numeral denotes `± digits · 10 ^ exponent` exactly. `Decimal.read?`
reads the usual notation: an optional sign, digits with at most one point
and at least one digit, and an optional exponent. `Numeral.read?` also reads
the names of infinity and of not-a-number in any case.

What a numeral becomes in binary floating point is `Decimal.toFloat`: the
nearest `Float`, ties to the even mantissa, infinity where it is too large.
-/

namespace Cnc

/-- The number `± digits · 10 ^ exponent`. -/
structure Decimal where
  /-- Whether a minus sign is in front; it is kept for zero too. -/
  negative : Bool
  /-- The digits, read as one natural number. -/
  digits : Nat
  /-- The power of ten that they are multiplied by. -/
  exponent : Int
deriving DecidableEq, Repr

/-- Whether a character is an ASCII digit. -/
def isAsciiDigit (c : Char) : Bool := (Text.digitValue? c).isSome

/-- The natural number that a string of ASCII digits writes. -/
def naturalOfDigits (ds : List Char) : Nat :=
  ds.foldl (fun n c => n * 10 + (Text.digitValue? c).getD 0) 0

/-- A leading sign, as whether it is a minus, and the text after it. -/
def takeSign (s : List Char) : Bool × List Char :=
  match s with
  | '-' :: rest => (true, rest)
  | '+' :: rest => (false, rest)
  | _ => (false, s)

/-- A natural number in ASCII digits, with an optional plus sign. -/
def readNatural? (s : List Char) : Option Nat :=
  let ds := match s with
    | '+' :: rest => rest
    | _ => s
  if ds ≠ [] ∧ ds.all isAsciiDigit then some (naturalOfDigits ds) else none

/-- A natural number that fits in 16 bits. -/
def readUInt16? (s : List Char) : Option UInt16 :=
  (readNatural? s).bind fun n => if n < UInt16.size then some (UInt16.ofNat n) else none

namespace Decimal

/-- The exponent after a mantissa: nothing, or `e` with an optional sign and at least one digit. -/
def readExponent? (s : List Char) : Option Int :=
  match s with
  | [] => some 0
  | c :: rest =>
    if c = 'e' ∨ c = 'E' then
      let (negative, ds) := takeSign rest
      if ds ≠ [] ∧ ds.all isAsciiDigit then
        let n : Int := naturalOfDigits ds
        some (if negative then -n else n)
      else none
    else none

/-- The number that a decimal numeral writes; `none` if the text is no decimal numeral. -/
def read? (s : List Char) : Option Decimal :=
  let (negative, body) := takeSign s
  let whole := body.takeWhile isAsciiDigit
  let afterWhole := body.dropWhile isAsciiDigit
  let (fraction, rest) := match afterWhole with
    | '.' :: r => (r.takeWhile isAsciiDigit, r.dropWhile isAsciiDigit)
    | _ => ([], afterWhole)
  if whole = [] ∧ fraction = [] then none
  else (readExponent? rest).map fun e =>
    { negative, digits := naturalOfDigits (whole ++ fraction), exponent := e - fraction.length }

/-- The nearest binary floating-point number. -/
def toFloat (d : Decimal) : Float :=
  let magnitude := Float.ofScientific d.digits (d.exponent < 0) d.exponent.natAbs
  if d.negative then -magnitude else magnitude

end Decimal

/-- What a number's text can denote. -/
inductive Numeral where
  /-- A decimal number. -/
  | finite (value : Decimal)
  /-- Infinity of either sign. -/
  | infinity (negative : Bool)
  /-- Not a number. -/
  | notANumber
deriving DecidableEq, Repr

namespace Numeral

/-- Reads a number, an infinity (`inf`, `infinity`) or `nan`, each with an optional sign. -/
def read? (s : List Char) : Option Numeral :=
  let (negative, body) := takeSign s
  let name := body.map Char.toLower
  if name = "inf".toList ∨ name = "infinity".toList then some (.infinity negative)
  else if name = "nan".toList then some .notANumber
  else (Decimal.read? s).map .finite

/-- The floating-point value of a numeral. -/
def toFloat : Numeral → Float
  | .finite d => d.toFloat
  | .infinity negative => if negative then -1.0 / 0.0 else 1.0 / 0.0
  | .notANumber => 0.0 / 0.0

end Numeral

/-- The floating-point number that a text writes. -/
def readFloat? (s : List Char) : Option Float := (Numeral.read? s).map Numeral.toFloat

/-- The finite floating-point number that a text writes; a number out of range is none. -/
def readFinite? (s : List Char) : Option Float := (readFloat? s).filter Float.isFinite

end Cnc
