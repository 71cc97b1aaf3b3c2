import Cnc.Decimal.Numeral
import Cnc.Toml.Value

/-!
# Numbers, truth values and dates in TOML

A scalar without quotes is one run of characters. `Scalar.read?` takes such
a run as a whole. The form of a number and its value are two things:
underscores group digits, a decimal number has no leading zero, and only a
float has a point or an exponent; a number of that form still has no value
if it is too large, and then it is `Value.unvalued`. Dates and times are
checked against the calendar and the clock, and kept as they are written.
-/

namespace Cnc.Toml.Scalar

/-! ## Numbers -/

/-- Whether underscores only group digits: a digit follows each one, and a digit stands before it,
except where `opens` says that the text may begin with one. -/
def isGrouped (isDigit : Char → Bool) (opens : Bool) : List Char → Bool
  | [] => true
  | c :: rest =>
    if c = '_' then opens && rest.head?.any isDigit && isGrouped isDigit false rest
    else isGrouped isDigit (isDigit c) rest

/-- The text without its underscores. -/
def withoutGroups (s : List Char) : List Char := s.filter (· ≠ '_')

/-- Whether a decimal number begins with a zero that another digit follows. -/
def hasLeadingZero (body whole : List Char) : Bool := body.head? = some '0' && 1 < whole.length

/-- The value of a digit in a base up to sixteen. -/
def digitIn? (base : Nat) (c : Char) : Option Nat := (Text.hexDigit? c).filter (· < base)

/-- An integer as a value. It has one if it fits in 128 bits, with a sign or without. -/
def valueOfInteger (n : Int) : Value :=
  if -(Nat.pow 2 127 : Int) ≤ n ∧ n < Nat.pow 2 128 then .integer n else .unvalued

/-- A natural number in a base up to sixteen. Without digits it has no value. -/
def natural? (base : Nat) (s : List Char) : Option Value :=
  let ds := withoutGroups s
  if isGrouped (fun c => (Text.hexDigit? c).isSome) false s &&
      ds.all fun c => (digitIn? base c).isSome then
    some <|
      if ds.isEmpty then .unvalued
      else valueOfInteger (ds.foldl (fun n c => n * base + (digitIn? base c).getD 0) 0 : Nat)
  else none

/-- An integer in decimal notation: digits only, or a text that begins with digits and an
underscore. Whether all of such a text are decimal digits only matters for its value. -/
def integer? (negative signed : Bool) (body : List Char) : Option Value :=
  let ds := withoutGroups body
  let rest := body.dropWhile isAsciiDigit
  if body.isEmpty || hasLeadingZero body body || !(rest.isEmpty || rest.head? = some '_') ||
      !isGrouped (fun c => (Text.hexDigit? c).isSome) signed body then none
  else if ds.all isAsciiDigit then
    let n : Int := naturalOfDigits ds
    some (valueOfInteger (if negative then -n else n))
  else some .unvalued

/-- A float in decimal notation: digits, a point with digits, an exponent, of which the last two
may be absent. It has a value if it is not too large. -/
def float? (negative signed : Bool) (body : List Char) : Option Value := do
  let plain := withoutGroups body
  let mantissa := plain.takeWhile fun c => c ≠ 'e' && c ≠ 'E'
  let whole := mantissa.takeWhile (· ≠ '.')
  let fraction := mantissa.drop (whole.length + 1)
  let exponent := plain.drop (mantissa.length + 1)
  let areDigits (ds : List Char) : Bool := !ds.isEmpty && ds.all isAsciiDigit
  if isGrouped isAsciiDigit signed body && !hasLeadingZero body whole && areDigits whole &&
      (mantissa.length = whole.length || areDigits fraction) &&
      (plain.length = mantissa.length || areDigits (takeSign exponent).2) then
    let d ← Decimal.read? plain
    let x := Decimal.toFloat { d with negative }
    some (if x.isFinite then .float x else .unvalued)
  else none

/-- A number: an integer, with a letter after a zero for its base, or a float. -/
def number? (s : List Char) : Option Value :=
  let (negative, body) := takeSign s
  let signed := body.length < s.length
  match s with
  | '0' :: 'x' :: rest => natural? 16 rest
  | '0' :: 'o' :: rest => natural? 8 rest
  | '0' :: 'b' :: rest => natural? 2 rest
  | _ =>
    if body = "inf".toList then some (.float (Numeral.infinity negative).toFloat)
    else if body = "nan".toList then some (.float Numeral.notANumber.toFloat)
    else if body.any fun c => c = '.' || c = 'e' || c = 'E' then float? negative signed body
    else integer? negative signed body

/-! ## Dates and times -/

/-- A number of exactly `n` digits, and what follows it. -/
def fixedNumber? (n : Nat) (s : List Char) : Option (Nat × List Char) :=
  let ds := s.take n
  if ds.length = n && ds.all isAsciiDigit then some (naturalOfDigits ds, s.drop n) else none

/-- The text after a given character. -/
def after? (c : Char) (s : List Char) : Option (List Char) :=
  if s.head? = some c then some s.tail else none

/-- The number of days of a month. -/
def daysOfMonth (year month : Nat) : Nat :=
  match month with
  | 2 => if year % 4 = 0 ∧ (year % 100 ≠ 0 ∨ year % 400 = 0) then 29 else 28
  | 4 | 6 | 9 | 11 => 30
  | _ => 31

/-- What follows a date of the calendar. -/
def afterDate? (s : List Char) : Option (List Char) := do
  let (year, s) ← fixedNumber? 4 s
  let (month, s) ← fixedNumber? 2 (← after? '-' s)
  let (day, s) ← fixedNumber? 2 (← after? '-' s)
  if 1 ≤ month ∧ month ≤ 12 ∧ 1 ≤ day ∧ day ≤ daysOfMonth year month then some s else none

/-- What follows a time of day. Seconds may be left out, may have a fraction, and may be 60. -/
def afterTime? (s : List Char) : Option (List Char) := do
  let (hour, s) ← fixedNumber? 2 s
  let (minute, s) ← fixedNumber? 2 (← after? ':' s)
  let s ← match after? ':' s with
    | none => some s
    | some s => do
      let (second, s) ← fixedNumber? 2 s
      let s ← match after? '.' s with
        | none => some s
        | some fraction =>
          let digits := fraction.takeWhile isAsciiDigit
          if digits.isEmpty then none else some (fraction.drop digits.length)
      if second ≤ 60 then some s else none
  if hour ≤ 23 ∧ minute ≤ 59 then some s else none

/-- Whether a text is nothing or the distance of a time from universal time. -/
def isOffset (s : List Char) : Bool :=
  match s with
  | [] => true
  | [c] => c = 'Z' || c = 'z'
  | c :: rest => (c = '+' || c = '-') && Option.isSome do
    let (hours, rest) ← fixedNumber? 2 rest
    let (minutes, rest) ← fixedNumber? 2 (← after? ':' rest)
    if hours ≤ 23 ∧ minutes ≤ 59 ∧ rest = [] then some () else none

/-- Whether a text is a date without a time. -/
def isDate (s : List Char) : Bool := afterDate? s = some []

/-- Whether a text is a date, a time, or a date and a time with or without an offset. -/
def isDatetime (s : List Char) : Bool :=
  match afterDate? s with
  | some [] => true
  | some (c :: rest) =>
    (c = 'T' || c = 't' || c = ' ') && ((afterTime? rest).map isOffset).getD false
  | none => afterTime? s = some []

/-- **The value that a run of characters without quotes writes.** -/
def read? (s : List Char) : Option Value :=
  if s = "true".toList then some (.boolean true)
  else if s = "false".toList then some (.boolean false)
  else if isDatetime s then some (.datetime (String.ofList s))
  else number? s

end Cnc.Toml.Scalar
