import Cnc.Decimal.Layout

/-!
# JSON laid out on lines

A JSON value for people to read: every entry of an object and every item of
an array on lines of its own, two spaces further in than the brackets around
it. A value is the list of its lines, so laying out a compound value only
moves the lines of its parts.

Names and words need no escapes here, because all of them are fixed.
-/

namespace Cnc.JsonLayout

/-- The lines of a laid-out value. -/
abbrev Lines := List String

/-- The lines with a text before the first. -/
def lead (text : String) : Lines → Lines
  | [] => [text]
  | first :: rest => (text ++ first) :: rest

/-- The lines with a comma after the last. -/
def comma : Lines → Lines
  | [] => []
  | [last] => [last ++ ","]
  | first :: rest => first :: comma rest

/-- The lines of several values, with commas between them. -/
def separated : List Lines → Lines
  | [] => []
  | [last] => last
  | first :: rest => comma first ++ separated rest

/-- Values between brackets, which stay on one line if there is nothing between them. -/
def bracketed (opening closing : String) (items : List Lines) : Lines :=
  if items.isEmpty then [opening ++ closing]
  else opening :: (separated items).map ("  " ++ ·) ++ [closing]

/-- An object. -/
def object (entries : List (String × Lines)) : Lines :=
  bracketed "\x7b" "\x7d" (entries.map fun (name, value) => lead ("\"" ++ name ++ "\": ") value)

/-- An array. -/
def array (items : List Lines) : Lines := bracketed "[" "]" items

/-- No value. -/
def null : Lines := ["null"]

/-- A text. -/
def word (s : String) : Lines := ["\"" ++ s ++ "\""]

/-- A natural number. -/
def natural (n : Nat) : Lines := [String.ofList (Layout.digitsOf n)]

/-- A floating-point number; one that is not finite is no value. -/
def number (x : Float) : Lines :=
  match Layout.json? x with
  | some digits => [String.ofList digits]
  | none => null

end Cnc.JsonLayout
