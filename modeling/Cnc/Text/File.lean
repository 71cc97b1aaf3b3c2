/-!
# Files as texts

A file that does not exist has no text, and neither has one whose bytes are
not well-formed UTF-8. Nothing is repaired here: what a file holds is taken
exactly or not at all.
-/

namespace Cnc

/-- Why a file has no text. -/
inductive FileFault where
  /-- There is no such file. -/
  | missing
  /-- The bytes are not well-formed UTF-8. -/
  | notText
deriving DecidableEq, Repr

/-- The wording of a fault. -/
def FileFault.message : FileFault → String
  | .missing => "No such file or directory (os error 2)"
  | .notText => "stream did not contain valid UTF-8"

/-- The text of a file, given its bytes if it exists. -/
def fileText (bytes : Option ByteArray) : Except FileFault String :=
  match bytes with
  | none => .error .missing
  | some b =>
    match String.fromUTF8? b with
    | none => .error .notText
    | some text => .ok text

/-- A text is read back from its own encoding. -/
theorem fileText_toUTF8 (s : String) : fileText (some s.toUTF8) = .ok s := by
  have h : s.toByteArray.IsValidUTF8 := s.isValidUTF8
  simp [fileText, String.fromUTF8?, String.fromUTF8, h]

end Cnc
