/-!
# Lines of a text

A line ends at a line feed. A carriage return right before the line feed
belongs to the terminator, and text after the last line feed is a line of
its own when there is any.
-/

namespace Cnc.Text

/-- A terminated line without the carriage return that its terminator may begin with. -/
def dropCarriageReturn (line : List Char) : List Char :=
  if line.getLast? = some '\r' then line.dropLast else line

/-- The lines of a text. The last one keeps a carriage return, because no terminator follows it. -/
def lines (text : List Char) : List (List Char) :=
  let pieces := text.splitOn '\n'
  let unterminated := pieces.getLast?.getD []
  pieces.dropLast.map dropCarriageReturn ++ if unterminated.isEmpty then [] else [unterminated]

end Cnc.Text
