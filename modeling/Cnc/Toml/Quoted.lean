import Cnc.Text.Digit

/-!
# Quoted text in TOML

Two kinds of quotes, each on one line or, tripled, on many. Between
apostrophes every character stands for itself; between quotation marks a
backslash begins an escape. Both are read after their opening delimiter, one
character at a time, up to the closing one.

A line ends in a line feed, with or without a carriage return before it.
Text over many lines keeps its line ends as they are written. A carriage
return on its own is a control character like any other.
-/

namespace Cnc.Toml

/-- Whether a character may stand in a comment or between quotes: no control but the tab. -/
def isTextChar (c : Char) : Bool := c = '\t' || (0x20 ≤ c.toNat && c.toNat ≠ 0x7F)

/-- Blanks within a line. -/
def isSpace (c : Char) : Bool := c = ' ' || c = '\t'

/-- Whether a character belongs to the end of a line: a line feed, or a carriage return with a line
feed next to it. `rest` is what follows the character. -/
def isLineEnd (c : Char) (rest : List Char) : Bool :=
  c = '\n' || (c = '\r' && rest.head? = some '\n')

/-- The character with a code point, if there is one. -/
def charOfCode? (n : Nat) : Option Char := if n.isValidChar then some (Char.ofNat n) else none

namespace Quoted

/-- What the character after a backslash stands for: a character, or so many hexadecimal digits
of a code point. -/
def escape? (c : Char) : Option (Char ⊕ Nat) :=
  match c with
  | 'b' => some (.inl '\x08')
  | 't' => some (.inl '\t')
  | 'n' => some (.inl '\n')
  | 'f' => some (.inl '\x0c')
  | 'r' => some (.inl '\r')
  | 'e' => some (.inl '\x1b')
  | '"' => some (.inl '"')
  | '\\' => some (.inl '\\')
  | 'x' => some (.inr 2)
  | 'u' => some (.inr 4)
  | 'U' => some (.inr 8)
  | _ => none

/-- Where the reading of a text with escapes stands. -/
inductive Mode where
  /-- Between characters. -/
  | plain
  /-- After a backslash. -/
  | escape
  /-- Within a code point: its value so far, and how many digits follow the next one. -/
  | code (value more : Nat)
  /-- After a backslash and blanks, before the end of the line. -/
  | lineEnd
  /-- After such a line end; blanks and line ends are left out. -/
  | skipping
deriving DecidableEq, Repr

/-- Whether a quote closes the text. On one line any does. Over many lines three do, and of more
than three the first two that follow still belong to the text. The result is the rest of the
text's characters and what follows the closing delimiter. -/
def close? (multiline : Bool) (quote : Char) (rest : List Char) : Option (List Char × List Char) :=
  if multiline then
    if rest.take 2 = [quote, quote] then
      let after := rest.drop 2
      let kept := (after.takeWhile (· = quote)).take 2
      some (kept, after.drop kept.length)
    else none
  else some ([], rest)

/-- Whether a character stands for itself between quotes. `rest` is what follows it. -/
def isPlain (multiline : Bool) (c : Char) (rest : List Char) : Bool :=
  isTextChar c || (multiline && isLineEnd c rest)

/-- Reads text between apostrophes, and what follows it. -/
def literal? (multiline : Bool) : List Char → Option (List Char × List Char)
  | [] => none
  | c :: rest =>
    match if c = '\'' then close? multiline c rest else none with
    | some closed => some closed
    | none =>
      if isPlain multiline c rest then
        (literal? multiline rest).map fun (text, after) => (c :: text, after)
      else none

/-- Reads text between quotation marks, and what follows it. -/
def basic? (multiline : Bool) (mode : Mode) : List Char → Option (List Char × List Char)
  | [] => none
  | c :: rest =>
    let emit (c : Char) :=
      (basic? multiline .plain rest).map fun (text, after) => (c :: text, after)
    let plain :=
      match if c = '"' then close? multiline c rest else none with
      | some closed => some closed
      | none =>
        if c = '\\' then basic? multiline .escape rest
        else if isPlain multiline c rest then emit c
        else none
    match mode with
    | .plain => plain
    | .escape =>
      match escape? c with
      | some (.inl c) => emit c
      | some (.inr n) => basic? multiline (.code 0 (n - 1)) rest
      | none =>
        if multiline && isSpace c then basic? multiline .lineEnd rest
        else if multiline && isLineEnd c rest then basic? multiline .skipping rest
        else none
    | .code value more =>
      (Text.hexDigit? c).bind fun d =>
        let value := value * 16 + d
        match more with
        | 0 => (charOfCode? value).bind emit
        | more + 1 => basic? multiline (.code value more) rest
    | .lineEnd =>
      if isSpace c then basic? multiline .lineEnd rest
      else if isLineEnd c rest then basic? multiline .skipping rest
      else none
    | .skipping => if isSpace c || isLineEnd c rest then basic? multiline .skipping rest else plain

/-- A quoted text and what follows it. A line end right after a tripled opening delimiter does not
belong to the text. -/
def read? (s : List Char) : Option (String × List Char) :=
  let afterLineEnd (r : List Char) :=
    match r with
    | '\n' :: r => r
    | '\r' :: '\n' :: r => r
    | _ => r
  let found :=
    match s with
    | '"' :: '"' :: '"' :: rest => basic? true .plain (afterLineEnd rest)
    | '\'' :: '\'' :: '\'' :: rest => literal? true (afterLineEnd rest)
    | '"' :: rest => basic? false .plain rest
    | '\'' :: rest => literal? false rest
    | _ => none
  found.map fun (text, after) => (String.ofList text, after)

end Quoted

end Cnc.Toml
