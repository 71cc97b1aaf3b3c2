import Cnc.Toml.Quoted
import Cnc.Toml.Scalar

/-!
# TOML documents

A document is a sequence of statements, one a line: headers and
assignments. `Toml.read?` reads the statements and carries them out one by
one on a table that is empty at first; a statement that cannot be read or
carried out makes the whole document unreadable.

Values nest, and every bracket and brace that is open uses up one of the
`maxDepth` levels, so the reading of values recurses on the levels left.
Sequences of items and statements are read with the length of the text as a
bound: every step takes at least one character.
-/

namespace Cnc.Toml

/-- How deep arrays and inline tables may nest. -/
def maxDepth : Nat := 80

/-- How many names a key may have. -/
def maxNames : Nat := 80

/-- The text without the blanks that it begins with. -/
def skipSpaces (s : List Char) : List Char := s.dropWhile isSpace

/-- The text after blanks, line ends and comments; `none` if a comment holds a control character.
`inComment` says whether the text begins within a comment. -/
def skipFiller? (inComment : Bool) : List Char → Option (List Char)
  | [] => some []
  | c :: rest =>
    if isLineEnd c rest then skipFiller? false rest
    else if inComment then if isTextChar c then skipFiller? true rest else none
    else if isSpace c then skipFiller? false rest
    else if c = '#' then skipFiller? true rest
    else some (c :: rest)

/-! ## Keys -/

/-- The characters of a name without quotes. -/
def isBareChar (c : Char) : Bool := c.isAlphanum || c = '_' || c = '-'

/-- One name, and what follows it. A name in quotes lies on one line. -/
def name? (s : List Char) : Option (String × List Char) :=
  match s with
  | '"' :: rest => (Quoted.basic? false .plain rest).map fun (n, r) => (String.ofList n, r)
  | '\'' :: rest => (Quoted.literal? false rest).map fun (n, r) => (String.ofList n, r)
  | _ =>
    let bare := s.takeWhile isBareChar
    if bare.isEmpty then none else some (String.ofList bare, s.drop bare.length)

/-- A key of so many names at most: the names before the last one, the last one, and what
follows. -/
def key? (most : Nat) (s : List Char) : Option (List String × String × List Char) :=
  match most with
  | 0 => none
  | most + 1 => do
    let (n, rest) ← name? s
    match skipSpaces rest with
    | '.' :: rest =>
      let (path, last, rest) ← key? most (skipSpaces rest)
      some (n :: path, last, rest)
    | rest => some ([], n, rest)

/-- A key with the value that it is given. -/
structure Assignment where
  /-- The names before the last one. -/
  path : List String
  /-- The last name of the key. -/
  key : String
  value : Value

/-- A key, an equals sign and a value, and what follows. -/
def assignment? (value? : List Char → Option (Value × List Char)) (s : List Char) :
    Option (Assignment × List Char) := do
  let (path, key, rest) ← key? maxNames s
  match rest with
  | '=' :: rest =>
    let (value, rest) ← value? (skipSpaces rest)
    some (⟨path, key, value⟩, rest)
  | _ => none

/-! ## Values -/

/-- Items up to a closing character, with commas between them and perhaps one after the last, and
what follows. Between items and commas there may be line ends and comments. -/
def items? {α : Type} (item? : List Char → Option (α × List Char)) (closing : Char) (fuel : Nat)
    (s : List Char) : Option (List α × List Char) :=
  match fuel with
  | 0 => none
  | fuel + 1 => do
    let s ← skipFiller? false s
    if s.head? = some closing then some ([], s.tail)
    else
      let (a, s) ← item? s
      match ← skipFiller? false s with
      | ',' :: rest =>
        let (as, rest) ← items? item? closing fuel rest
        some (a :: as, rest)
      | c :: rest => if c = closing then some ([a], rest) else none
      | [] => none

/-- The table of an inline table's assignments. -/
def inlineTable? (assignments : List Assignment) : Option Table :=
  assignments.foldlM (fun t a => t.assign? a.path a.key a.value .inline) []

/-- Whether a character belongs to a run that one scalar without quotes is written in. -/
def isRunChar (c : Char) : Bool := !isSpace c && !"\r\n#,=[]\x7b\x7d\"'".toList.contains c

/-- The run of characters that the text begins with, and what follows. A date takes the time that
stands one blank behind it. -/
def run (s : List Char) : List Char × List Char :=
  let first := s.takeWhile isRunChar
  let rest := s.drop first.length
  match rest with
  | ' ' :: c :: more =>
    if Scalar.isDate first && isAsciiDigit c then
      let second := (c :: more).takeWhile isRunChar
      (first ++ ' ' :: second, (c :: more).drop second.length)
    else (first, rest)
  | _ => (first, rest)

/-- **A value**, and what follows it. `depth` is how many more levels may be opened. -/
def value? (depth : Nat) (s : List Char) : Option (Value × List Char) :=
  match s with
  | [] => none
  | c :: rest =>
    if c = '"' ∨ c = '\'' then (Quoted.read? s).map fun (text, rest) => (.string text, rest)
    else if c = '[' then
      match depth with
      | 0 => none
      | depth + 1 =>
        (items? (value? depth) ']' s.length rest).map fun (items, rest) => (.array items, rest)
    else if c = '\x7b' then
      match depth with
      | 0 => none
      | depth + 1 => do
        let (assignments, rest) ← items? (assignment? (value? depth)) '\x7d' s.length rest
        let entries ← inlineTable? assignments
        some (.table .inline entries, rest)
    else
      let (text, rest) := run s
      (Scalar.read? text).map fun v => (v, rest)

/-! ## Statements -/

/-- One line of a document. -/
inductive Statement where
  /-- Opens a table. -/
  | table (path : List String) (key : String)
  /-- Opens an element of an array of tables. -/
  | element (path : List String) (key : String)
  /-- Gives a key of the open table its value. -/
  | assign (a : Assignment)

/-- A statement, and what follows it. -/
def statement? (s : List Char) : Option (Statement × List Char) :=
  match s with
  | '[' :: '[' :: rest => do
    let (path, key, rest) ← key? maxNames (skipSpaces rest)
    match rest with
    | ']' :: ']' :: rest => some (.element path key, rest)
    | _ => none
  | '[' :: rest => do
    let (path, key, rest) ← key? maxNames (skipSpaces rest)
    match rest with
    | ']' :: rest => some (.table path key, rest)
    | _ => none
  | _ => (assignment? (value? maxDepth) s).map fun (a, rest) => (.assign a, rest)

/-- Whether what follows a statement ends its line. -/
def endsStatement (s : List Char) : Bool :=
  match s with
  | [] => true
  | c :: rest => isLineEnd c rest || c = '#'

/-- The statements of a document. Each one ends its line, a comment apart. -/
def statements? (fuel : Nat) (s : List Char) : Option (List Statement) :=
  match fuel with
  | 0 => none
  | fuel + 1 => do
    let s ← skipFiller? false s
    if s.isEmpty then some []
    else
      let (first, s) ← statement? s
      let rest := skipSpaces s
      if endsStatement rest then
        (statements? fuel rest).map (first :: ·)
      else none

/-- A document as far as it has been carried out. -/
structure Draft where
  /-- The table of the document. -/
  root : Table
  /-- The names of the table that is open. -/
  current : List String

/-- Carries a statement out. -/
def Statement.perform? (d : Draft) : Statement → Option Draft
  | .table path key => (d.root.openTable? path key).map fun root => ⟨root, path ++ [key]⟩
  | .element path key => (d.root.openElement? path key).map fun root => ⟨root, path ++ [key]⟩
  | .assign a =>
    let assign (origin : TableOrigin) (t : Table) := t.assign? a.path a.key a.value origin
    (d.root.alter? .header assign d.current .header).map fun root => { d with root }

/-- The text without the mark that may begin a text in Unicode. -/
def skipMark (s : List Char) : List Char := if s.head? = some '\ufeff' then s.tail else s

/-- **The table that a document denotes**; `none` if it is no document. -/
def read? (text : List Char) : Option Table := do
  let s := skipMark text
  let statements ← statements? (s.length + 1) s
  let final ← statements.foldlM Statement.perform? ⟨[], []⟩
  some final.root

end Cnc.Toml
