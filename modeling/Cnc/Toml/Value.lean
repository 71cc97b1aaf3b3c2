/-!
# TOML values and tables

A document denotes a table: names with values, which may be tables again. A
table remembers what it was opened by, because that decides what may still
be added to it:

* a table with a header of its own takes the lines below its header, and
  longer headers may add tables inside it;
* a table that only a longer header implies may still get its own header;
* a table that a dotted key opened takes further dotted keys;
* an inline table is complete where it is written.

`Table.alter?` walks along a path of names and changes the table at its
end. Both uses of paths, headers and dotted keys, are instances of it; they
differ in the tables they may enter and in the tables they open.
-/

namespace Cnc.Toml

/-- What opened a table. -/
inductive TableOrigin where
  /-- A header with its name; the table of the whole document counts as one of these. -/
  | header
  /-- A header of a table inside it. -/
  | implied
  /-- A key with dots. -/
  | dotted
  /-- Braces. -/
  | inline
deriving DecidableEq, Repr

/-- What a key can have as its value. -/
inductive Value where
  | string (text : String)
  | integer (n : Int)
  | float (x : Float)
  /-- A number of the right form without a value: it is too large, or its digits are not of its
  base. A document may hold one as long as nothing asks for it. -/
  | unvalued
  | boolean (b : Bool)
  /-- A date, a time or both, as it is written. -/
  | datetime (text : String)
  | array (items : List Value)
  /-- An array whose elements are opened by headers in double brackets. -/
  | tables (elements : List (List (String × Value)))
  | table (origin : TableOrigin) (entries : List (String × Value))

/-- The entries of a table in the order in which they were opened. -/
abbrev Table := List (String × Value)

mutual

/-- Whether every number in a value has a value. -/
def Value.isValued : Value → Bool
  | .unvalued => false
  | .array items => areValued items
  | .tables elements => tablesValued elements
  | .table _ entries => entriesValued entries
  | _ => true

/-- Whether every number in an array has a value. -/
def areValued : List Value → Bool
  | [] => true
  | v :: rest => v.isValued && areValued rest

/-- Whether every number in an array of tables has a value. -/
def tablesValued : List (List (String × Value)) → Bool
  | [] => true
  | t :: rest => entriesValued t && tablesValued rest

/-- Whether every number in a table has a value. -/
def entriesValued : List (String × Value) → Bool
  | [] => true
  | (_, v) :: rest => v.isValued && entriesValued rest

end

/-- Which paths a table is reached by. -/
inductive PathUse where
  /-- The path of a header. -/
  | header
  /-- The path of a dotted key. -/
  | dotted
deriving DecidableEq, Repr

namespace PathUse

/-- Whether a path may go on through a table that is already there: headers through all but inline
tables, dotted keys only through tables without a header of their own. -/
def enters (u : PathUse) (origin : TableOrigin) : Bool :=
  match u, origin with
  | _, .inline => false
  | .dotted, .header => false
  | _, _ => true

/-- What the tables count as that a path opens on its way. -/
def opens : PathUse → TableOrigin
  | .header => .implied
  | .dotted => .dotted

end PathUse

namespace Table

/-- The value of a key. -/
def get? (t : Table) (key : String) : Option Value :=
  match t with
  | [] => none
  | e :: rest => if e.1 = key then some e.2 else get? rest key

/-- The table with a key's value replaced, or with a new entry at its end. -/
def put (t : Table) (key : String) (v : Value) : Table :=
  match t with
  | [] => [(key, v)]
  | e :: rest => if e.1 = key then (key, v) :: rest else e :: put rest key v

/-- **Changes the table at the end of a path.** The change is told what opened that table. Missing
tables are opened on the way; an array of tables is entered at its last element; `none` if the
path runs into a value that it may not enter, or the change refuses. -/
def alter? (u : PathUse) (change : TableOrigin → Table → Option Table) :
    List String → TableOrigin → Table → Option Table
  | [], origin, t => change origin t
  | key :: path, _, t =>
    match t.get? key with
    | none =>
      (alter? u change path u.opens []).map fun inner => t.put key (.table u.opens inner)
    | some (.table origin entries) =>
      if u.enters origin then
        (alter? u change path origin entries).map fun inner => t.put key (.table origin inner)
      else none
    | some (.tables elements) =>
      elements.getLast?.bind fun last =>
        (alter? u change path .header last).map fun inner =>
          t.put key (.tables (elements.dropLast ++ [inner]))
    | some _ => none

/-- Gives a key its value, below the tables that the names before it open. The key must be new,
and names before it must end in a table that dotted keys opened. -/
def assign? (path : List String) (key : String) (v : Value) (origin : TableOrigin) (t : Table) :
    Option Table :=
  alter? .dotted (fun o inner =>
    if (o = .dotted ↔ path ≠ []) ∧ (inner.get? key).isNone then some (inner.put key v) else none)
    path origin t

/-- Opens a table by a header: it must be new, or so far only implied. -/
def openTable? (path : List String) (key : String) (root : Table) : Option Table :=
  alter? .header (fun _ t =>
    match t.get? key with
    | none => some (t.put key (.table .header []))
    | some (.table .implied entries) => some (t.put key (.table .header entries))
    | some _ => none) path .header root

/-- Opens a new element of an array of tables. -/
def openElement? (path : List String) (key : String) (root : Table) : Option Table :=
  alter? .header (fun _ t =>
    match t.get? key with
    | none => some (t.put key (.tables [[]]))
    | some (.tables elements) => some (t.put key (.tables (elements ++ [[]])))
    | some _ => none) path .header root

/-- A key that was put has its value. -/
theorem get?_put_self (t : Table) (key : String) (v : Value) : (t.put key v).get? key = some v := by
  induction t with
  | nil => simp [put, get?]
  | cons e rest ih => by_cases h : e.1 = key <;> simp [put, get?, h, ih]

/-- The other keys keep their values. -/
theorem get?_put_of_ne (t : Table) {key other : String} (v : Value) (h : other ≠ key) :
    (t.put key v).get? other = t.get? other := by
  induction t with
  | nil => simp [put, get?, h.symm]
  | cons e rest ih =>
    by_cases hk : e.1 = key
    · simp [put, get?, hk, h.symm]
    · simp [put, get?, hk, ih]

end Table

end Cnc.Toml
