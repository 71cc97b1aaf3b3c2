import Cnc.Decimal.Numeral

/-!
# The settings of a controller

The values that a controller last reported, by the text of the setting's
number. Entries are kept in the order of their keys, which is the order of
the code points and so of the UTF-8 bytes. Reports only add or replace
entries; `Settings.empty` is the one way to lose them.
-/

namespace Cnc

/-- Reported settings, in ascending order of their keys. -/
structure Settings where
  entries : List (String × String)
deriving DecidableEq, Repr

namespace Settings

/-- No setting has been reported. -/
def empty : Settings := ⟨[]⟩

/-- Puts an entry into a list in ascending order of keys, in place of one with the same key. -/
def insertEntry (id value : String) : List (String × String) → List (String × String)
  | [] => [(id, value)]
  | (k, v) :: rest =>
    if id = k then (id, value) :: rest
    else if id < k then (id, value) :: (k, v) :: rest
    else (k, v) :: insertEntry id value rest

/-- Takes a report into account. -/
def insert (s : Settings) (id value : String) : Settings := ⟨insertEntry id value s.entries⟩

/-- The value of a setting. -/
def get? (s : Settings) (id : String) : Option String := s.entries.lookup id

/-- The value of a setting as a number. -/
def getFloat? (s : Settings) (id : String) : Option Float :=
  (s.get? id).bind fun v => readFloat? v.toList

/-- How many settings have been reported. -/
def size (s : Settings) : Nat := s.entries.length

/-- A report is what is read afterwards. -/
@[simp] theorem get?_insert_self (s : Settings) (id value : String) :
    (s.insert id value).get? id = some value := by
  simp only [insert, get?]
  generalize s.entries = es
  fun_induction insertEntry id value es with
  | case1 => simp
  | case2 => simp
  | case3 => simp
  | case4 k v rest hne _ ih => rw [List.lookup_cons, beq_false_of_ne hne, ih]

/-- A report leaves every other setting as it was. -/
theorem get?_insert_of_ne (s : Settings) {id other : String} (value : String) (h : other ≠ id) :
    (s.insert id value).get? other = s.get? other := by
  simp only [insert, get?]
  generalize s.entries = es
  fun_induction insertEntry id value es with
  | case1 => simp [List.lookup_cons, beq_false_of_ne h]
  | case2 => simp [List.lookup_cons, beq_false_of_ne h]
  | case3 => simp [List.lookup_cons, beq_false_of_ne h]
  | case4 k v rest hne _ ih => rw [List.lookup_cons, List.lookup_cons, ih]

end Settings

end Cnc
