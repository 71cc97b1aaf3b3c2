import Mathlib.Data.List.Basic

/-!
# Texts in pieces

A text falls into pieces at a separator: lines at line feeds, the fields of a
report at bars, the numbers of a list at commas. `Text.Pieces` says what the
pieces of a text are without saying how they are found, and there is one way
only in which a text falls into pieces (`Text.pieces_iff`).
-/

namespace Cnc.Text

/-- Splitting what was appended: all pieces but the last one stay. -/
theorem splitOn_append {α : Type*} [BEq α] [LawfulBEq α] {a : α} {xs : List α} {ls : List (List α)}
    {l : List α} (pieces : xs.splitOn a = ls ++ [l]) (ys : List α) :
    (xs ++ ys).splitOn a = ls ++ (l ++ ys).splitOn a := by
  induction xs generalizing ls l with
  | nil =>
    rw [List.splitOn_nil] at pieces
    obtain ⟨rfl, rfl⟩ : ls = [] ∧ l = [] := by
      cases ls with
      | nil => simpa [eq_comm] using pieces
      | cons => simp at pieces
    rfl
  | cons x xs ih =>
    rw [List.splitOn_cons_eq_if_modifyHead] at pieces
    rw [List.cons_append, List.splitOn_cons_eq_if_modifyHead]
    obtain ⟨first, others, parts⟩ := List.exists_cons_of_ne_nil (List.splitOn_ne_nil a xs)
    rw [parts] at pieces
    split at pieces
    · next isSep =>
      rw [if_pos isSep]
      cases ls with
      | nil => simp at pieces
      | cons p ls =>
        obtain ⟨rfl, rest⟩ := List.cons.inj pieces
        rw [ih (parts.trans rest)]
        rfl
    · next other =>
      rw [if_neg other]
      cases ls with
      | nil =>
        obtain ⟨rfl, rfl⟩ : x :: first = l ∧ others = [] := by simpa using pieces
        have one : xs.splitOn a = [] ++ [first] := parts
        rw [ih one, List.nil_append, List.nil_append, List.cons_append,
          List.splitOn_cons_eq_if_modifyHead, if_neg other]
      | cons p ls =>
        obtain ⟨rfl, rfl⟩ := List.cons.inj pieces
        have more : xs.splitOn a = (first :: ls) ++ [l] := parts
        rw [ih more]
        rfl

/-- What has no separator belongs to the first piece. -/
theorem splitOn_append_of_not_mem {α : Type*} [BEq α] [LawfulBEq α] {a : α} {xs : List α}
    (h : a ∉ xs) (ys : List α) : (xs ++ ys).splitOn a = (ys.splitOn a).modifyHead (xs ++ ·) := by
  induction xs with
  | nil =>
    obtain ⟨first, others, parts⟩ := List.exists_cons_of_ne_nil (List.splitOn_ne_nil a ys)
    rw [List.nil_append, parts]
    rfl
  | cons x xs ih =>
    have other : ¬ (x == a) = true := by
      rw [beq_iff_eq]
      rintro rfl
      exact h List.mem_cons_self
    rw [List.cons_append, List.splitOn_cons_eq_if_modifyHead, if_neg other,
      ih fun hx => h (List.mem_cons_of_mem _ hx), List.modifyHead_modifyHead]
    rfl

/-- What stands between separators has none. -/
theorem not_mem_of_mem_splitOn {α : Type*} [BEq α] [LawfulBEq α] {a : α} {xs piece : List α}
    (member : piece ∈ xs.splitOn a) : a ∉ piece := by
  induction xs generalizing piece with
  | nil =>
    rw [List.mem_singleton.mp member]
    exact List.not_mem_nil
  | cons x xs ih =>
    rw [List.splitOn_cons_eq_if_modifyHead] at member
    obtain ⟨first, others, parts⟩ := List.exists_cons_of_ne_nil (List.splitOn_ne_nil a xs)
    rw [parts] at ih member
    split at member
    · rcases List.mem_cons.mp member with rfl | later
      · exact List.not_mem_nil
      · exact ih later
    · next other =>
      rcases List.mem_cons.mp member with rfl | later
      · rw [List.mem_cons, not_or]
        exact ⟨fun same => other (beq_iff_eq.mpr same.symm), ih List.mem_cons_self⟩
      · exact ih (List.mem_cons_of_mem _ later)

/-- **How a text falls into pieces**: it is the pieces with separators between them, and no piece
has one inside. -/
structure Pieces (separator : Char) (text : List Char) (pieces : List (List Char)) : Prop where
  some : pieces ≠ []
  joined : [separator].intercalate pieces = text
  clean : ∀ piece ∈ pieces, separator ∉ piece

/-- **The pieces of a text** are those that it is split into. -/
theorem pieces_iff {separator : Char} {text : List Char} {pieces : List (List Char)} :
    Pieces separator text pieces ↔ text.splitOn separator = pieces := by
  constructor
  · rintro ⟨some, rfl, clean⟩
    exact List.splitOn_intercalate separator clean some
  · rintro rfl
    exact ⟨List.splitOn_ne_nil separator text, List.intercalate_splitOn separator,
      fun _ => not_mem_of_mem_splitOn⟩

end Cnc.Text
