/-!
# Blank characters

The characters that count as white space are those with the Unicode
property `White_Space`: the five ASCII controls from tab to carriage
return, the space, next line, no-break space, and the separators of the
general punctuation and ideographic blocks. Every trimming in this library
uses this one class.

The statements below pin trimming down: what is left neither begins nor
ends with a blank, and trimming again changes nothing.
-/

namespace Cnc.Text

/-- Whether a character has the Unicode property `White_Space`. -/
def isBlank (c : Char) : Bool :=
  let n := c.toNat
  (0x09 ≤ n && n ≤ 0x0D) || n == 0x20 || n == 0x85 || n == 0xA0 || n == 0x1680
    || (0x2000 ≤ n && n ≤ 0x200A) || n == 0x2028 || n == 0x2029 || n == 0x202F
    || n == 0x205F || n == 0x3000

/-- The text without the blanks it begins with. -/
def trimStart (s : List Char) : List Char := s.dropWhile isBlank

/-- The text without the blanks it ends with. -/
def trimEnd (s : List Char) : List Char := (s.reverse.dropWhile isBlank).reverse

/-- The text without the blanks at either end. -/
def trim (s : List Char) : List Char := trimEnd (trimStart s)

/-- Every ASCII white space character of the core library is a blank. -/
theorem isBlank_of_isWhitespace {c : Char} (h : c.isWhitespace = true) : isBlank c = true := by
  simp only [Char.isWhitespace, Bool.or_eq_true, decide_eq_true_eq] at h
  rcases h with ((rfl | rfl) | rfl) | rfl <;> rfl

@[simp] theorem trim_nil : trim [] = [] := rfl

/-! ## What is left -/

theorem notBlank_of_head_trimStart {s : List Char} {c : Char}
    (first : (trimStart s).head? = some c) : isBlank c = false := by
  have := List.head?_dropWhile_not isBlank s
  unfold trimStart at first
  rwa [first] at this

theorem notBlank_of_getLast_trimEnd {s : List Char} {c : Char}
    (last : (trimEnd s).getLast? = some c) : isBlank c = false := by
  unfold trimEnd at last
  rw [List.getLast?_reverse] at last
  exact notBlank_of_head_trimStart last

/-- A text that begins with something else than a blank keeps its beginning. -/
theorem trimStart_of_head {s : List Char} (first : ∀ c ∈ s.head?, isBlank c = false) :
    trimStart s = s := by
  cases s with
  | nil => rfl
  | cons c s => exact List.dropWhile_cons_of_neg (by simp [first c rfl])

/-- A text that ends with something else than a blank keeps its end. -/
theorem trimEnd_of_getLast {s : List Char} (last : ∀ c ∈ s.getLast?, isBlank c = false) :
    trimEnd s = s := by
  have reversed : trimStart s.reverse = s.reverse :=
    trimStart_of_head (by rwa [List.head?_reverse])
  unfold trimEnd
  rw [show s.reverse.dropWhile isBlank = s.reverse from reversed, List.reverse_reverse]

/-- What is trimmed at its end begins like the text. -/
theorem trimEnd_initial (s : List Char) : trimEnd s <+: s := by
  have rest := List.dropWhile_suffix (l := s.reverse) isBlank
  have reversed := List.reverse_prefix.mpr rest
  rwa [List.reverse_reverse] at reversed

/-- What is left of a text does not begin with a blank. -/
theorem notBlank_of_head_trim {s : List Char} {c : Char} (first : (trim s).head? = some c) :
    isBlank c = false := by
  obtain ⟨back, parts⟩ := trimEnd_initial (trimStart s)
  refine notBlank_of_head_trimStart (s := s) (c := c) ?_
  rw [← parts, List.head?_append, show (trimEnd (trimStart s)).head? = some c from first]
  rfl

/-- **Trimming again changes nothing.** -/
theorem trim_trim (s : List Char) : trim (trim s) = trim s := by
  have start : trimStart (trim s) = trim s := trimStart_of_head fun _ => notBlank_of_head_trim
  have last : trimEnd (trim s) = trim s :=
    trimEnd_of_getLast fun _ => notBlank_of_getLast_trimEnd
  rw [trim, start, last]

end Cnc.Text
