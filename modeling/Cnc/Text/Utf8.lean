/-!
# Reading UTF-8 that may be damaged

Bytes from a wire need not be well-formed UTF-8. They are read one by one:
a `Utf8.Pending` value holds what has been read of a character, together
with the ranges its remaining bytes have to lie in. A byte outside its
range ends the attempt, which then counts as one replacement character,
and is itself read as the beginning of the next character; so every
maximal beginning of a well-formed character that is cut short becomes
exactly one replacement character, and so does every byte that begins none.

`Utf8.decodeLossy` reads a whole byte string this way, starting and ending
between characters.
-/

namespace Cnc.Text.Utf8

/-- What damaged input is read as. -/
def replacement : Char := '\ufffd'

/-- A character of which some bytes have been read. -/
structure Pending where
  /-- The bits collected so far. -/
  bits : Nat
  /-- The range of the next byte. -/
  low : UInt8
  /-- The range of the next byte. -/
  high : UInt8
  /-- How many bytes follow the next one; each lies in `0x80 … 0xBF`. -/
  more : Nat
deriving DecidableEq, Repr

/-- How a byte that begins a character is taken: a whole character, the first byte of a longer
one, or `none` if no character begins with it. Overlong forms, surrogates and code points past
`0x10FFFF` are excluded by the range of the second byte. -/
def begin? (b : UInt8) : Option (Char ⊕ Pending) :=
  if b < 0x80 then some (.inl (Char.ofNat b.toNat))
  else if b < 0xC2 then none
  else if b < 0xE0 then some (.inr ⟨b.toNat - 0xC0, 0x80, 0xBF, 0⟩)
  else if b < 0xF0 then
    some (.inr
      ⟨b.toNat - 0xE0, if b = 0xE0 then 0xA0 else 0x80, if b = 0xED then 0x9F else 0xBF, 1⟩)
  else if b < 0xF5 then
    some (.inr
      ⟨b.toNat - 0xF0, if b = 0xF0 then 0x90 else 0x80, if b = 0xF4 then 0x8F else 0xBF, 2⟩)
  else none

/-- Reads bytes, in the middle of the character `pending` if there is one. -/
def decodeFrom (pending : Option Pending) (bytes : List UInt8) : List Char :=
  match bytes with
  | [] => if pending.isSome then [replacement] else []
  | b :: rest =>
    match pending with
    | some p =>
      if p.low ≤ b ∧ b ≤ p.high then
        let bits := p.bits * 64 + (b.toNat - 0x80)
        match p.more with
        | 0 => Char.ofNat bits :: decodeFrom none rest
        | more + 1 => decodeFrom (some ⟨bits, 0x80, 0xBF, more⟩) rest
      else
        match begin? b with
        | some (.inl c) => replacement :: c :: decodeFrom none rest
        | some (.inr p) => replacement :: decodeFrom (some p) rest
        | none => replacement :: replacement :: decodeFrom none rest
    | none =>
      match begin? b with
      | some (.inl c) => c :: decodeFrom none rest
      | some (.inr p) => decodeFrom (some p) rest
      | none => replacement :: decodeFrom none rest

/-- The text of a byte string, with damaged parts replaced. -/
def decodeLossy (bytes : List UInt8) : List Char := decodeFrom none bytes

@[simp] theorem decodeLossy_nil : decodeLossy [] = [] := rfl

/-- ASCII bytes are read as themselves, whatever follows. -/
theorem decodeLossy_cons_ascii {b : UInt8} (h : b < 0x80) (rest : List UInt8) :
    decodeLossy (b :: rest) = Char.ofNat b.toNat :: decodeLossy rest := by
  simp [decodeLossy, decodeFrom, begin?, h]

end Cnc.Text.Utf8
