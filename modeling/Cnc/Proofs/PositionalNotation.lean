import Mathlib
import Cnc.Decimal.Layout
import Cnc.Proofs.DecimalRounding
import Cnc.Proofs.Reception
import Cnc.Proofs.ShortestDigits

/-!
# Positional notation is read back

A finite number that is written positionally is a plain decimal: a sign, digits,
and perhaps a point and more digits, never an exponent (`Layout.IsPlain`). Read
back, it is the same number, zero with its sign
(`Layout.read?_positional`).

The digits that are written round to the number (`Binary.isRounding_shortest`),
and reading rounds the decimal that they write (`Decimal.toFloat_spec`); there is
only one result of rounding. What is left is that placing the digits around the
point does not change what they write (`Layout.placeDigits_plain`), and that the
parts of a number are those that arithmetic unpacks (`Binary.ofFloat?_of_finite`).
-/

namespace Cnc

open Float.Model UnpackedFloat FloatScalar

/-! ## The parts of a number -/

section Bits

variable (b : BitVec Format.binary64.numBits)

theorem toNat_unpackMantissa : (unpackMantissa b).toNat = b.toNat % 2 ^ 52 := by
  simp [unpackMantissa]

theorem toNat_unpackExponent : (unpackExponent b).toNat = b.toNat / 2 ^ 52 % 2 ^ 11 := by
  rw [unpackExponent, BitVec.toNat_cast, BitVec.extractLsb_toNat, Nat.shiftRight_eq_div_pow]
  rfl

theorem toNat_unpackSign : (unpackSign b).toNat = b.toNat / 2 ^ 63 % 2 := by
  rw [unpackSign, BitVec.toNat_cast, BitVec.extractLsb_toNat, Nat.shiftRight_eq_div_pow]
  rfl

end Bits

namespace Binary

/-- The sign of a number. -/
def sign (b : Binary) : Sign := if b.negative then .negative else .positive

/-- **The parts of a finite number** are those that it is unpacked to. -/
theorem ofFloat?_of_finite {x : Float} (finite : Scalar.isFinite x = true) :
    ∃ b, ofFloat? x = some b ∧ b.exponent ≤ 971 ∧
      (b.mantissa = 0 ∧ x.toModel.unpack = .zero b.sign ∨
        ∃ pos, x.toModel.unpack = .finite b.sign b.mantissa b.exponent pos) := by
  obtain ⟨bits, same⟩ : ∃ bits : BitVec Format.binary64.numBits, x.toBits.toBitVec = bits :=
    ⟨_, rfl⟩
  have unpacked : x.toModel.unpack = UnpackedFloat.unpack Format.binary64 bits := same ▸ rfl
  have finite : x.toModel.unpack.isFinite = true := finite
  have sign : Sign.ofBitVec (unpackSign bits) =
      if decide (bits.toNat / 2 ^ 63 % 2 = 1) then .negative else .positive := by
    rw [← toNat_unpackSign]
    obtain zero | one := BitVec.eq_zero_or_eq_one (unpackSign bits)
    · rw [zero]
      rfl
    · rw [one]
      rfl
  have notTop (top : unpackExponent bits ≠ -1#11) : (unpackExponent bits).toNat ≠ 2 ^ 11 - 1 :=
    fun same => top (BitVec.eq_of_toNat_eq same)
  rw [unpacked] at finite ⊢
  unfold ofFloat?
  rw [show x.toBits.toNat = bits.toNat from congrArg BitVec.toNat same]
  simp only [Nat.pow_eq, ← toNat_unpackMantissa, ← toNat_unpackExponent]
  revert finite
  fun_cases UnpackedFloat.unpack with
  | case1 => exact fun finite => Bool.noConfusion finite
  | case2 => exact fun finite => Bool.noConfusion finite
  | case3 m x _ s top least zero =>
    have none : (unpackExponent bits).toNat = 0 := congrArg BitVec.toNat least
    intro _
    rw [if_neg (notTop top), if_pos none]
    exact ⟨_, rfl, by norm_num, .inl ⟨congrArg BitVec.toNat zero, congrArg _ sign⟩⟩
  | case4 m x e _ s top least some_ =>
    have none : (unpackExponent bits).toNat = 0 := congrArg BitVec.toNat least
    have pos : 0 < (unpackMantissa bits).toNat :=
      Nat.pos_of_ne_zero fun zero => some_ (BitVec.eq_of_toNat_eq zero)
    have exponent : e + 1 = -1074 := by
      show ((unpackExponent bits).toNat : ℤ) - _ + 1 = _
      rw [none]
      rfl
    intro _
    rw [if_neg (notTop top), if_pos none]
    refine ⟨_, rfl, by norm_num, .inr ⟨pos, ?_⟩⟩
    rw [UnpackedFloat.finite.injEq]
    exact ⟨sign, rfl, exponent⟩
  | case5 m x e _ s top least =>
    have some_ : (unpackExponent bits).toNat ≠ 0 := fun zero => least (BitVec.eq_of_toNat_eq zero)
    have below : (unpackExponent bits).toNat < 2 ^ 11 := (unpackExponent bits).isLt
    have top := notTop top
    intro _
    rw [if_neg top, if_neg some_]
    refine ⟨_, rfl, by dsimp only; omega, .inr ⟨by positivity, ?_⟩⟩
    rw [UnpackedFloat.finite.injEq]
    exact ⟨sign, toNat_leading_append _, rfl⟩

end Binary

namespace Layout

/-! ## Plain decimals -/

/-- **A plain decimal**: digits, and perhaps a point and more digits. -/
structure IsPlain (s whole fraction : List Char) : Prop where
  some_ : whole ≠ []
  digits : ∀ c ∈ whole ++ fraction, c.isDigit = true
  text : s = whole ++ if fraction = [] then [] else '.' :: fraction

theorem isDigit_digitsOf {n : ℕ} {c : Char} (own : c ∈ digitsOf n) : c.isDigit = true :=
  Nat.isDigit_of_mem_toDigits (by decide) (by decide) own

theorem isDigit_zeros {n : ℕ} {c : Char} (own : c ∈ zeros n) : c.isDigit = true := by
  rw [List.eq_of_mem_replicate own]
  decide

/-- Zeros behind the digits of a number multiply it, -/
theorem naturalOfDigits_digitsOf_zeros (n p : ℕ) :
    naturalOfDigits (digitsOf n ++ zeros p) = n * 10 ^ p := by
  have digits : ∀ c ∈ digitsOf n ++ zeros p, c.isDigit = true := fun c own =>
    (List.mem_append.mp own).elim isDigit_digitsOf isDigit_zeros
  rw [naturalOfDigits_eq digits, Nat.ofDigitChars_append, zeros,
    Nat.ofDigitChars_replicate_zero, Nat.mul_comm]
  exact congrArg (· * 10 ^ p) Nat.ofDigitChars_ten_toDigits

/-- and zeros before them do not change it. -/
theorem naturalOfDigits_zeros_digitsOf (n p : ℕ) :
    naturalOfDigits (zeros p ++ digitsOf n) = n := by
  have digits : ∀ c ∈ zeros p ++ digitsOf n, c.isDigit = true := fun c own =>
    (List.mem_append.mp own).elim isDigit_zeros isDigit_digitsOf
  rw [naturalOfDigits_eq digits, Nat.ofDigitChars_append, zeros,
    Nat.ofDigitChars_replicate_zero, Nat.mul_zero]
  exact Nat.ofDigitChars_ten_toDigits

/-- **Placed digits are a plain decimal** that writes the number which they are the digits of. -/
theorem placeDigits_plain (n : ℕ) (k : ℤ) :
    ∃ whole fraction, IsPlain (placeDigits n k) whole fraction ∧
      naturalOfDigits (whole ++ fraction) = n * 10 ^ k.toNat ∧ fraction.length = (-k).toNat := by
  have some_ : digitsOf n ≠ [] := Nat.toDigits_ne_nil
  have length := List.length_pos_of_ne_nil some_
  unfold placeDigits
  dsimp only
  split
  · next nonneg =>
    refine ⟨digitsOf n ++ zeros k.toNat, [], ⟨by simp [some_], fun c own => ?_, by simp⟩, ?_, ?_⟩
    · rw [List.append_nil] at own
      exact (List.mem_append.mp own).elim isDigit_digitsOf isDigit_zeros
    · rw [List.append_nil, naturalOfDigits_digitsOf_zeros]
    · rw [List.length_nil]
      omega
  · next negative =>
    have none : n * 10 ^ k.toNat = n := by
      rw [show k.toNat = 0 by omega, pow_zero, Nat.mul_one]
    rw [none]
    split
    · next inside =>
      obtain ⟨p, place⟩ : ∃ p, (((digitsOf n).length : ℤ) + k).toNat = p := ⟨_, rfl⟩
      rw [place]
      have first : (digitsOf n).take p ≠ [] :=
        List.ne_nil_of_length_pos (by rw [List.length_take]; omega)
      have rest : (digitsOf n).drop p ≠ [] :=
        List.ne_nil_of_length_pos (by rw [List.length_drop]; omega)
      refine ⟨_, _, ⟨first, fun c own => ?_, by rw [if_neg rest]⟩, ?_, ?_⟩
      · rw [List.take_append_drop] at own
        exact isDigit_digitsOf own
      · rw [List.take_append_drop]
        exact naturalOfDigits_zeros_digitsOf n 0
      · rw [List.length_drop]
        omega
    · next outside =>
      obtain ⟨p, place⟩ : ∃ p, (-(((digitsOf n).length : ℤ) + k)).toNat = p := ⟨_, rfl⟩
      rw [place]
      -- the zero before the point is one more of the zeros that lead
      have leads : ['0'] ++ (zeros p ++ digitsOf n) = zeros (p + 1) ++ digitsOf n := rfl
      refine ⟨['0'], zeros p ++ digitsOf n, ⟨by simp, fun c own => ?_, by simp [some_]⟩, ?_, ?_⟩
      · rw [leads] at own
        exact (List.mem_append.mp own).elim isDigit_zeros isDigit_digitsOf
      · rw [leads, naturalOfDigits_zeros_digitsOf]
      · rw [List.length_append, zeros, List.length_replicate]
        omega

/-! ## Reading plain decimals -/

variable {s whole fraction : List Char} {negative plus : Bool}

theorem takeSign_signText (plain : IsPlain s whole fraction) :
    takeSign (signText negative plus ++ s) = (negative, s) := by
  obtain ⟨c, rest, rfl⟩ := List.exists_cons_of_ne_nil plain.some_
  have digit : c.isDigit = true := plain.digits c (by simp)
  rw [plain.text]
  cases negative
  · cases plus
    · show takeSign (c :: _) = _
      unfold takeSign
      split
      · next same =>
        rw [(List.cons.inj same).1] at digit
        exact absurd digit (by decide)
      · next same =>
        rw [(List.cons.inj same).1] at digit
        exact absurd digit (by decide)
      · rfl
    · rfl
  · rfl

/-- **A plain decimal is read** as its digits and the number of those behind the point. -/
theorem read?_plain (plain : IsPlain s whole fraction) :
    Decimal.read? (signText negative plus ++ s) =
      some ⟨negative, naturalOfDigits (whole ++ fraction), -fraction.length⟩ := by
  have point : isAsciiDigit '.' = false := by decide
  have ascii : ∀ c ∈ whole ++ fraction, isAsciiDigit c = true :=
    fun c own => isAsciiDigit_of_isDigit (plain.digits c own)
  have front : ∀ c ∈ whole, isAsciiDigit c = true := fun c own =>
    ascii c (List.mem_append_left _ own)
  have back : ∀ c ∈ fraction, isAsciiDigit c = true := fun c own =>
    ascii c (List.mem_append_right _ own)
  unfold Decimal.read?
  rw [takeSign_signText plain, plain.text]
  dsimp only
  rw [List.takeWhile_append_of_pos front, List.dropWhile_append_of_pos front]
  by_cases none : fraction = []
  · simp [none, plain.some_, Decimal.readExponent?]
  · rw [if_neg none]
    simp only [List.takeWhile_cons, List.dropWhile_cons, point, Bool.false_eq_true, if_false,
      List.append_nil]
    rw [← List.append_nil fraction, List.takeWhile_append_of_pos back,
      List.dropWhile_append_of_pos back]
    simp [plain.some_, Decimal.readExponent?]

/-! ## Reading back -/

/-- Only zero is rounded from zero. -/
theorem isRounding_ne_zero {s : Sign} {m : ℕ} {e : ℤ} {pos : 0 < m} {y : ℚ}
    (rounding : IsRounding s y (.finite s m e pos)) : y ≠ 0 := by
  rintro rfl
  have zero := isRounding_zero s le_rfl (by positivity)
  exact UnpackedFloat.noConfusion (rounding.unique zero)

/-- **What is written positionally** of a finite number: its sign, and digits of a decimal that is
read as the number. -/
theorem positional_of_finite {x : Float} (finite : Scalar.isFinite x = true) (plus : Bool) :
    ∃ negative n k, positional x plus = signText negative plus ++ placeDigits n k ∧
      Decimal.toFloat ⟨negative, n * 10 ^ k.toNat, -((-k).toNat : ℕ)⟩ = x := by
  obtain ⟨b, found, small, ⟨zero, unpacked⟩ | ⟨pos, unpacked⟩⟩ := Binary.ofFloat?_of_finite finite
  · refine ⟨b.negative, 0, 0, ?_, ?_⟩
    · unfold positional
      rw [found]
      simp [zero]
    · unfold Binary.sign at unpacked
      cases sign : b.negative with
      | true =>
        rw [sign] at unpacked
        have same : x = -0 := ext_unpack unpacked
        rw [same]
        decide +kernel
      | false =>
        rw [sign] at unpacked
        have same : x = 0 := ext_unpack unpacked
        rw [same]
        decide +kernel
  · have fits : Fits b.mantissa b.exponent := by
      have stored := stored_of_finite finite
      rwa [unpacked] at stored
    have rounding := Binary.isRounding_shortest b.sign fits pos small .away
    refine ⟨b.negative, (b.shortest .away).1, (b.shortest .away).2, ?_, ?_⟩
    · unfold positional
      rw [found]
      simp [pos.ne']
    · generalize (b.shortest .away).1 = n, (b.shortest .away).2 = k at rounding
      have split : (n : ℚ) * 10 ^ k = (n * 10 ^ k.toNat : ℕ) * 10 ^ (-((-k).toNat : ℕ) : ℤ) := by
        rw [zpow_eq_div (by norm_num), zpow_neg, zpow_natCast]
        push_cast
        ring
      have some_ : n * 10 ^ k.toNat ≠ 0 := by
        intro none
        refine isRounding_ne_zero rounding ?_
        rw [split, none, Nat.cast_zero, zero_mul]
      obtain ⟨u, rounding', read⟩ :=
        Decimal.toFloat_spec ⟨b.negative, n * 10 ^ k.toNat, -((-k).toNat : ℕ)⟩ some_
      rw [split] at rounding
      have same : u = .finite b.sign b.mantissa b.exponent pos := rounding'.unique rounding
      apply ext_unpack
      rw [read, same, ← unpacked, readBack_unpack]

/-- **Positional notation is read back.** -/
theorem read?_positional {x : Float} (finite : Scalar.isFinite x = true) (plus : Bool) :
    (Decimal.read? (positional x plus)).map Decimal.toFloat = some x := by
  obtain ⟨negative, n, k, text, value⟩ := positional_of_finite finite plus
  obtain ⟨whole, fraction, plain, digits, length⟩ := placeDigits_plain n k
  rw [text, read?_plain plain, digits, length, Option.map_some, value]

end Layout

end Cnc
