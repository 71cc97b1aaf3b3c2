import Mathlib.Data.List.Basic
import Cnc.Link.Post

/-!
# The bytes of a payload

What goes over the wire is bytes, and the device counts the lines that it
receives by their line feeds. A payload is *plain* if it is a line with one
line feed, at its end, or a realtime command: then the bytes have as many
line feeds as there are lines (`Payload.count_lineFeed_flatMap`).
-/

namespace Cnc

/-- The bytes of a byte array, read one by one, are its bytes. -/
theorem toList_byteArray (bs : ByteArray) : bs.toList = bs.data.toList := by
  have loop (i : Nat) (r : List UInt8) :
      ByteArray.toList.loop bs i r = r.reverse ++ bs.data.toList.drop i := by
    fun_induction ByteArray.toList.loop bs i r with
    | case1 i r inside ih =>
      have here : i < bs.data.toList.length := inside
      have byte : bs.get! i = bs.data.toList[i] := by
        simp [ByteArray.get!, getElem!_pos bs.data i inside]
      rw [ih, List.reverse_cons, List.append_assoc, List.drop_eq_getElem_cons here, byte]
      rfl
    | case2 i r outside =>
      have done : bs.data.toList.length ≤ i := Nat.not_lt.mp outside
      rw [List.drop_eq_nil_of_le done, List.append_nil]
  exact (loop 0 []).trans (List.nil_append _)

/-- The bytes of a text are those of its characters. -/
theorem toList_toUTF8 (s : String) : s.toUTF8.toList = s.toList.flatMap String.utf8EncodeChar := by
  rw [toList_byteArray, String.toUTF8_eq_toByteArray, ← String.utf8Encode_toList, List.utf8Encode,
    List.toList_data_toByteArray]

theorem ofNat_ne_lineFeed_byte {n : Nat} (large : 0x80 ≤ n) (small : n < 256) :
    UInt8.ofNat n ≠ 10 := by
  intro same
  have value := congrArg UInt8.toNat same
  rw [UInt8.toNat_ofNat_of_lt' small] at value
  have : n = 10 := value
  omega

/-- Only a line feed is encoded with the byte of a line feed. -/
theorem count_lineFeed_encode (c : Char) :
    (String.utf8EncodeChar c).count 10 = if c = '\n' then 1 else 0 := by
  by_cases lineFeed : c = '\n'
  · subst lineFeed
    rfl
  · rw [if_neg lineFeed, List.count_eq_zero]
    have other : c.val.toNat ≠ 10 := fun same => lineFeed (Char.ext (UInt32.toNat_inj.mp same))
    unfold String.utf8EncodeChar
    dsimp only
    split
    · next ascii =>
      rw [List.mem_singleton]
      intro same
      have value := congrArg UInt8.toNat same
      rw [UInt8.toNat_ofNat_of_lt' (by show c.val.toNat < 256; omega)] at value
      exact other value.symm
    · have byte {n m : Nat} (large : 0x80 ≤ m) (small : n + m < 256) : 10 ≠ UInt8.ofNat (n + m) :=
        (ofNat_ne_lineFeed_byte (by omega) small).symm
      have short {n m : Nat} (positive : 0 < m) : n % m < m := Nat.mod_lt n positive
      split
      · simp only [List.mem_cons, List.not_mem_nil, or_false, not_or]
        exact ⟨byte (by decide) (by omega), byte (by decide) (by omega)⟩
      · split
        · simp only [List.mem_cons, List.not_mem_nil, or_false, not_or]
          exact ⟨byte (by decide) (by omega), byte (by decide) (by omega),
            byte (by decide) (by omega)⟩
        · simp only [List.mem_cons, List.not_mem_nil, or_false, not_or]
          exact ⟨byte (by decide) (by omega), byte (by decide) (by omega),
            byte (by decide) (by omega), byte (by decide) (by omega)⟩

/-- The bytes of a text have as many line feeds as the text. -/
theorem count_lineFeed_toUTF8 (s : String) : s.toUTF8.toList.count 10 = s.toList.count '\n' := by
  rw [toList_toUTF8]
  induction s.toList with
  | nil => rfl
  | cons c cs ih =>
    rw [List.flatMap_cons, List.count_append, ih, count_lineFeed_encode, List.count_cons,
      Nat.add_comm]
    simp

namespace Payload

/-- Whether a line has one line feed, at its end. -/
def plain : Payload → Bool
  | line text => text.toList.getLast? = some '\n' ∧ '\n' ∉ text.toList.dropLast
  | realtime _ => true

/-- How many line feeds a line has before its last character. -/
def surplus : Payload → Nat
  | line text => text.toList.dropLast.count '\n'
  | realtime _ => 0

/-- **A text as a line** is the text up to a line feed at its end, and one line feed. -/
theorem ofLine_eq (text : String) : ∃ body : List Char,
    ofLine text = line (String.ofList (body ++ ['\n'])) ∧
      body.count '\n' = text.toList.dropLast.count '\n' := by
  by_cases ended : text.toList.getLast? = some '\n'
  · refine ⟨text.toList.dropLast, ?_, rfl⟩
    rw [ofLine, if_pos ended, List.dropLast_append_getLast? '\n' ended, String.ofList_toList]
  · refine ⟨text.toList, by rw [ofLine, if_neg ended, String.ofList_append, String.ofList_toList],
      ?_⟩
    rcases List.eq_nil_or_concat text.toList with none | ⟨body, c, parts⟩
    · rw [none]
      rfl
    · rw [List.concat_eq_append] at parts
      rw [parts, List.getLast?_concat] at ended
      have other : '\n' ∉ [c] := fun last => ended (by rw [List.mem_singleton.mp last])
      rw [parts, List.dropLast_concat, List.count_append, List.count_eq_zero.mpr other,
        Nat.add_zero]

theorem surplus_ofLine (text : String) :
    (ofLine text).surplus = text.toList.dropLast.count '\n' := by
  obtain ⟨body, same, count⟩ := ofLine_eq text
  rw [same, surplus, String.toList_ofList, List.dropLast_concat, count]

/-- A text makes a plain line exactly if it has no line feed, except perhaps at its end. -/
theorem plain_ofLine (text : String) :
    (ofLine text).plain = true ↔ '\n' ∉ text.toList.dropLast := by
  obtain ⟨body, same, count⟩ := ofLine_eq text
  rw [← List.count_eq_zero, ← count, List.count_eq_zero, same]
  simp [plain]

/-- **The device receives a line feed more than there are in the text** before its end. -/
theorem count_lineFeed_ofLine (text : String) :
    (ofLine text).bytes.count 10 = (ofLine text).surplus + 1 := by
  obtain ⟨body, same, count⟩ := ofLine_eq text
  rw [surplus_ofLine, ← count, same, bytes, count_lineFeed_toUTF8, String.toList_ofList,
    List.count_append]
  rfl

theorem count_lineFeed_bytes {p : Payload} (plain : p.plain = true) :
    p.bytes.count 10 = if p.isLine then 1 else 0 := by
  cases p with
  | realtime command => cases command <;> rfl
  | line text =>
    obtain ⟨ended, body⟩ : text.toList.getLast? = some '\n' ∧ '\n' ∉ text.toList.dropLast := by
      simpa [Payload.plain] using plain
    have parts := List.dropLast_append_getLast? '\n' ended
    show text.toUTF8.toList.count 10 = 1
    rw [count_lineFeed_toUTF8, ← parts, List.count_append, List.count_eq_zero.mpr body]
    rfl

/-- **The device receives as many line feeds as lines**, if all payloads are plain. -/
theorem count_lineFeed_flatMap {ps : List Payload} (plain : ∀ p ∈ ps, p.plain = true) :
    (ps.flatMap bytes).count 10 = (ps.filter isLine).length := by
  induction ps with
  | nil => rfl
  | cons p ps ih =>
    rw [List.flatMap_cons, List.count_append, count_lineFeed_bytes (plain p List.mem_cons_self),
      ih fun q hq => plain q (List.mem_cons_of_mem _ hq), List.filter_cons]
    cases p.isLine
    · simp
    · simp [Nat.add_comm]

end Payload

end Cnc
