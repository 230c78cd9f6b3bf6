import Mathlib.Data.List.Basic
import Mathlib.Tactic.Common

/-! # Texts as lists of bytes

Lean keeps the UTF-8 encoding of a text in a byte array. Here it is read as a list of bytes and
turned back into the text.
-/

namespace NodeKv.Machine

theorem toList_loop (bytes : ByteArray) (index : ℕ) (read : List UInt8) :
    ByteArray.toList.loop bytes index read = read.reverse ++ bytes.data.toList.drop index := by
  fun_induction ByteArray.toList.loop bytes index read with
  | case1 index read inside ih =>
    have within : index < bytes.data.toList.length := by simpa using inside
    rw [ih, List.reverse_cons, List.append_assoc, List.singleton_append,
      List.drop_eq_getElem_cons within]
    congr 2
    simp [ByteArray.get!, inside]
  | case2 index read outside =>
    rw [List.drop_eq_nil_of_le (by simpa using outside), List.append_nil]

theorem toList_eq (bytes : ByteArray) : bytes.toList = bytes.data.toList := toList_loop bytes 0 []

theorem toByteArray_toList (bytes : ByteArray) : bytes.toList.toByteArray = bytes := by
  rw [toList_eq]
  ext1
  simp

/-- The text that some bytes encode. -/
def fromUtf8 (bytes : List UInt8) : Option String := String.fromUTF8? bytes.toByteArray

theorem fromUtf8_toUTF8 (text : String) : fromUtf8 text.toUTF8.toList = some text := by
  rw [fromUtf8, toByteArray_toList]
  exact dif_pos text.isValidUTF8

theorem toUTF8_toList_injective : Function.Injective fun text : String => text.toUTF8.toList := by
  intro left right same
  have read := congrArg fromUtf8 same
  rw [fromUtf8_toUTF8, fromUtf8_toUTF8] at read
  exact Option.some.inj read

theorem utf8_ofList (chars : List Char) :
    (String.ofList chars).toUTF8.toList = chars.flatMap String.utf8EncodeChar := by
  rw [toList_eq, String.toUTF8_eq_toByteArray, String.toByteArray_ofList, List.utf8Encode]
  simp

theorem utf8EncodeChar_ascii {byte : UInt8} (small : byte < 128) :
    String.utf8EncodeChar (Char.ofNat byte.toNat) = [byte] := by
  have below : byte.toNat < 128 := UInt8.lt_iff_toNat_lt.mp small
  have valid : (Char.ofNat byte.toNat).val.toNat = byte.toNat := by
    rw [Char.ofNat, dif_pos (by left; omega)]
    rfl
  rw [String.utf8EncodeChar, valid]
  simp [show byte.toNat ≤ 127 by omega]

/-- ASCII bytes encode the text of the same characters. -/
theorem utf8_ascii {bytes : List UInt8} (small : ∀ byte ∈ bytes, byte < 128) :
    (String.ofList (bytes.map fun byte => Char.ofNat byte.toNat)).toUTF8.toList = bytes := by
  rw [utf8_ofList, List.flatMap_map]
  induction bytes with
  | nil => rfl
  | cons byte rest ih =>
    rw [List.flatMap_cons, utf8EncodeChar_ascii (small byte (List.mem_cons_self ..)),
      ih fun other member => small other (List.mem_cons_of_mem _ member), List.singleton_append]

/-- The byte of an ASCII character. -/
def asciiByte (char : Char) : UInt8 := UInt8.ofNat char.toNat

theorem utf8EncodeChar_eq_asciiByte {char : Char} (small : char.toNat < 128) :
    String.utf8EncodeChar char = [asciiByte char] := by
  have same : (asciiByte char).toNat = char.toNat := by
    simp only [asciiByte, UInt8.toNat_ofNat']
    omega
  have ascii : asciiByte char < 128 := UInt8.lt_iff_toNat_lt.mpr (same ▸ small)
  rw [← utf8EncodeChar_ascii ascii, same, Char.ofNat_toNat]

/-- An ASCII text is encoded character by character. -/
theorem utf8_eq_map_asciiByte {text : String} (ascii : ∀ char ∈ text.toList, char.toNat < 128) :
    text.toUTF8.toList = text.toList.map asciiByte := by
  rw [← String.ofList_toList (s := text), utf8_ofList, String.toList_ofList]
  generalize text.toList = chars at ascii
  induction chars with
  | nil => rfl
  | cons char rest ih =>
    rw [List.flatMap_cons, utf8EncodeChar_eq_asciiByte (ascii char (List.mem_cons_self ..)),
      ih fun other member => ascii other (List.mem_cons_of_mem _ member), List.singleton_append,
      List.map_cons]

theorem utf8_toList (text : String) :
    text.toUTF8.toList = text.toList.flatMap String.utf8EncodeChar := by
  rw [← utf8_ofList, String.ofList_toList]

theorem utf8_append (front back : String) :
    (front ++ back).toUTF8.toList = front.toUTF8.toList ++ back.toUTF8.toList := by
  rw [utf8_toList, utf8_toList, utf8_toList, String.toList_append, List.flatMap_append]

theorem ofNat_ne_zero {code : ℕ} (some : 0 < code) (small : code < 256) : UInt8.ofNat code ≠ 0 := by
  intro zero
  have codes := congrArg UInt8.toNat zero
  rw [UInt8.toNat_ofNat', Nat.mod_eq_of_lt small, UInt8.toNat_zero] at codes
  omega

/-- Only the character NUL is encoded with a byte that is zero. -/
theorem zero_mem_utf8EncodeChar {char : Char} (member : 0 ∈ String.utf8EncodeChar char) :
    char = '\x00' := by
  rw [String.utf8EncodeChar] at member
  -- The bytes of longer encodings have their highest bit set.
  split_ifs at member with one two three
  · have code : char.val.toNat = 0 := by
      by_contra positive
      exact ofNat_ne_zero (by omega) (by omega) (List.mem_singleton.mp member).symm
    exact Char.ext (UInt32.toNat_inj.mp code)
  · rcases List.mem_pair.mp member with zero | zero <;>
      exact absurd zero.symm (ofNat_ne_zero (by omega) (by omega))
  · simp only [List.mem_cons, List.not_mem_nil, or_false] at member
    rcases member with zero | zero | zero <;>
      exact absurd zero.symm (ofNat_ne_zero (by omega) (by omega))
  · simp only [List.mem_cons, List.not_mem_nil, or_false] at member
    rcases member with zero | zero | zero | zero <;>
      exact absurd zero.symm (ofNat_ne_zero (by omega) (by omega))

/-- The bytes in front of the first zero encode the characters in front of the first NUL. -/
theorem takeWhile_utf8 (text : String) (rest : List UInt8) :
    (text.toUTF8.toList ++ 0 :: rest).takeWhile (· ≠ 0) =
      (String.ofList (text.toList.takeWhile (· ≠ '\x00'))).toUTF8.toList := by
  rw [utf8_toList, utf8_ofList]
  induction text.toList with
  | nil => rfl
  | cons char chars ih =>
    by_cases nul : char = '\x00'
    · subst nul
      rfl
    · have clean : ∀ byte ∈ String.utf8EncodeChar char, decide (byte ≠ 0) = true := by
        intro byte member
        exact decide_eq_true fun zero => nul (zero_mem_utf8EncodeChar (zero ▸ member))
      rw [List.flatMap_cons, List.append_assoc, List.takeWhile_append_of_pos clean, ih,
        List.takeWhile_cons, if_pos (decide_eq_true nul), List.flatMap_cons]

end NodeKv.Machine
