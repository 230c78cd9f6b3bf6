import NodeKv.Machine.Utf8Order
import NodeKv.Proofs.Compare
import NodeKv.Soundness.Codec.Hex

/-! # The order of texts

The engines compare stored texts and hexadecimal values byte by byte, prefixes first. For texts this
is the order of their code points: neither UTF-8 nor the NUL at the end changes it. For hexadecimal
values it is the order of the spelling that they are read back in.
-/

namespace NodeKv

open Machine DataType

namespace Hex

private theorem toNat_digit {nibble : UInt8} (small : nibble.toNat < 16) :
    (hexDigits.digit nibble).toNat =
      if nibble.toNat < 10 then 48 + nibble.toNat else 87 + nibble.toNat := by
  have decimal : nibble < 10 ↔ nibble.toNat < 10 := UInt8.lt_iff_toNat_lt
  simp only [hexDigits.digit, decimal]
  split_ifs
  · rw [UInt8.toNat_add, Nat.mod_eq_of_lt (by simp; omega)]
    rfl
  · rw [UInt8.toNat_add, Nat.mod_eq_of_lt (by simp; omega)]
    rfl

private theorem digit_lt_iff {left right : UInt8} (small : left.toNat < 16)
    (small' : right.toNat < 16) :
    (hexDigits.digit left).toNat < (hexDigits.digit right).toNat ↔ left.toNat < right.toNat := by
  rw [toNat_digit small, toNat_digit small']
  split_ifs <;> omega

private theorem digit_eq_iff {left right : UInt8} (small : left.toNat < 16)
    (small' : right.toNat < 16) :
    (hexDigits.digit left).toNat = (hexDigits.digit right).toNat ↔ left.toNat = right.toNat := by
  rw [toNat_digit small, toNat_digit small']
  split_ifs <;> omega

/-- The digits of bytes are in the order of the bytes. -/
theorem hexDigits_orderedCode : OrderedCode hexDigits (fun byte : UInt8 => byte) where
  ne_nil := fun _ => List.cons_ne_nil _ _
  rank_inj := fun _ _ => id
  less := by
    intro left right less rest rest'
    rw [UInt8.compare_eq_toNat_compare_toNat, Nat.compare_eq_lt] at less
    have bound := left.toNat_lt
    have bound' := right.toNat_lt
    have high (byte : UInt8) : (byte / 16).toNat = byte.toNat / 16 := UInt8.toNat_div ..
    have low (byte : UInt8) : (byte % 16).toNat = byte.toNat % 16 := UInt8.toNat_mod ..
    have small (byte : UInt8) : (byte / 16).toNat < 16 := by
      have := byte.toNat_lt
      rw [high]
      omega
    have small' (byte : UInt8) : (byte % 16).toNat < 16 := by
      rw [low]
      omega
    simp only [hexDigits, List.cons_append, List.nil_append, List.compare_cons_cons,
      Ordering.then_eq_lt, UInt8.compare_eq_toNat_compare_toNat, Nat.compare_eq_lt,
      Nat.compare_eq_eq, digit_lt_iff (small left) (small right), digit_eq_iff (small left) (small right),
      digit_lt_iff (small' left) (small' right), high, low]
    omega

/-- Packed digits are in the order of the canonical spelling. -/
theorem compare_hexBytes {text other : String} (spelled : isHex text.toList = true)
    (spelled' : isHex other.toList = true) :
    Ord.compare (hexBytes text.toUTF8.toList) (hexBytes other.toUTF8.toList) =
      compareOn codePoints (canonical text) (canonical other) := by
  have packed := hexDigits_orderedCode.compare_flatMap (hexBytes text.toUTF8.toList)
    (hexBytes other.toUTF8.toList)
  rw [List.map_id', List.map_id', ← utf8_canonical spelled, ← utf8_canonical spelled',
    compare_utf8] at packed
  exact packed.symm

end Hex

/-- The text of a value. -/
def Datum.text {v8 : V8} {type : DataType} (datum : Datum v8 type) : String := v8.toText datum.value

/-- The values of a type are stored in the order of the code points of their spelling. -/
structure Spells (v8 : V8) (type : DataType) (spelling : Datum v8 type → String) : Prop where
  compare_bytes : ∀ left right : Datum v8 type,
    type.compare left.bytes right.bytes = compareOn codePoints (spelling left) (spelling right)
  ne_nil : ∀ datum : Datum v8 type, datum.bytes ≠ []

/-- Values share their bytes exactly if they are spelled alike. -/
theorem Spells.bytes_eq_iff {v8 : V8} {type : DataType} {spelling : Datum v8 type → String}
    (spells : Spells v8 type spelling) (left right : Datum v8 type) :
    left.bytes = right.bytes ↔ spelling left = spelling right := by
  constructor
  · intro same
    have order := spells.compare_bytes left right
    rw [same, compare_self] at order
    exact codePoints_injective (Std.LawfulEqOrd.eq_of_compare order.symm)
  · intro same
    have order := spells.compare_bytes left right
    rw [same, compareOn, Std.compare_self] at order
    exact eq_of_compare left.sized right.sized order

section Types

variable {v8 : V8}

theorem Datum.bytes_string (datum : Datum v8 .string) :
    datum.bytes = datum.text.toUTF8.toList ++ [0] := rfl

/-- No byte is below the one that ends a text. -/
theorem string_spells : Spells v8 .string Datum.text where
  compare_bytes := by
    intro left right
    have lowest (byte : UInt8) : Ord.compare 0 byte ≠ .gt := by
      rw [UInt8.compare_eq_toNat_compare_toNat, Ne, Nat.compare_eq_gt]
      exact Nat.not_lt_zero _
    rw [left.bytes_string, right.bytes_string, ← compare_utf8]
    exact compare_append_least lowest _ _
  ne_nil := fun _ => List.append_ne_nil_of_right_ne_nil _ (List.cons_ne_nil _ _)

theorem Datum.isHex_text (datum : Datum v8 .hex) : isHex datum.text.toList = true := by
  obtain ⟨raw, accepted⟩ := datum.sanitized
  simp only [sanitize] at accepted
  split_ifs at accepted with spelled
  rwa [Datum.text, ← Except.ok.inj accepted]

theorem hex_spells : Spells v8 .hex fun datum => Hex.canonical datum.text where
  compare_bytes := fun left right => Hex.compare_hexBytes left.isHex_text right.isHex_text
  ne_nil := Datum.selfContained

end Types

end NodeKv
