import NodeKv.Proofs.Hex

/-! # Hexadecimal values

A text of hexadecimal digits is stored in half its length, rounded up, and read back in lower case,
with the digit that an odd text lacks; bytes are printed as text that is stored as the same bytes.
This does not depend on which of its blocks `hex_type` uses.

The blocks are large enough for the constructor. They are not for `v8value`: the last NUL of a value
of more than 512 bytes is written behind the end of the allocated block, and a value without bytes
leaves the stack as it was, without a NUL at its front.
-/

namespace NodeKv.Hex

open Machine DataType

/-- The spelling that is read back. -/
def canonical (text : String) : String :=
  if text.length % 2 = 0 then text.toLower else text.toLower ++ "0"

private theorem toList_canonical (text : String) :
    (canonical text).toList = (padded text.toList).map Char.toLower := by
  unfold canonical padded
  rw [← String.length_toList]
  split_ifs
  · exact String.toList_map
  · rw [String.toList_append, List.map_append]
    exact congrArg (· ++ ['0']) String.toList_map

section Spelled

variable {text : String} (spelled : isHex text.toList = true)

include spelled

private theorem utf8_spelled : text.toUTF8.toList = text.toList.map asciiByte := by
  apply utf8_eq_map_asciiByte
  intro char member
  obtain ⟨value, digit⟩ := isDigit_of_isHexChar ((isHex_iff.mp spelled).2 char member)
  exact digit.ascii

private theorem isHexChar_canonical {char : Char} (member : char ∈ (canonical text).toList) :
    isHexChar char = true := by
  rw [toList_canonical] at member
  obtain ⟨original, found, rfl⟩ := List.mem_map.mp member
  have accepted : isHexChar original = true := by
    unfold padded at found
    split_ifs at found
    · exact (isHex_iff.mp spelled).2 original found
    · rcases List.mem_append.mp found with own | zero
      · exact (isHex_iff.mp spelled).2 original own
      · rw [List.mem_singleton.mp zero]
        decide
  obtain ⟨value, digit⟩ := isDigit_of_isHexChar accepted
  exact digit.accepted

theorem utf8_canonical :
    (canonical text).toUTF8.toList = (hexBytes text.toUTF8.toList).flatMap hexDigits := by
  have ascii : ∀ char ∈ (canonical text).toList, char.toNat < 128 := by
    intro char member
    obtain ⟨value, digit⟩ := isDigit_of_isHexChar (isHexChar_canonical spelled member)
    exact digit.ascii
  rw [utf8_spelled spelled, flatMap_hexBytes (isHex_iff.mp spelled).2, utf8_eq_map_asciiByte ascii,
    toList_canonical, List.map_map]
  rfl

end Spelled

private theorem length_hexBytes (chars : Bytes) : (hexBytes chars).length = packedSize chars := by
  rw [← construct_bytes chars fun _ => 0, Block.bytes, List.length_map, List.length_range]

/-- The text that bytes are printed as. -/
def printed (bytes : Bytes) : String :=
  String.ofList ((bytes.flatMap hexDigits).map fun byte => Char.ofNat byte.toNat)

theorem utf8_printed (bytes : Bytes) : (printed bytes).toUTF8.toList = bytes.flatMap hexDigits := by
  apply utf8_ascii
  intro digit member
  obtain ⟨byte, -, shown⟩ := List.mem_flatMap.mp member
  exact (mem_hexDigits shown).1

private theorem isHexChar_digit {nibble : UInt8} (small : nibble.toNat < 16) :
    isHexChar (Char.ofNat (hexDigits.digit nibble).toNat) = true := by
  rw [← UInt8.ofNat_toNat (x := nibble)]
  generalize nibble.toNat = value at small
  interval_cases value <;> decide

private theorem isHex_printed {bytes : Bytes} (some : bytes ≠ []) : isHex
    (printed bytes).toList = true := by
  rw [isHex_iff, printed, String.toList_ofList]
  constructor
  · obtain ⟨byte, rest, rfl⟩ := List.exists_cons_of_ne_nil some
    simp [hexDigits]
  · intro char member
    obtain ⟨digit, shown, rfl⟩ := List.mem_map.mp member
    obtain ⟨byte, -, shown⟩ := List.mem_flatMap.mp shown
    have bound : byte.toNat < 256 := byte.toNat_lt
    have high : (byte / 16).toNat = byte.toNat / 16 := UInt8.toNat_div ..
    have low : (byte % 16).toNat = byte.toNat % 16 := UInt8.toNat_mod ..
    rcases List.mem_pair.mp shown with rfl | rfl
    · exact isHexChar_digit (by omega)
    · exact isHexChar_digit (by omega)

/-- Every value that the sanitizer accepts is stored in half the length of its text and read back in
the canonical spelling, and every value with bytes is read as a text that is accepted and stored as
these bytes. -/
theorem hex_round_trip (runtime : Runtime) (texts : runtime.KeepsText) :
    (∀ raw value, DataType.hex.sanitize runtime.toV8 raw = .ok value → ∀ memory,
      let text := runtime.toText raw
      let utf8 := text.toUTF8.toList
      let bytes := (construct utf8 memory).2.bytes (packedSize utf8)
      DataType.hex.encode runtime.toV8 value = some bytes ∧ bytes.length = (text.length + 1) / 2 ∧
        DataType.hex.decoded runtime bytes = some (.text (canonical text)) ∧
        ∀ stack readable, 2 * bytes.length < readable →
          v8value runtime bytes stack readable = some (.text (canonical text))) ∧
    ∀ bytes, bytes ≠ [] → ∃ text, DataType.hex.decoded runtime bytes = some (.text text) ∧
      (∀ stack readable, 2 * bytes.length < readable →
        v8value runtime bytes stack readable = some (.text text)) ∧
      DataType.hex.sanitize runtime.toV8 (.text text) = .ok (.text text) ∧
      DataType.hex.encode runtime.toV8 (.text text) = some bytes ∧
      ∀ memory, (construct text.toUTF8.toList memory).2.bytes (packedSize text.toUTF8.toList) =
        bytes := by
  constructor
  · intro raw value accepted memory text utf8 bytes
    obtain ⟨spelled, rfl⟩ : isHex text.toList = true ∧ raw = value := by
      simp only [sanitize] at accepted
      split_ifs at accepted with spelled
      exact ⟨spelled, Except.ok.inj accepted⟩
    have stored : bytes = hexBytes utf8 := construct_bytes utf8 memory
    have some : bytes ≠ [] := stored ▸ hexBytes_ne_nil (utf8_ne_nil_of_isHex spelled)
    have shown : runtime.newText (bytes.flatMap hexDigits) = canonical text := by
      rw [stored, ← utf8_canonical spelled, runtime.newText_utf8]
    refine ⟨?_, ?_, ?_, ?_⟩
    · exact stored ▸ rfl
    · have count : utf8.length = text.length := by
        rw [show utf8 = _ from utf8_spelled spelled, List.length_map, String.length_toList]
      rw [stored, length_hexBytes, packedSize, count]
    · rw [decoded_eq runtime some, shown]
    · intro stack readable enough
      rw [v8value_eq runtime some stack enough, shown]
  · intro bytes some
    have shown : runtime.newText (bytes.flatMap hexDigits) = printed bytes := by
      rw [← utf8_printed, runtime.newText_utf8]
    have read : hexBytes (printed bytes).toUTF8.toList = bytes := by
      rw [utf8_printed, hexBytes_flatMap]
    refine ⟨printed bytes, ?_, ?_, ?_, ?_, ?_⟩
    · rw [decoded_eq runtime some, shown]
    · intro stack readable enough
      rw [v8value_eq runtime some stack enough, shown]
    · simp only [sanitize, texts (printed bytes), isHex_printed some, if_true]
    · simp only [encode, texts (printed bytes), read]
    · intro memory
      rw [construct_bytes, read]

/-- A text of odd length and mixed case. -/
theorem hex_round_trip_odd : ∃ bytes,
    DataType.hex.encode Runtime.basic.toV8 (.text "aBC") = some bytes ∧ bytes.length = 2 ∧
    DataType.hex.decoded Runtime.basic bytes = some (.text "abc0") := by
  have accepted : DataType.hex.sanitize Runtime.basic.toV8 (.text "aBC") = .ok (.text "aBC") := by
    decide +kernel
  obtain ⟨encoded, length, read, -⟩ :=
    (hex_round_trip Runtime.basic fun _ => rfl).1 _ _ accepted fun _ => 0
  exact ⟨_, encoded, length.trans (by decide +kernel), read.trans (by decide +kernel)⟩

section Within

/-- `v8value` keeps to its block, and ends the text there. -/
def Terminates (bytes : Bytes) (stack : ℕ → UInt8) : Prop :=
  (print bytes stack).Within ∧ (print bytes stack).cells (2 * bytes.length) = 0

private theorem within_print_iff (byte : UInt8) (rest : Bytes) (stack : ℕ → UInt8) :
    (print (byte :: rest) stack).Within ↔ (byte :: rest).length ≤ inlineSize := by
  have touched : ∀ index, index ∈ (print (byte :: rest) stack).touched ↔
      index ≤ 2 * (byte :: rest).length := by
    intro index
    refine (mem_touched_printAll _ 0 byte rest).trans ?_
    rw [touched_textDest]
    simp
  simp only [Block.Within, touched]
  rw [print, capacity_printAll, textDest]
  unfold textSize inlineSize
  split_ifs with large
  · -- The allocated block ends where the last NUL goes.
    constructor
    · intro within
      have last := within _ le_rfl
      rw [Block.capacity_allocate] at last
      omega
    · intro small
      omega
  · constructor
    · intro _
      omega
    · intro small index below
      rw [Block.capacity_allocate]
      omega

private theorem cells_print (byte : UInt8) (rest : Bytes) (stack : ℕ → UInt8) :
    (print (byte :: rest) stack).cells (2 * (byte :: rest).length) = 0 := by
  have printed := print_bytes (List.cons_ne_nil byte rest) stack
  rw [Block.bytes_succ] at printed
  exact List.singleton_inj.mp (List.append_inj' printed rfl).2

/-- For every size, `v8value` keeps to its block and ends its text exactly if the value has bytes,
and not more than fit into the stack buffer. The constructor keeps to its blocks for every text. -/
theorem hex_within_iff (bytes : Bytes) (text : String) :
    ((∀ stack, Terminates bytes stack) ↔ 0 < bytes.length ∧ bytes.length ≤ inlineSize) ∧
    ∀ memory, (construct text.toUTF8.toList memory).1.Within ∧
      (construct text.toUTF8.toList memory).2.Within := by
  refine ⟨?_, construct_within text.toUTF8.toList⟩
  cases bytes with
  | nil =>
    constructor
    · intro terminates
      exact absurd (terminates fun _ => 65).2 (by decide)
    · rintro ⟨some, -⟩
      exact absurd some (Nat.lt_irrefl 0)
  | cons byte rest =>
    constructor
    · intro terminates
      exact ⟨Nat.succ_pos _, (within_print_iff byte rest _).mp (terminates fun _ => 0).1⟩
    · rintro ⟨-, small⟩ stack
      exact ⟨(within_print_iff byte rest stack).mpr small, cells_print byte rest stack⟩

/-- The NUL behind the digits of 513 bytes goes to the cell behind the 1026 of the block. -/
theorem hex_overflows : ¬Terminates (List.replicate 513 0) fun _ => 0 := by
  rintro ⟨within, -⟩
  have small := (within_print_iff 0 (List.replicate 512 0) _).mp within
  rw [List.length_cons, List.length_replicate] at small
  exact absurd small (by decide)

end Within

end NodeKv.Hex
