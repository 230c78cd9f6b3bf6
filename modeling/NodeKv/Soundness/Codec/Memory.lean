import Mathlib.Data.List.TakeWhile
import NodeKv.Proofs.Integers

/-! # Texts, and the memory around stored values

A string is stored with its length and read up to a NUL, so it comes back whole exactly if it
contains none.

No decoder but that of `binary` keeps to the stored bytes for every size. What lies around them
shows in the result exactly if the bytes are not `SelfContained`: a string without NUL, hexadecimal
without bytes, a number that is too short.
-/

namespace NodeKv.DataType

open Machine

section Texts

/-- The characters in front of the first NUL. -/
def front (text : String) : String := String.ofList (text.toList.takeWhile (· ≠ '\x00'))

private theorem front_eq_iff {text : String} : front text = text ↔ '\x00' ∉ text.toList := by
  rw [front, ← String.toList_inj, String.toList_ofList, List.takeWhile_eq_self_iff]
  simp only [decide_eq_true_eq]
  constructor
  · intro clean member
    exact clean _ member rfl
  · rintro absent char member rfl
    exact absent member

private theorem cString_utf8 (text : String) (rest : Bytes) :
    cString (text.toUTF8.toList ++ 0 :: rest) = some (front text).toUTF8.toList := by
  have ended : 0 ∈ text.toUTF8.toList ++ 0 :: rest := List.mem_append_right _ (List.mem_cons_self ..)
  rw [cString, if_pos ended, takeWhile_utf8, front]

/-- A text is accepted, stored as its UTF-8 with a NUL, and read back up to its first NUL, which is
the whole text exactly if it contains none. -/
theorem string_codec_iff (runtime : Runtime) (texts : runtime.KeepsText) (text : String)
    (memory : Memory) :
    string.sanitize runtime.toV8 (.text text) = .ok (.text text) ∧
    ∃ bytes, string.encode runtime.toV8 (.text text) = some bytes ∧
      bytes = text.toUTF8.toList ++ [0] ∧
      string.decode runtime (memory.holding bytes) bytes.length = some (.text (front text)) ∧
      (string.decode runtime (memory.holding bytes) bytes.length = some (.text text) ↔
        '\x00' ∉ text.toList) := by
  have encoded : string.encode runtime.toV8 (.text text) = some (text.toUTF8.toList ++ [0]) := by
    simp only [encode, texts text]
  have read : string.decode runtime (memory.holding (text.toUTF8.toList ++ [0]))
      (text.toUTF8.toList ++ [0]).length = some (.text (front text)) := by
    simp only [decode, Memory.holding, List.append_assoc, List.singleton_append, cString_utf8,
      Option.map_some, runtime.newText_utf8]
  refine ⟨rfl, _, encoded, rfl, read, ?_⟩
  rw [read, Option.some_inj, Value.text.injEq, front_eq_iff]

/-- A text without NUL. -/
theorem string_codec_of_word : ∃ bytes,
    string.encode Runtime.basic.toV8 (.text "kv") = some bytes ∧
    string.decode Runtime.basic ⟨bytes, []⟩ bytes.length = some (.text "kv") := by
  obtain ⟨-, bytes, encoded, -, -, read⟩ :=
    string_codec_iff Runtime.basic (fun _ => rfl) "kv" ⟨[], []⟩
  have whole := read.mpr (by decide)
  rw [Memory.holding, List.append_nil] at whole
  exact ⟨bytes, encoded, whole⟩

/-- A NUL cuts a text off. -/
theorem string_cut_at_nul :
    (string.encode Runtime.basic.toV8 (.text "a\x00b")).bind (string.decoded Runtime.basic) =
      some (.text "a") := by
  decide +kernel

end Texts

section Memory

private theorem length_completed {width : ℕ} {bytes : Bytes} (short : bytes.length < width)
    (byte : UInt8) :
    (bytes ++ List.replicate (width - bytes.length) byte).length = width := by
  rw [List.length_append, List.length_replicate]
  omega

/-- Bytes that do not fill a window leave part of it to the memory behind them. -/
theorem window_short {width : ℕ} {bytes : Bytes} (short : bytes.length < width) (byte : UInt8) :
    window width (bytes ++ List.replicate (width - bytes.length) byte) =
      some (bytes ++ List.replicate (width - bytes.length) byte) := by
  have full := length_completed short byte
  rw [window, if_pos full.ge, List.take_of_length_le full.le]

/-- A number of which bytes are missing is completed by what lies behind them. -/
theorem completed_ne {width : ℕ} {bytes : Bytes} (short : bytes.length < width) :
    bytes ++ List.replicate (width - bytes.length) 0 ≠
      bytes ++ List.replicate (width - bytes.length) (1 : UInt8) := by
  intro same
  have fills := List.append_cancel_left same
  rw [List.replicate_right_inj (by omega)] at fills
  exact absurd fills (by decide)

/-- A number that is read from a window shows what completes it. -/
theorem window_leaks {width : ℕ} {bytes : Bytes} (short : bytes.length < width)
    (read : Bytes → Value)
    (faithful : ∀ left right : Bytes, left.length = width → right.length = width →
      read left = read right → left = right) :
    ∃ (first second : Memory) (value value' : Value),
      (window width (first.holding bytes).value).map read = some value ∧
      (window width (second.holding bytes).value).map read = some value' ∧ value ≠ value' := by
  refine ⟨⟨_, []⟩, ⟨_, []⟩, _, _, congrArg (Option.map read) (window_short short 0),
    congrArg (Option.map read) (window_short short 1), ?_⟩
  intro same
  exact completed_ne short
    (faithful _ _ (length_completed short 0) (length_completed short 1) same)

private theorem front_of_clean {text : String} (clean : 0 ∉ text.toUTF8.toList) :
    front text = text := by
  rw [front_eq_iff]
  intro member
  rw [utf8_toList] at clean
  exact clean (List.mem_flatMap.mpr ⟨_, member, by decide⟩)

/-- A text without a NUL behind it is read on into the memory. -/
theorem string_decode_followed (runtime : Runtime) {text more : String}
    (clean : 0 ∉ (text ++ more).toUTF8.toList) :
    string.decode runtime (Memory.holding text.toUTF8.toList ⟨more.toUTF8.toList ++ [0], []⟩)
      text.toUTF8.toList.length = some (.text (text ++ more)) := by
  simp only [decode, Memory.holding]
  rw [← List.append_assoc, ← utf8_append, cString_utf8, front_of_clean clean, Option.map_some,
    runtime.newText_utf8]

/-- Hexadecimal without bytes is read from the stack. -/
theorem hex_decode_stack (runtime : Runtime) {text : String} (clean : 0 ∉ text.toUTF8.toList) :
    DataType.hex.decode runtime (Memory.holding [] ⟨[], text.toUTF8.toList ++ [0]⟩) 0 =
      some (.text text) := by
  have read := cString_utf8 text []
  rw [front_of_clean clean] at read
  simp only [decode, Memory.holding, List.nil_append]
  rw [show window 0 [] = some [] from rfl, Option.bind_some, hexBuffer, read, Option.map_some,
    runtime.newText_utf8]

/-- Bytes that a conversion does not keep to are read as different values in two memories; of
strings those that encode a text are meant. -/
theorem decode_leaks (runtime : Runtime) {type : DataType} {bytes : Bytes}
    (exposed : ¬type.SelfContained bytes)
    (encoded : type = string → ∃ text : String, bytes = text.toUTF8.toList) :
    ∃ (first second : Memory) (value value' : Value),
      type.decode runtime (first.holding bytes) bytes.length = some value ∧
      type.decode runtime (second.holding bytes) bytes.length = some value' ∧ value ≠ value' := by
  cases type with
  | binary => exact absurd trivial exposed
  | string =>
    obtain ⟨text, rfl⟩ := encoded rfl
    have clean (more : String) (tail : 0 ∉ more.toUTF8.toList) :
        0 ∉ (text ++ more).toUTF8.toList := by
      rw [utf8_append, List.mem_append, not_or]
      exact ⟨exposed, tail⟩
    refine ⟨_, _, _, _, string_decode_followed runtime (clean "" (by decide +kernel)),
      string_decode_followed runtime (clean "A" (by decide +kernel)), ?_⟩
    intro same
    have texts := congrArg String.length (Value.text.inj same)
    rw [String.length_append, String.length_append] at texts
    exact absurd (Nat.add_left_cancel texts) (by decide)
  | hex =>
    obtain rfl : bytes = [] := not_not.mp exposed
    have zero : 0 ∉ "0".toUTF8.toList := by decide +kernel
    have one : 0 ∉ "1".toUTF8.toList := by decide +kernel
    exact ⟨_, _, _, _, hex_decode_stack runtime zero, hex_decode_stack runtime one, by decide⟩
  | int32 =>
    refine window_leaks (Nat.lt_of_not_le exposed) _ ?_
    intro left right four four' same
    exact eq_of_signed four four'
      (Int.cast_injective (JsNumber.finite.inj (Value.number.inj same)))
  | uint32 =>
    refine window_leaks (Nat.lt_of_not_le exposed) _ ?_
    intro left right four four' same
    exact fromLittleEndian_inj (four.trans four'.symm)
      (Nat.cast_injective (JsNumber.finite.inj (Value.number.inj same)))
  | int64 =>
    refine window_leaks (Nat.lt_of_not_le exposed) _ ?_
    intro left right eight eight' same
    have texts := Value.text.inj same
    rw [runtime.newText_utf8, runtime.newText_utf8] at texts
    exact eq_of_signed eight eight' (Decimal.toString_injective texts)

/-- A string without NUL has no result, unless one lies behind it. -/
theorem string_decode_unended (runtime : Runtime) {bytes : Bytes} (unended : 0 ∉ bytes) :
    string.decode runtime (Memory.holding bytes ⟨[], []⟩) bytes.length ≠
      string.decode runtime (Memory.holding bytes ⟨[0], []⟩) bytes.length := by
  simp only [decode, Memory.holding, List.append_nil]
  rw [cString, if_neg unended, cString, if_pos (List.mem_append_right _ (List.mem_singleton_self 0))]
  exact (Option.some_ne_none _).symm

/-- The result is the same in all memories that hold the bytes exactly if the conversion keeps to
them. Otherwise it differs between two memories in which it has one. -/
theorem decoding_determined_iff (runtime : Runtime) (type : DataType) (bytes : Bytes) :
    ((∀ first second : Memory, type.decode runtime (first.holding bytes) bytes.length =
        type.decode runtime (second.holding bytes) bytes.length) ↔ type.SelfContained bytes) ∧
    (¬type.SelfContained bytes →
      (type = string → ∃ text : String, bytes = text.toUTF8.toList) →
      ∃ (first second : Memory) (value value' : Value),
        type.decode runtime (first.holding bytes) bytes.length = some value ∧
        type.decode runtime (second.holding bytes) bytes.length = some value' ∧
        value ≠ value') := by
  refine ⟨⟨?_, ?_⟩, decode_leaks runtime⟩
  · intro determined
    by_contra exposed
    by_cases text : type = string
    · subst text
      exact string_decode_unended runtime exposed (determined ..)
    · obtain ⟨first, second, value, value', read, read', differ⟩ :=
        decode_leaks runtime exposed fun named => absurd named text
      rw [determined first second, read', Option.some_inj] at read
      exact differ read.symm
  · intro contained first second
    rw [decode_holding runtime contained, decode_holding runtime contained]

/-- One stored byte is read as two numbers, and a value without bytes as two texts. -/
theorem short_value_leaks :
    uint32.decode Runtime.basic (Memory.holding [1] ⟨[0, 0, 0], []⟩) 1 =
      some (.number (.finite 1)) ∧
    uint32.decode Runtime.basic (Memory.holding [1] ⟨[1, 0, 0], []⟩) 1 =
      some (.number (.finite 257)) ∧
    DataType.hex.decode Runtime.basic (Memory.holding [] ⟨[], [48, 0]⟩) 0 = some (.text "0") ∧
    DataType.hex.decode Runtime.basic (Memory.holding [] ⟨[], [49, 0]⟩) 0 = some (.text "1") := by
  decide +kernel

end Memory

end NodeKv.DataType
