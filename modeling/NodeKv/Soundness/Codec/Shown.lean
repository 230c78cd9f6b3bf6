import NodeKv.Machine.Decimal
import NodeKv.Proofs.Compare
import NodeKv.Soundness.Codec.Hex

/-! # Values as scripts read them back

What a constructor stores is read back as one value, wherever it lies in memory. Two values that are
read back alike are stored as the same bytes, strings with a NUL apart: these are read back up to it.
-/

namespace NodeKv

open DataType

variable {runtime : Runtime} {type : DataType}

/-- What a script reads back for a value. -/
def Datum.shown (runtime : Runtime) {type : DataType} (datum : Datum runtime.toV8 type) : Value :=
  (type.decoded runtime datum.bytes).getD .undefined

theorem Datum.decoded_bytes (datum : Datum runtime.toV8 type) :
    type.decoded runtime datum.bytes = some (datum.shown runtime) := by
  obtain ⟨value, read⟩ := Option.isSome_iff_exists.mp (decoded_isSome runtime datum.selfContained)
  rw [shown, read, Option.getD_some]

/-- The bytes of a string have no NUL before the one at their end. -/
def DataType.Clean (type : DataType) (bytes : Bytes) : Prop :=
  type = .string → 0 ∉ bytes.dropLast

section Injective

private theorem window_all {bytes : Bytes} {width : ℕ} (size : bytes.length = width) :
    window width bytes = some bytes := by
  rw [window, if_pos size.ge, List.take_of_length_le size.le]

/-- A string without a NUL is read back whole. -/
theorem decoded_string {text : String} (clean : 0 ∉ text.toUTF8.toList) :
    DataType.string.decoded runtime (text.toUTF8.toList ++ [0]) = some (.text text) := by
  have ended : (0 : UInt8) ∈ text.toUTF8.toList ++ [0] :=
    List.mem_append_right _ (List.mem_singleton_self 0)
  have passed : ∀ byte ∈ text.toUTF8.toList, decide (byte ≠ 0) = true := by
    intro byte member
    exact decide_eq_true fun zero => clean (zero ▸ member)
  have tail : [(0 : UInt8)].takeWhile (· ≠ 0) = [] := rfl
  rw [decoded, decode, cString, if_pos ended, List.takeWhile_append_of_pos passed, tail, List.append_nil,
    Option.map_some, runtime.newText_utf8]

/-- Printed bytes are told apart by their text. -/
theorem newText_hexDigits_inj {left right : Bytes}
    (same : runtime.newText (left.flatMap hexDigits) = runtime.newText (right.flatMap hexDigits)) :
    left = right := by
  have printed (bytes : Bytes) : runtime.newText (bytes.flatMap hexDigits) = Hex.printed bytes := by
    rw [← Hex.utf8_printed, runtime.newText_utf8]
  rw [printed, printed] at same
  have digits := congrArg (fun text : String => text.toUTF8.toList) same
  simp only [Hex.utf8_printed] at digits
  rw [← Hex.hexBytes_flatMap left, digits, Hex.hexBytes_flatMap]

/-- Values that are read back alike are stored alike. -/
theorem Datum.bytes_eq_of_shown {left right : Datum runtime.toV8 type}
    (clean : type.Clean left.bytes) (clean' : type.Clean right.bytes)
    (same : left.shown runtime = right.shown runtime) : left.bytes = right.bytes := by
  have read := left.decoded_bytes
  rw [same, ← right.decoded_bytes] at read
  have sized := left.sized
  have sized' := right.sized
  have contained := left.selfContained
  have contained' := right.selfContained
  cases type with
  | binary =>
    simp only [decoded, decode, window_all rfl, Option.map_some] at read
    exact Value.buffer.inj (Option.some.inj read)
  | string =>
    have stored (datum : Datum runtime.toV8 .string) :
        datum.bytes = (runtime.toText datum.value).toUTF8.toList ++ [0] :=
      (Option.some.inj datum.encode_value).symm
    have spelled (datum : Datum runtime.toV8 .string) (clean : DataType.string.Clean datum.bytes) :
        DataType.string.decoded runtime datum.bytes = some (.text (runtime.toText datum.value)) := by
      have absent := clean rfl
      rw [stored datum, List.dropLast_concat] at absent
      rw [stored datum]
      exact decoded_string absent
    rw [spelled left clean, spelled right clean'] at read
    rw [stored left, stored right, Value.text.inj (Option.some.inj read)]
  | hex =>
    rw [Hex.decoded_eq runtime contained, Hex.decoded_eq runtime contained'] at read
    exact newText_hexDigits_inj (Value.text.inj (Option.some.inj read))
  | int32 =>
    simp only [decoded, decode, window_all (sized 4 rfl), window_all (sized' 4 rfl), Option.map_some] at read
    have numbers := Int.cast_injective (JsNumber.finite.inj (Value.number.inj (Option.some.inj read)))
    exact eq_of_signed (sized 4 rfl) (sized' 4 rfl) numbers
  | uint32 =>
    simp only [decoded, decode, window_all (sized 4 rfl), window_all (sized' 4 rfl), Option.map_some] at read
    have numbers := Nat.cast_injective (JsNumber.finite.inj (Value.number.inj (Option.some.inj read)))
    exact fromLittleEndian_inj ((sized 4 rfl).trans (sized' 4 rfl).symm) numbers
  | int64 =>
    simp only [decoded, decode, window_all (sized 8 rfl), window_all (sized' 8 rfl), Option.map_some,
      runtime.newText_utf8] at read
    have numbers := Machine.Decimal.toString_injective (Value.text.inj (Option.some.inj read))
    exact eq_of_signed (sized 8 rfl) (sized' 8 rfl) numbers

end Injective

end NodeKv
