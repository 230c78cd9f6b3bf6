import NodeKv.Machine.Utf8
import NodeKv.Model.Types

/-! # Reading stored bytes back

`v8value` of a data type makes a script value of stored bytes (`src/kv-types.h`,
`src/kv-types.cpp`). It knows where the value starts and its size, but does not always keep to
them: a string is read up to the first NUL, a number in its own width, and a hexadecimal value
without bytes leaves the text buffer as the stack was. So `decode` reads a piece of memory that
begins with the value, and has no result when a read leaves that memory. Values that are
`SelfContained` decode to the same thing wherever they lie, and whatever a constructor of the type
has stored is.

A text of more than 512 bytes in hexadecimal is one byte longer than its buffer; here the last NUL
is taken to be written and read there all the same.
-/

namespace NodeKv

/-- The script engine, with the text it makes of a C string (`Nan::New`). -/
structure Runtime extends V8 where
  newText : Bytes → String
  newText_utf8 : ∀ text : String, newText text.toUTF8.toList = text

/-- The basic conversions, with a replacement character for bytes that encode no text. -/
def Runtime.basic : Runtime where
  toV8 := V8.basic
  newText := fun bytes => (Machine.fromUtf8 bytes).getD "\uFFFD"
  newText_utf8 := fun text => by rw [Machine.fromUtf8_toUTF8, Option.getD_some]

/-- What a conversion may come to read. -/
structure Memory where
  /-- The memory from the address of the value on. -/
  value : Bytes
  /-- The text buffer on the stack, before anything is printed into it. -/
  stack : Bytes
deriving DecidableEq, Repr

/-- The memory with some bytes in front. -/
def Memory.holding (bytes : Bytes) (memory : Memory) : Memory :=
  { memory with value := bytes ++ memory.value }

namespace DataType

/-- The first bytes of a memory. -/
def window (width : ℕ) (memory : Bytes) : Option Bytes :=
  if width ≤ memory.length then some (memory.take width) else none

/-- The bytes in front of the first NUL. -/
def cString (memory : Bytes) : Option Bytes :=
  if 0 ∈ memory then some (memory.takeWhile (· ≠ 0)) else none

/-- A byte as `%02hhx` prints it. -/
def hexDigits (byte : UInt8) : Bytes := [digit (byte / 16), digit (byte % 16)]
where
  digit (nibble : UInt8) : UInt8 := if nibble < 10 then 48 + nibble else 87 + nibble

/-- The text buffer when every byte has been printed; each print ends with a NUL that the next
one overwrites. -/
def hexBuffer (stack : Bytes) : Bytes → Bytes
  | [] => stack
  | byte :: rest => (byte :: rest).flatMap hexDigits ++ [0]

/-- `v8value`, on a value constructed from an address and a size. -/
def decode (runtime : Runtime) (type : DataType) (memory : Memory) (size : ℕ) : Option Value :=
  match type with
  | binary => (window size memory.value).map .buffer
  | string => (cString memory.value).map fun chars => .text (runtime.newText chars)
  | hex =>
    (window size memory.value).bind fun bytes =>
      (cString (hexBuffer memory.stack bytes)).map fun chars => .text (runtime.newText chars)
  | int32 =>
    (window 4 memory.value).map fun bytes =>
      .number (.finite (Int.bmod (fromLittleEndian bytes) (2 ^ 32)))
  | uint32 => (window 4 memory.value).map fun bytes => .number (.finite (fromLittleEndian bytes))
  | int64 =>
    (window 8 memory.value).map fun bytes =>
      let printed := toString (Int.bmod (fromLittleEndian bytes) (2 ^ 64))
      .text (runtime.newText printed.toUTF8.toList)

/-- The value of some bytes with nothing readable around them. -/
def decoded (runtime : Runtime) (type : DataType) (bytes : Bytes) : Option Value :=
  type.decode runtime ⟨bytes, []⟩ bytes.length

/-- The conversion stays within the bytes. -/
def SelfContained (type : DataType) (bytes : Bytes) : Prop :=
  match type with
  | binary => True
  | string => 0 ∈ bytes
  | hex => bytes ≠ []
  | int32 | uint32 => 4 ≤ bytes.length
  | int64 => 8 ≤ bytes.length

section SelfContained

variable {width : ℕ} {bytes : Bytes} {type : DataType}

theorem window_append (within : width ≤ bytes.length) (rest : Bytes) :
    window width (bytes ++ rest) = some (bytes.take width) := by
  have longer : width ≤ (bytes ++ rest).length := by
    rw [List.length_append]
    omega
  rw [window, if_pos longer, List.take_append_of_le_length within]

theorem cString_append (ended : 0 ∈ bytes) (rest : Bytes) :
    cString (bytes ++ rest) = some (bytes.takeWhile (· ≠ 0)) := by
  obtain ⟨front, back, rfl, clean⟩ := List.eq_append_cons_of_mem ended
  have passed : ∀ byte ∈ front, decide (byte ≠ 0) = true := by
    intro byte member
    exact decide_eq_true fun zero => clean (zero ▸ member)
  rw [cString, if_pos (List.mem_append_left _ ended), List.append_assoc,
    List.takeWhile_append_of_pos passed, List.takeWhile_append_of_pos passed]
  simp

/-- A value that keeps its conversion within bounds is read alike wherever it lies. -/
theorem decode_holding (runtime : Runtime) (contained : type.SelfContained bytes)
    (memory : Memory) :
    type.decode runtime (memory.holding bytes) bytes.length = type.decoded runtime bytes := by
  have alone (width : ℕ) (within : width ≤ bytes.length) :
      window width (bytes ++ memory.value) = window width bytes := by
    rw [window_append within, window, if_pos within]
  unfold decoded decode Memory.holding
  cases type with
  | binary => simp only [alone _ le_rfl]
  | string =>
    have plain := cString_append contained []
    rw [List.append_nil] at plain
    simp only [cString_append contained, plain]
  | hex =>
    simp only [alone _ le_rfl]
    cases bytes with
    | nil => exact absurd rfl contained
    | cons byte rest => simp [window, hexBuffer]
  | int32 => simp only [alone 4 contained]
  | uint32 => simp only [alone 4 contained]
  | int64 => simp only [alone 8 contained]

theorem decoded_isSome (runtime : Runtime) (contained : type.SelfContained bytes) :
    (type.decoded runtime bytes).isSome := by
  unfold decoded decode
  cases type with
  | binary => simp [window]
  | string =>
    have ended : 0 ∈ bytes := contained
    simp [cString, ended]
  | hex =>
    cases bytes with
    | nil => exact absurd rfl contained
    | cons byte rest => simp [window, hexBuffer, cString]
  | int32 =>
    have within : 4 ≤ bytes.length := contained
    simp [window, within]
  | uint32 =>
    have within : 4 ≤ bytes.length := contained
    simp [window, within]
  | int64 =>
    have within : 8 ≤ bytes.length := contained
    simp [window, within]

end SelfContained

@[simp] theorem length_littleEndian (width : ℕ) (value : ℤ) :
    (littleEndian width value).length = width := by
  rw [littleEndian, List.length_map, List.length_range]

theorem hexBytes_ne_nil {chars : Bytes} (some : chars ≠ []) : hexBytes chars ≠ [] := by
  unfold hexBytes
  split
  · exact absurd rfl some
  · simp [littleEndian]
  · simp [littleEndian]

theorem utf8_ne_nil_of_isHex {text : String} (accepted : isHex text.toList = true) :
    text.toUTF8.toList ≠ [] := by
  intro empty
  have blank : text = "" := Machine.toUTF8_toList_injective (empty.trans ByteArray.toList_empty.symm)
  rw [blank] at accepted
  exact nomatch accepted

end DataType

/-- Whatever a constructor stores can be read back. -/
theorem Datum.selfContained {v8 : V8} {type : DataType} (datum : Datum v8 type) :
    type.SelfContained datum.bytes := by
  have encoded := datum.encode_value
  generalize datum.bytes = bytes at encoded ⊢
  cases type with
  | binary => exact trivial
  | string =>
    obtain rfl := Option.some.inj encoded
    exact List.mem_append_right _ (List.mem_singleton_self 0)
  | hex =>
    obtain rfl := Option.some.inj encoded
    obtain ⟨raw, accepted⟩ := datum.sanitized
    simp only [DataType.sanitize] at accepted
    split_ifs at accepted with spelled
    obtain rfl := Except.ok.inj accepted
    exact DataType.hexBytes_ne_nil (DataType.utf8_ne_nil_of_isHex spelled)
  | int32 =>
    obtain rfl := Option.some.inj encoded
    exact (DataType.length_littleEndian 4 _).ge
  | uint32 =>
    obtain rfl := Option.some.inj encoded
    exact (DataType.length_littleEndian 4 _).ge
  | int64 =>
    obtain rfl := Option.some.inj encoded
    exact (DataType.length_littleEndian 8 _).ge

/-- What a read gives back to the script. -/
inductive Reply where
  | null
  | value (val : Value)
  | throws (error : Error)
  /-- The conversion leaves the memory it may read. -/
  | never
deriving DecidableEq, Repr

/-- The result of a conversion. -/
def Reply.ofDecoded : Option Value → Reply
  | some val => .value val
  | none => .never

end NodeKv
