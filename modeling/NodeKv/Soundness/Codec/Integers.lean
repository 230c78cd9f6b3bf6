import NodeKv.Proofs.Integers

/-! # Integers

The sanitizers of the number types accept integers of any size; the constructors then bring them
into the range of the type, `int32` and `uint32` by wrapping around and `int64` by saturation. So an
integer is read back as it was given exactly if its type holds it, and accepted integers share their
bytes exactly if they are brought to the same one.

Within 64 bits, decimal texts of any length are stored as the integer they denote.
-/

namespace NodeKv

open Machine DataType

/-- What the engine makes of integers up to `2 ^ 53` and of the texts that spell them. -/
structure V8.KeepsIntegers (v8 : V8) : Prop where
  texts : v8.KeepsText
  toText_number : ∀ number : ℤ, number.natAbs ≤ 2 ^ 53 →
    v8.toText (.number (.finite number)) = toString number
  toNumber_number : ∀ num, v8.toNumber (.number num) = num
  parseInt_number : ∀ number : ℤ, number.natAbs ≤ 2 ^ 53 →
    v8.parseInt (.number (.finite number)) = .finite number
  parseInt_text : ∀ text : String, isDecimal text.toList = true →
    (Decimal.value text.toList).natAbs ≤ 2 ^ 53 →
    v8.parseInt (.text text) = .finite (Decimal.value text.toList)

/-- The basic conversions, with `parseInt` for decimal texts. -/
def Runtime.decimal : Runtime where
  toV8 := { V8.basic with
    parseInt := fun
      | .number num => num
      | .text chars =>
        if isDecimal chars.toList then .finite (Decimal.value chars.toList) else .nan
      | _ => .nan }
  newText := Runtime.basic.newText
  newText_utf8 := Runtime.basic.newText_utf8

theorem Runtime.decimal_keepsIntegers : Runtime.decimal.KeepsIntegers where
  texts := fun _ => rfl
  toText_number := fun _ _ => rfl
  toNumber_number := fun _ => rfl
  parseInt_number := fun _ _ => rfl
  parseInt_text := fun _ decimal _ => if_pos decimal

/-- The types whose values are integers. -/
inductive IntegerType where
  | int32
  | uint32
  | int64
deriving DecidableEq, Repr

namespace IntegerType

def dataType : IntegerType → DataType
  | int32 => .int32
  | uint32 => .uint32
  | int64 => .int64

/-- The integers that a type holds. -/
def Holds : IntegerType → ℤ → Prop
  | int32, number => -2 ^ 31 ≤ number ∧ number < 2 ^ 31
  | uint32, number => 0 ≤ number ∧ number < 2 ^ 32
  | int64, number => -2 ^ 63 ≤ number ∧ number < 2 ^ 63

instance : ∀ type number, Decidable (Holds type number)
  | int32, _ | uint32, _ | int64, _ => inferInstanceAs (Decidable (_ ∧ _))

/-- The integer that is stored in place of a given one. -/
def stored : IntegerType → ℤ → ℤ
  | int32, number => Int.bmod number (2 ^ 32)
  | uint32, number => number % 2 ^ 32
  | int64, number => max (-2 ^ 63) (min (2 ^ 63 - 1) number)

/-- The script value that an integer is read back as. -/
def shown : IntegerType → ℤ → Value
  | int32, number => .number (.finite number)
  | uint32, number => .number (.finite number)
  | int64, number => .text (toString number)

/-- The script values that stand for an integer: a number, or a text of any length that denotes it.
Where texts go through `parseInt`, they are bounded like numbers. -/
inductive Given (type : IntegerType) : Value → ℤ → Prop where
  | number {number : ℤ} (exact : number.natAbs ≤ 2 ^ 53) : Given type (.number (.finite number)) number
  | text {text : String} (decimal : isDecimal text.toList = true)
      (exact : type = int64 ∨ (Decimal.value text.toList).natAbs ≤ 2 ^ 53) :
      Given type (.text text) (Decimal.value text.toList)

section Stored

private theorem holds_stored (type : IntegerType) (number : ℤ) : type.Holds
    (type.stored number) := by
  cases type with
  | int32 =>
    have low : -((2 ^ 32 : ℕ) / 2 : ℤ) ≤ Int.bmod number (2 ^ 32) := Int.le_bmod (by decide)
    have high : Int.bmod number (2 ^ 32) < ((2 ^ 32 : ℕ) + 1) / 2 := Int.bmod_lt (by decide)
    constructor
    · exact low
    · exact high
  | uint32 =>
    constructor
    · exact Int.emod_nonneg _ (by decide)
    · exact Int.emod_lt_of_pos _ (by decide)
  | int64 =>
    simp only [Holds, stored]
    omega

theorem stored_eq_iff {type : IntegerType} {number : ℤ} : type.stored number = number ↔
    type.Holds number := by
  constructor
  · intro kept
    exact kept ▸ type.holds_stored number
  · intro held
    cases type with
    | int32 =>
      obtain ⟨low, high⟩ := held
      exact Int.bmod_eq_of_le (by omega) (by omega)
    | uint32 => exact Int.emod_eq_of_lt held.1 held.2
    | int64 =>
      simp only [Holds, stored] at held ⊢
      omega

end Stored

/-- The bytes of an integer. -/
def bytes : IntegerType → ℤ → Bytes
  | int32, number | uint32, number => littleEndian 4 number
  | int64, number => littleEndian 8 number

section Codec

variable {type : IntegerType} {number other : ℤ}

/-- An integer that the type holds is read back from its bytes. -/
theorem decoded_bytes (runtime : Runtime) (held : type.Holds number) :
    type.dataType.decoded runtime (type.bytes number) = some (type.shown number) := by
  cases type with
  | int32 =>
    have kept : Int.bmod (fromLittleEndian (littleEndian 4 number)) (256 ^ 4) = number :=
      (signed_littleEndian_iff (by decide) number).mpr held
    simp only [dataType, bytes, decoded, decode, window, length_littleEndian, le_refl, if_true,
      List.take_of_length_le, Option.map_some, shown]
    rw [show (2 ^ 32 : ℕ) = 256 ^ 4 by decide, kept]
  | uint32 =>
    have kept : (fromLittleEndian (littleEndian 4 number) : ℤ) = number :=
      (unsigned_littleEndian_iff 4 number).mpr held
    simp only [dataType, bytes, decoded, decode, window, length_littleEndian, le_refl, if_true,
      List.take_of_length_le, Option.map_some, shown]
    rw [← Int.cast_natCast, kept]
  | int64 =>
    have kept : Int.bmod (fromLittleEndian (littleEndian 8 number)) (256 ^ 8) = number :=
      (signed_littleEndian_iff (by decide) number).mpr held
    simp only [dataType, bytes, decoded, decode, window, length_littleEndian, le_refl, if_true,
      List.take_of_length_le, Option.map_some, shown]
    rw [show (2 ^ 64 : ℕ) = 256 ^ 8 by decide, kept, runtime.newText_utf8]

private theorem shown_injective (type : IntegerType) : Function.Injective type.shown := by
  intro left right same
  cases type with
  | int32 => exact Int.cast_injective (JsNumber.finite.inj (Value.number.inj same))
  | uint32 => exact Int.cast_injective (JsNumber.finite.inj (Value.number.inj same))
  | int64 => exact Decimal.toString_injective (Value.text.inj same)

private theorem bytes_inj (held : type.Holds number) (held' : type.Holds other)
    (same : type.bytes number = type.bytes other) : number = other := by
  have read := decoded_bytes Runtime.basic held
  rw [same, decoded_bytes Runtime.basic held'] at read
  exact (type.shown_injective (Option.some.inj read)).symm

/-- The bytes of 32 bits are those of the integer that the type holds in its place. -/
theorem bytes_stored_int32 (number : ℤ) : int32.bytes
    (int32.stored number) = int32.bytes number := by
  apply littleEndian_eq_iff.mpr
  exact Int.bmod_emod ..

private theorem bytes_stored_uint32 (number : ℤ) :
    uint32.bytes (uint32.stored number) = uint32.bytes number := by
  apply littleEndian_eq_iff.mpr
  exact Int.emod_emod ..

end Codec

section Given

variable {v8 : V8} (integers : v8.KeepsIntegers) {type : IntegerType} {raw value : Value}
  {number : ℤ}

include integers

theorem Given.parseInt (given : Given type raw number) (small : type ≠ int64) :
    v8.parseInt raw = .finite number := by
  cases given with
  | number exact => exact integers.parseInt_number number exact
  | text decimal exact => exact integers.parseInt_text _ decimal (exact.resolve_left small)

/-- The text of a value that stands for an integer denotes it. -/
theorem Given.toText (given : Given type raw number) :
    isDecimal (v8.toText raw).toList = true ∧ Decimal.value (v8.toText raw).toList = number := by
  cases given with
  | number exact =>
    rw [integers.toText_number number exact]
    exact ⟨isDecimal_toString number, Decimal.value_toString number⟩
  | text decimal exact =>
    rw [integers.texts]
    exact ⟨decimal, rfl⟩

private theorem truncate_number (number : ℤ) :
    truncate (v8.toNumber (.number (.finite number))) = number := by
  rw [integers.toNumber_number, truncate, Rat.num_intCast, Rat.den_intCast]
  exact Int.tdiv_one number

/-- What is stored for an accepted value. -/
theorem Given.encode (given : Given type raw number)
    (accepted : type.dataType.sanitize v8 raw = .ok value) :
    type.dataType.encode v8 value = some (type.bytes (type.stored number)) := by
  cases type with
  | int32 =>
    simp only [dataType, sanitize, given.parseInt integers (by decide), reduceCtorEq, if_false]
      at accepted
    cases accepted
    rw [bytes_stored_int32]
    simp only [dataType, DataType.encode, truncate_number integers, bytes]
  | uint32 =>
    simp only [dataType, sanitize, given.parseInt integers (by decide), reduceCtorEq, false_or]
      at accepted
    split_ifs at accepted
    cases accepted
    rw [bytes_stored_uint32]
    simp only [dataType, DataType.encode, truncate_number integers, bytes]
  | int64 =>
    obtain ⟨decimal, denoted⟩ := given.toText integers
    simp only [dataType, sanitize, decimal, if_true] at accepted
    cases accepted
    simp only [dataType, DataType.encode, atoll, strtol_decimal decimal, denoted, bytes, stored]

end Given

/-- An accepted integer is read back exactly if its type holds it, and two of them share their
bytes exactly if the type brings them to the same integer; those that it holds never do. -/
theorem integer_codec_iff (runtime : Runtime) (integers : runtime.KeepsIntegers)
    (type : IntegerType) {raw value : Value} {number : ℤ} (given : Given type raw number)
    (accepted : type.dataType.sanitize runtime.toV8 raw = .ok value) :
    (∃ bytes, type.dataType.encode runtime.toV8 value = some bytes ∧
      (type.dataType.decoded runtime bytes = some (type.shown number) ↔ type.Holds number)) ∧
    ∀ raw' value' number', Given type raw' number' →
      type.dataType.sanitize runtime.toV8 raw' = .ok value' →
      (type.dataType.encode runtime.toV8 value = type.dataType.encode runtime.toV8 value' ↔
        type.stored number = type.stored number') ∧
      (type.Holds number → type.Holds number' → number ≠ number' →
        type.dataType.encode runtime.toV8 value ≠ type.dataType.encode runtime.toV8 value') := by
  have encoded := given.encode integers accepted
  constructor
  · refine ⟨_, encoded, ?_⟩
    rw [decoded_bytes runtime (type.holds_stored number), Option.some_inj,
      type.shown_injective.eq_iff, stored_eq_iff]
  · intro raw' value' number' given' accepted'
    have shared : type.dataType.encode runtime.toV8 value = type.dataType.encode runtime.toV8 value' ↔
        type.stored number = type.stored number' := by
      rw [encoded, given'.encode integers accepted', Option.some_inj]
      constructor
      · exact bytes_inj (type.holds_stored number) (type.holds_stored number')
      · intro same
        rw [same]
    refine ⟨shared, fun held held' different same => different ?_⟩
    have brought := shared.mp same
    rwa [stored_eq_iff.mpr held, stored_eq_iff.mpr held'] at brought

/-- The largest integer of 32 bits with a sign is read back. -/
theorem integer_codec_of_largest : ∃ bytes,
    DataType.int32.encode Runtime.decimal.toV8 (.number (.finite 2147483647)) = some bytes ∧
    DataType.int32.decoded Runtime.decimal bytes = some (.number (.finite 2147483647)) := by
  have accepted : DataType.int32.sanitize Runtime.decimal.toV8 (.number (.finite 2147483647)) =
      .ok (.number (.finite 2147483647)) := rfl
  obtain ⟨bytes, encoded, read⟩ := (integer_codec_iff Runtime.decimal
    Runtime.decimal_keepsIntegers int32 (.number (by decide)) accepted).1
  exact ⟨bytes, encoded, read.mpr (by decide)⟩

/-- The integer behind it becomes the smallest one, and one and an integer beyond 32 bits are stored
as the same bytes. -/
theorem int32_wraps :
    DataType.int32.sanitize Runtime.decimal.toV8 (.number (.finite 2147483648)) =
      .ok (.number (.finite 2147483648)) ∧
    (DataType.int32.encode Runtime.decimal.toV8 (.number (.finite 2147483648))).bind
      (DataType.int32.decoded Runtime.decimal) = some (.number (.finite (-2147483648))) ∧
    DataType.int32.sanitize Runtime.decimal.toV8 (.number (.finite 4294967297)) =
      .ok (.number (.finite 4294967297)) ∧
    DataType.int32.encode Runtime.decimal.toV8 (.number (.finite 4294967297)) =
      DataType.int32.encode Runtime.decimal.toV8 (.number (.finite 1)) := by
  decide +kernel

/-- Every decimal text within 64 bits is stored in eight bytes and read back in the canonical
spelling of the integer it denotes, which fits the buffer with its NUL, is accepted and stored as
the same bytes; two such texts share their bytes exactly if they denote the same integer. -/
theorem int64_text_codec (runtime : Runtime) (texts : runtime.KeepsText) {text : String}
    (decimal : isDecimal text.toList = true) (held : int64.Holds (Decimal.value text.toList)) :
    let spelled := toString (Decimal.value text.toList)
    DataType.int64.sanitize runtime.toV8 (.text text) = .ok (.text text) ∧
    (∃ bytes, DataType.int64.encode runtime.toV8 (.text text) = some bytes ∧ bytes.length = 8 ∧
      DataType.int64.decoded runtime bytes = some (.text spelled) ∧
      Decimal.Canonical spelled.toList ∧ spelled.toUTF8.toList.length + 1 ≤ 32 ∧
      DataType.int64.sanitize runtime.toV8 (.text spelled) = .ok (.text spelled) ∧
      DataType.int64.encode runtime.toV8 (.text spelled) = some bytes) ∧
    ∀ other : String, isDecimal other.toList = true → int64.Holds (Decimal.value other.toList) →
      (DataType.int64.encode runtime.toV8 (.text text) =
          DataType.int64.encode runtime.toV8 (.text other) ↔
        Decimal.value text.toList = Decimal.value other.toList) := by
  have encoded (text : String) (decimal : isDecimal text.toList = true)
      (held : int64.Holds (Decimal.value text.toList)) :
      DataType.int64.encode runtime.toV8 (.text text) =
        some (int64.bytes (Decimal.value text.toList)) := by
    have kept : atoll text.toUTF8.toList = Decimal.value text.toList := by
      rw [atoll, strtol_decimal decimal]
      exact stored_eq_iff.mpr held
    simp only [DataType.encode, texts text, kept, bytes]
  have accepted (text : String) (decimal : isDecimal text.toList = true) :
      DataType.int64.sanitize runtime.toV8 (.text text) = .ok (.text text) := by
    simp only [sanitize, texts text, decimal, if_true]
  intro spelled
  have denoted : Decimal.value spelled.toList = Decimal.value text.toList :=
    Decimal.value_toString _
  have canonical : Decimal.Canonical spelled.toList := Decimal.canonical_toString _
  have short : spelled.toUTF8.toList.length + 1 ≤ 32 := by
    have length : spelled.toList.length ≤ 19 + 1 := by
      apply Decimal.length_toString_le (by decide)
      obtain ⟨low, high⟩ := held
      omega
    rw [utf8_decimal (isDecimal_of_canonical canonical), List.length_map]
    omega
  refine ⟨accepted text decimal, ⟨_, encoded text decimal held, ?_⟩, ?_⟩
  · refine ⟨length_littleEndian 8 _, decoded_bytes runtime held, canonical, short, ?_, ?_⟩
    · exact accepted spelled (isDecimal_of_canonical canonical)
    · rw [encoded spelled (isDecimal_of_canonical canonical) (denoted ▸ held), denoted]
  · intro other decimal' held'
    rw [encoded text decimal held, encoded other decimal' held', Option.some_inj]
    constructor
    · exact bytes_inj held held'
    · intro same
      rw [same]

/-- The smallest integer of 64 bits, with leading zeros. -/
theorem int64_text_codec_of_smallest : ∃ bytes,
    DataType.int64.encode Runtime.basic.toV8 (.text "-009223372036854775808") = some bytes ∧
    DataType.int64.decoded Runtime.basic bytes = some (.text "-9223372036854775808") := by
  have decimal : isDecimal "-009223372036854775808".toList = true := by decide +kernel
  have held : int64.Holds (Decimal.value "-009223372036854775808".toList) := by decide +kernel
  obtain ⟨-, ⟨bytes, encoded, -, read, -⟩, -⟩ :=
    int64_text_codec Runtime.basic (fun _ => rfl) decimal held
  exact ⟨bytes, encoded, read.trans (by decide +kernel)⟩

end IntegerType

end NodeKv
