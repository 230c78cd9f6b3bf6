import Mathlib.Data.List.TakeWhile
import NodeKv.Model.Values

/-! # Data types of keys and values

A database is opened for a key type and a value type. The script side checks arguments with the
sanitizer of the type (`lib/sanitize.js`); the native side converts what it is given to bytes with
the constructor of the type (`src/kv-types.h`). The conversions of the script engine itself
(`ToString`, `ToNumber`, `parseInt`) are a parameter.

A constructor takes whatever script value stands in its argument position. Only `binary_type` is
partial: `node::Buffer::Data` of a value that is no Buffer ends the process.
-/

namespace NodeKv

abbrev Bytes := List UInt8

/-- The types for which native database classes exist. -/
inductive DataType where
  | binary
  | string
  | hex
  | int32
  | uint32
  | int64
deriving DecidableEq, Repr

/-- A script value, as far as the code tells values apart. -/
inductive Value where
  | undefined
  | number (num : JsNumber)
  | text (chars : String)
  | buffer (bytes : Bytes)
  /-- A native `Txn` object. -/
  | txn (handle : ℕ)
deriving DecidableEq, Repr

/-- The conversions of the script engine. -/
structure V8 where
  toText : Value → String
  toNumber : Value → JsNumber
  /-- The global `parseInt` with one argument. -/
  parseInt : Value → JsNumber

/-- Conversions that are right for integers and for texts that spell one. -/
def V8.basic : V8 where
  toText
    | .undefined => "undefined"
    | .number .nan => "NaN"
    | .number .negInfinity => "-Infinity"
    | .number (.finite value) => toString value.num
    | .number .posInfinity => "Infinity"
    | .text chars => chars
    | .buffer bytes => String.ofList (bytes.map fun byte => Char.ofNat byte.toNat)
    | .txn _ => "[object Txn]"
  toNumber := integer
  parseInt := integer
where
  integer : Value → JsNumber
    | .number num => num
    | .text chars =>
      match chars.toInt? with
      | some value => .finite value
      | none => .nan
    | _ => .nan

/-- `ToString` of a text is the text. -/
def V8.KeepsText (v8 : V8) : Prop := ∀ chars, v8.toText (.text chars) = chars

namespace DataType

/-- `type_name`. -/
def typeName : DataType → String
  | binary => "binary"
  | string => "string"
  | hex => "hex"
  | int32 => "int32"
  | uint32 => "uint32"
  | int64 => "int64"

/-- The pattern `/^-?\d+$/`. -/
def isDecimal (chars : List Char) : Bool :=
  let digits := if chars.head? = some '-' then chars.tail else chars
  !digits.isEmpty && digits.all Char.isDigit

/-- The pattern `/^[0-9a-fA-F]+$/`. -/
def isHex (chars : List Char) : Bool :=
  !chars.isEmpty && chars.all fun char =>
    char.isDigit || ('a' ≤ char && char ≤ 'f') || ('A' ≤ char && char ≤ 'F')

/-- The comparison `number < 0`. -/
def isNegative : JsNumber → Bool
  | .nan => false
  | .negInfinity => true
  | .finite value => decide (value < 0)
  | .posInfinity => false

/-- The sanitizer of a type. -/
def sanitize (v8 : V8) (type : DataType) (value : Value) : Except Error Value :=
  let rejected := Except.error (Error.invalidData type.typeName)
  match type with
  | string => .ok value
  | int32 =>
    let num := v8.parseInt value
    if num = .nan then rejected else .ok (.number num)
  | uint32 =>
    let num := v8.parseInt value
    if num = .nan ∨ isNegative num then rejected else .ok (.number num)
  | int64 => if isDecimal (v8.toText value).toList then .ok value else rejected
  | hex => if isHex (v8.toText value).toList then .ok value else rejected
  | binary =>
    match value with
    | .buffer bytes => .ok (.buffer bytes)
    | _ => rejected

/-- The value of an ASCII digit or letter below a base. -/
def digit? (base : ℕ) (char : UInt8) : Option ℕ :=
  let code := char.toNat
  let digit :=
    if 48 ≤ code ∧ code ≤ 57 then code - 48
    else if 65 ≤ code ∧ code ≤ 90 then code - 55
    else if 97 ≤ code ∧ code ≤ 122 then code - 87
    else base
  if digit < base then some digit else none

/-- Read digits up to the first other character. -/
def digits (base : ℕ) (value : ℕ) : Bytes → ℕ
  | [] => value
  | char :: rest =>
    match digit? base char with
    | some digit => digits base (value * base + digit) rest
    | none => value

/-- C's `strtol` on text that does not spell a `0x` in front of its digits. -/
def strtol (base : ℕ) (chars : Bytes) : ℤ :=
  match chars.dropWhile fun char => char = 32 || (9 ≤ char && char ≤ 13) with
  | 45 :: rest => -digits base 0 rest
  | 43 :: rest => digits base 0 rest
  | rest => digits base 0 rest

/-- C's `atoll`, which saturates. -/
def atoll (chars : Bytes) : ℤ := max (-2 ^ 63) (min (2 ^ 63 - 1) (strtol 10 chars))

/-- Truncation toward zero; NaN and the infinities become zero. -/
def truncate : JsNumber → ℤ
  | .finite value => value.num.tdiv value.den
  | _ => 0

def littleEndian (width : ℕ) (value : ℤ) : Bytes :=
  (List.range width).map fun index => UInt8.ofNat (value / 256 ^ index % 256).toNat

/-- The bytes of a hexadecimal text: two characters a byte, the last one completed by `0`. -/
def hexBytes : Bytes → Bytes
  | [] => []
  | [high] => littleEndian 1 (strtol 16 [high, 48])
  | high :: low :: rest =>
    littleEndian 1 (strtol 16 [high, if low = 0 then 48 else low]) ++ hexBytes rest

/-- The constructor of a type from a script value; `none` when it ends the process. -/
def encode (v8 : V8) (type : DataType) (value : Value) : Option Bytes :=
  let utf8 := (v8.toText value).toUTF8.toList
  match type with
  | binary =>
    match value with
    | .buffer bytes => some bytes
    | _ => none
  | string => some (utf8 ++ [0])
  | hex => some (hexBytes utf8)
  | int32 | uint32 => some (littleEndian 4 (truncate (v8.toNumber value)))
  | int64 => some (littleEndian 8 (atoll utf8))

def fromLittleEndian (bytes : Bytes) : ℕ :=
  bytes.foldr (fun byte rest => byte.toNat + 256 * rest) 0

/-- The order of stored values: numeric for the number types, else `memcmp` with prefixes first. -/
def compare : DataType → Bytes → Bytes → Ordering
  | int32, left, right =>
    Ord.compare (Int.bmod (fromLittleEndian left) (2 ^ 32)) (Int.bmod (fromLittleEndian right) (2 ^ 32))
  | uint32, left, right => Ord.compare (fromLittleEndian left) (fromLittleEndian right)
  | int64, left, right =>
    Ord.compare (Int.bmod (fromLittleEndian left) (2 ^ 64)) (Int.bmod (fromLittleEndian right) (2 ^ 64))
  | _, left, right => Ord.compare left right

/-- What the sanitizers accept, the constructors convert. -/
theorem encode_of_sanitize {v8 : V8} {type : DataType} {raw value : Value}
    (accepted : type.sanitize v8 raw = .ok value) : (type.encode v8 value).isSome := by
  cases type with
  | binary =>
    cases raw with
    | buffer bytes =>
      cases accepted
      rfl
    | undefined => exact nomatch accepted
    | number num => exact nomatch accepted
    | text chars => exact nomatch accepted
    | txn handle => exact nomatch accepted
  | string => rfl
  | hex => rfl
  | int32 => rfl
  | uint32 => rfl
  | int64 => rfl

end DataType

/-- A script value that the sanitizer of its type has let through. -/
structure Datum (v8 : V8) (type : DataType) where
  value : Value
  sanitized : ∃ raw, type.sanitize v8 raw = .ok value

/-- Sanitize an argument. -/
def DataType.check (v8 : V8) (type : DataType) (raw : Value) : Except Error (Datum v8 type) :=
  match accepted : type.sanitize v8 raw with
  | .error error => .error error
  | .ok value => .ok ⟨value, raw, accepted⟩

theorem DataType.check_cases (v8 : V8) (type : DataType) (raw : Value) :
    (∃ error, type.sanitize v8 raw = .error error ∧ type.check v8 raw = .error error) ∨
    ∃ datum : Datum v8 type, type.sanitize v8 raw = .ok datum.value ∧
      type.check v8 raw = .ok datum := by
  unfold DataType.check
  split
  · next error rejected => exact .inl ⟨error, rejected, rfl⟩
  · next value accepted => exact .inr ⟨⟨value, raw, accepted⟩, accepted, rfl⟩

theorem DataType.sanitize_of_check {v8 : V8} {type : DataType} {raw : Value} {datum : Datum v8 type}
    (checked : type.check v8 raw = .ok datum) : type.sanitize v8 raw = .ok datum.value := by
  rcases type.check_cases v8 raw with ⟨error, -, failed⟩ | ⟨other, sanitized, passed⟩
  · exact nomatch failed.symm.trans checked
  · rw [sanitized, Except.ok.inj (passed.symm.trans checked)]

/-- The bytes stored for a sanitized value. -/
def Datum.bytes {v8 : V8} {type : DataType} (datum : Datum v8 type) : Bytes :=
  (type.encode v8 datum.value).getD []

@[simp] theorem Datum.encode_value {v8 : V8} {type : DataType} (datum : Datum v8 type) :
    type.encode v8 datum.value = some datum.bytes := by
  obtain ⟨raw, accepted⟩ := datum.sanitized
  obtain ⟨bytes, encoded⟩ := Option.isSome_iff_exists.mp (DataType.encode_of_sanitize accepted)
  rw [Datum.bytes, encoded, Option.getD_some]

/-- The options a database is opened or registered with; a type without a native class is
`none`. -/
structure DbOptions where
  name : Option String
  keyType : Option DataType
  valType : Option DataType
deriving DecidableEq, Repr

/-- The name of a database as the engines get it: a C string. -/
def nativeName (name : String) : Bytes := name.toUTF8.toList.takeWhile (· ≠ 0)

theorem nativeName_eq_iff (name : String) :
    nativeName name = name.toUTF8.toList ↔ 0 ∉ name.toUTF8.toList := by
  rw [nativeName, List.takeWhile_eq_self_iff]
  constructor
  · intro clean member
    exact of_decide_eq_true (clean 0 member) rfl
  · intro clean byte member
    exact decide_eq_true fun zero => clean (zero ▸ member)

end NodeKv
