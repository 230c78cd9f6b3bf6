import NodeKv.Model.Comparators
import NodeKv.Soundness.Codec.Integers

/-! # The order of numbers

Little-endian bytes are not in the order of the numbers they stand for, neither as bytes nor, with a
sign, as natural numbers. The comparators load the numbers first, so on bytes of the width of the
type they are the order of the numbers: a total order that only equal bytes are equal in, the same
for keys and duplicates and in every engine.
-/

namespace NodeKv

open Machine DataType

namespace CInteger

private theorem compare_eq_sign (val other : ℤ) : compare val other = Int.sign (val - other) := by
  unfold compare
  split_ifs with greater less
  · rw [Int.sign_eq_one_of_pos (by omega)]
  · rw [Int.sign_eq_neg_one_of_neg (by omega)]
  · rw [Int.sign_eq_zero_iff_zero.mpr (by omega)]

theorem compare_swap (val other : ℤ) : compare other val = -compare val other := by
  rw [compare_eq_sign, compare_eq_sign, ← Int.sign_neg, Int.neg_sub]

private theorem compare_nonpos_iff {val other : ℤ} : compare val other ≤ 0 ↔ val ≤ other := by
  unfold compare
  split_ifs <;> omega

private theorem compare_neg_iff {val other : ℤ} : compare val other < 0 ↔ val < other := by
  unfold compare
  split_ifs <;> omega

private theorem compare_eq_zero_iff {val other : ℤ} : compare val other = 0 ↔ val = other := by
  rw [compare_eq_sign, Int.sign_eq_zero_iff_zero, Int.sub_eq_zero]

/-- The sign that the engines look at. -/
theorem ordering_compare (val other : ℤ) : Ord.compare
    (compare val other) 0 = Ord.compare val other := by
  unfold compare
  split_ifs with greater less
  · exact (compare_gt_iff_gt.mpr greater).symm
  · exact (compare_lt_iff_lt.mpr less).symm
  · exact (compare_eq_iff_eq.mpr (by omega)).symm

private theorem ofBytes_signed (size : ℕ) (bytes : Bytes) :
    (⟨size, true⟩ : CInteger).ofBytes bytes = Int.bmod (fromLittleEndian bytes) (256 ^ size) :=
  if_pos rfl

private theorem ofBytes_unsigned (size : ℕ) (bytes : Bytes) :
    (⟨size, false⟩ : CInteger).ofBytes bytes = fromLittleEndian bytes := if_neg Bool.false_ne_true

section Load

variable {type : CInteger} {a b : Bytes}

private theorem load_eq (wide : a.length = type.size) : type.load a = some (type.ofBytes a) := by
  rw [load, window, if_pos wide.ge, List.take_of_length_le wide.le, Option.map_some]

private theorem compareLoaded_eq (wide : a.length = type.size) (wide' : b.length = type.size) :
    type.compareLoaded a b = some (compare (type.ofBytes a) (type.ofBytes b)) := by
  rw [compareLoaded, load_eq wide, load_eq wide', Option.bind_some, Option.map_some]

/-- Bytes of the width of a type are told apart by their number. -/
theorem ofBytes_inj (wide : a.length = type.size) (wide' : b.length = type.size) :
    type.ofBytes a = type.ofBytes b ↔ a = b := by
  constructor
  · intro same
    unfold ofBytes at same
    split_ifs at same
    · exact eq_of_signed wide wide' same
    · exact fromLittleEndian_inj (wide.trans wide'.symm) (Int.ofNat_inj.mp same)
  · intro same
    rw [same]

end Load

end CInteger

namespace IntegerType

/-- The C type of the numbers. -/
def number : IntegerType → CInteger
  | int32 => ⟨4, true⟩
  | uint32 => ⟨4, false⟩
  | int64 => ⟨8, true⟩

private theorem number?_dataType (type : IntegerType) :
    type.dataType.number? = some type.number := by
  cases type <;> rfl

/-- The sign that every comparator of the type returns. -/
def order (type : IntegerType) (a b : Bytes) : ℤ :=
  CInteger.compare (type.number.ofBytes a) (type.number.ofBytes b)

section Width

variable {type : IntegerType} {a b : Bytes}

/-- The number that is compared is the one that is read back. -/
theorem decoded_eq_shown (runtime : Runtime) (wide : a.length = type.number.size) :
    type.dataType.decoded runtime a = some (type.shown (type.number.ofBytes a)) := by
  have whole (width : ℕ) (same : a.length = width) : window width a = some a := by
    rw [window, if_pos same.ge, List.take_of_length_le same.le]
  cases type with
  | int32 =>
    rw [number, CInteger.ofBytes_signed, shown, show 256 ^ 4 = 2 ^ 32 by decide]
    simp only [dataType, decoded, decode, whole 4 wide, Option.map_some]
  | uint32 =>
    rw [number, CInteger.ofBytes_unsigned, shown, Int.cast_natCast]
    simp only [dataType, decoded, decode, whole 4 wide, Option.map_some]
  | int64 =>
    rw [number, CInteger.ofBytes_signed, shown, show 256 ^ 8 = 2 ^ 64 by decide]
    simp only [dataType, decoded, decode, whole 8 wide, Option.map_some, runtime.newText_utf8]

private theorem ordering_order (type : IntegerType) (a b : Bytes) :
    Ord.compare (type.order a b) 0 = type.dataType.compare a b := by
  rw [order, CInteger.ordering_compare]
  cases type with
  | int32 =>
    rw [number, CInteger.ofBytes_signed, CInteger.ofBytes_signed, show 256 ^ 4 = 2 ^ 32 by decide]
    rfl
  | uint32 =>
    rw [number, CInteger.ofBytes_unsigned, CInteger.ofBytes_unsigned]
    rw [← cmp_eq_compare]
    exact (Nat.strictMono_cast.cmp_map_eq _ _).trans (cmp_eq_compare _ _)
  | int64 =>
    rw [number, CInteger.ofBytes_signed, CInteger.ofBytes_signed, show 256 ^ 8 = 2 ^ 64 by decide]
    rfl

private theorem ofBytes_bytes {number : ℤ} (held : type.Holds number) :
    type.number.ofBytes (type.bytes number) = number := by
  cases type with
  | int32 =>
    refine (CInteger.ofBytes_signed 4 _).trans ?_
    exact (signed_littleEndian_iff (by decide) number).mpr held
  | uint32 =>
    refine (CInteger.ofBytes_unsigned 4 _).trans ?_
    exact (unsigned_littleEndian_iff 4 number).mpr held
  | int64 =>
    refine (CInteger.ofBytes_signed 8 _).trans ?_
    exact (signed_littleEndian_iff (by decide) number).mpr held

/-- A number is stored in the width of its type. -/
theorem length_bytes (type : IntegerType) (number : ℤ) :
    (type.bytes number).length = type.number.size := by
  cases type <;> exact length_littleEndian ..

end Width

section Shown

variable {v8 : V8} {type : IntegerType} {number : ℤ}

/-- The value that an integer of the type is read back as stands for it. -/
theorem given_shown (held : type.Holds number) : Given type (type.shown number) number := by
  cases type with
  | int32 =>
    obtain ⟨low, high⟩ := held
    exact .number (by omega)
  | uint32 =>
    obtain ⟨low, high⟩ := held
    exact .number (by omega)
  | int64 =>
    have denoted := Given.text (isDecimal_toString number) (Or.inl (Eq.refl int64))
    rwa [Decimal.value_toString] at denoted

private theorem sanitize_shown (integers : v8.KeepsIntegers) (held : type.Holds number) :
    type.dataType.sanitize v8 (type.shown number) = .ok (type.shown number) := by
  have given := given_shown held
  cases type with
  | int32 =>
    have parsed := given.parseInt integers (by decide)
    simp only [shown] at parsed
    simp only [dataType, sanitize, shown, parsed, reduceCtorEq, if_false]
  | uint32 =>
    have positive : ¬(number : ℚ) < 0 := not_lt.mpr (Int.cast_nonneg held.1)
    have parsed := given.parseInt integers (by decide)
    simp only [shown] at parsed
    simp only [dataType, sanitize, shown, parsed, reduceCtorEq, isNegative, positive, decide_false,
      Bool.false_eq_true, or_self, if_false]
  | int64 =>
    simp only [dataType, sanitize, (given.toText integers).1, if_true]

end Shown

section Comparators

variable (type : IntegerType)

private theorem getCmp_dataType : getCmp type.dataType = some (lvlRocksComparator type.number) := by
  rw [getCmp, number?_dataType, Option.map_some]

/-- The function for keys is the one of the key type, and the one for duplicates that of the value
type if there are duplicates. -/
theorem ctor_cmpFuncs (funcs : Lmdb.CmpFuncs) (other : DataType) :
    (∀ allowDup, (funcs.ctor type.dataType other allowDup).key = some (Lmdb.mdbCmpFn type.number)) ∧
    (funcs.ctor other type.dataType true).dup = some (Lmdb.mdbCmpFn type.number) := by
  constructor
  · intro allowDup
    simp only [Lmdb.CmpFuncs.ctor, Lmdb.CmpFuncs.setCmp, Lmdb.CmpFuncs.setDupCmp,
      number?_dataType]
    split_ifs
    · cases other.number? <;> rfl
    · rfl
  · simp only [Lmdb.CmpFuncs.ctor, Lmdb.CmpFuncs.setDupCmp, number?_dataType, if_true]

end Comparators

/-- A sign for any two of the byte strings of a width that makes them a total order. -/
structure IsOrder (width : ℕ) (order : Bytes → Bytes → ℤ) : Prop where
  swap : ∀ a b, a.length = width → b.length = width → order b a = -order a b
  zero_iff : ∀ a b, a.length = width → b.length = width → (order a b = 0 ↔ a = b)
  trans : ∀ a b c, a.length = width → b.length = width → c.length = width →
    order a b ≤ 0 → order b c ≤ 0 → order a c ≤ 0

/-- The keys that LevelDB and RocksDB get for shorter ones lie where they ask for. -/
structure Shortens (width : ℕ) (order : Bytes → Bytes → ℤ) (comparator : EngineComparator) :
    Prop where
  separator : ∀ start limit, start.length = width → limit.length = width → order start limit < 0 →
    let result := comparator.findShortestSeparator start limit
    result.length = width ∧ order start result ≤ 0 ∧ order result limit < 0
  successor : ∀ key, key.length = width →
    let result := comparator.findShortSuccessor key
    result.length = width ∧ 0 ≤ order result key

private theorem isOrder_order (type : IntegerType) : IsOrder type.number.size type.order where
  swap := fun _ _ _ _ => CInteger.compare_swap ..
  zero_iff := fun _ _ wide wide' =>
    CInteger.compare_eq_zero_iff.trans (CInteger.ofBytes_inj wide wide')
  trans := by
    intro a b c _ _ _ first second
    apply CInteger.compare_nonpos_iff.mpr
    exact (CInteger.compare_nonpos_iff.mp first).trans (CInteger.compare_nonpos_iff.mp second)

private theorem shortens_order (type : IntegerType) :
    Shortens type.number.size type.order (lvlRocksComparator type.number) where
  separator := fun _ _ wide _ below => ⟨wide, CInteger.compare_nonpos_iff.mpr le_rfl, below⟩
  successor := fun _ wide => ⟨wide, (CInteger.compare_eq_zero_iff.mpr rfl).ge⟩

/-- On bytes of the width of a number type, the comparators of all engines return the sign of the
comparison of the numbers that the bytes are read as. This is a total order in which only equal bytes
are equal, it is the order that the engines are modelled with, and the keys that LevelDB and RocksDB
get for shorter ones lie where they must. Integers of the type are in the order of their bytes. -/
theorem number_order (runtime : Runtime) (integers : runtime.KeepsIntegers) (type : IntegerType) :
    ∃ comparator cmp,
      getCmp type.dataType = some comparator ∧
      (∀ (funcs : Lmdb.CmpFuncs) other,
        (∀ allowDup, (funcs.ctor type.dataType other allowDup).key = some cmp) ∧
        (funcs.ctor other type.dataType true).dup = some cmp) ∧
      (∀ a b, a.length = type.number.size → b.length = type.number.size →
        comparator.compare a b = some (type.order a b) ∧ cmp a b = some (type.order a b) ∧
        Ord.compare (type.order a b) 0 = type.dataType.compare a b ∧
        ∃ x y, type.dataType.decoded runtime a = some (type.shown x) ∧
          type.dataType.decoded runtime b = some (type.shown y) ∧
          type.order a b = Int.sign (x - y)) ∧
      IsOrder type.number.size type.order ∧ Shortens type.number.size type.order comparator ∧
      (∀ x, type.Holds x → Given type (type.shown x) x ∧
        type.dataType.sanitize runtime.toV8 (type.shown x) = .ok (type.shown x)) ∧
      ∀ raw raw' value value' x y, Given type raw x → Given type raw' y →
        type.dataType.sanitize runtime.toV8 raw = .ok value →
        type.dataType.sanitize runtime.toV8 raw' = .ok value' → type.Holds x → type.Holds y →
        ∃ a b, type.dataType.encode runtime.toV8 value = some a ∧
          type.dataType.encode runtime.toV8 value' = some b ∧ a.length = type.number.size ∧
          b.length = type.number.size ∧ (x < y ↔ type.order a b < 0) := by
  refine ⟨lvlRocksComparator type.number, Lmdb.mdbCmpFn type.number, type.getCmp_dataType,
    type.ctor_cmpFuncs, ?_, type.isOrder_order, type.shortens_order,
    fun _ held => ⟨given_shown held, sanitize_shown integers held⟩, ?_⟩
  · intro a b wide wide'
    refine ⟨CInteger.compareLoaded_eq wide wide', CInteger.compareLoaded_eq wide wide',
      type.ordering_order a b, _, _, decoded_eq_shown runtime wide, decoded_eq_shown runtime wide', ?_⟩
    exact CInteger.compare_eq_sign ..
  · intro raw raw' value value' x y given given' accepted accepted' held held'
    refine ⟨_, _, given.encode integers accepted, given'.encode integers accepted',
      type.length_bytes _, type.length_bytes _, ?_⟩
    rw [stored_eq_iff.mpr held, stored_eq_iff.mpr held', order, CInteger.compare_neg_iff,
      ofBytes_bytes held, ofBytes_bytes held']

/-- The number -1 comes before 1, although its bytes are larger. -/
theorem number_order_negative : ∃ a b,
    DataType.int32.encode Runtime.decimal.toV8 (.number (.finite (-1))) = some a ∧
    DataType.int32.encode Runtime.decimal.toV8 (.number (.finite 1)) = some b ∧
    int32.order a b < 0 := by
  obtain ⟨_, _, -, -, -, -, -, -, embedded⟩ :=
    number_order Runtime.decimal Runtime.decimal_keepsIntegers int32
  obtain ⟨a, b, encoded, encoded', -, -, below⟩ := embedded (.number (.finite (-1 : ℤ)))
    (.number (.finite (1 : ℤ))) _ _ _ _ (.number (by decide)) (.number (by decide)) rfl rfl
    (by decide) (by decide)
  exact ⟨a, b, encoded, encoded', below.mp (by decide)⟩

end IntegerType

end NodeKv
