import NodeKv.Model.Decode

/-! # Comparators

The engines keep keys, and LMDB also duplicates, in the order of a comparator. The number types bring
their own (`src/kv-types.h`, `src/lmdb/db-lmdb.cpp`): it makes a number of each of the two runs of
bytes it is given and says which one is larger. For the other types the engines use their default,
which goes byte by byte, prefixes first.

A number is loaded in its own width, whatever size the engine names, so there is no result for
fewer bytes. LevelDB and RocksDB may also ask a comparator for a short key between two others, or
behind one; this comparator leaves the key it is given as it is.
-/

namespace NodeKv

open DataType

/-- An integer type of C, as the parameter of `number_type`. -/
structure CInteger where
  size : ℕ
  signed : Bool
deriving DecidableEq, Repr

/-- The parameter of `number_type`, for the types that are instances of it. -/
def DataType.number? : DataType → Option CInteger
  | int32 => some ⟨4, true⟩
  | uint32 => some ⟨4, false⟩
  | int64 => some ⟨8, true⟩
  | _ => none

namespace CInteger

variable (type : CInteger)

/-- The number that some bytes stand for. -/
def ofBytes (bytes : Bytes) : ℤ :=
  if type.signed then Int.bmod (fromLittleEndian bytes) (256 ^ type.size) else fromLittleEndian bytes

/-- `number_type::number_type`, from an address and a size that it does not look at. -/
def load (val : Bytes) : Option ℤ := (window type.size val).map type.ofBytes

/-- `number_type::compare`. -/
def compare (val other : ℤ) : ℤ := if val > other then 1 else if val < other then -1 else 0

/-- Load two numbers and compare them. -/
def compareLoaded (a b : Bytes) : Option ℤ :=
  (type.load a).bind fun ka => (type.load b).map fun kb => compare ka kb

end CInteger

/-- A comparator object of LevelDB or RocksDB. -/
structure EngineComparator where
  compare : Bytes → Bytes → Option ℤ
  /-- What becomes of the first argument. -/
  findShortestSeparator : Bytes → Bytes → Bytes
  /-- What becomes of the argument. -/
  findShortSuccessor : Bytes → Bytes

/-- `lvl_rocks_comparator` for the number types. -/
def lvlRocksComparator (type : CInteger) : EngineComparator where
  compare := type.compareLoaded
  findShortestSeparator := fun start _ => start
  findShortSuccessor := fun key => key

/-- `lvl_rocks_comparator::get_cmp`; without one the engines use their default. -/
def getCmp (type : DataType) : Option EngineComparator := type.number?.map lvlRocksComparator

namespace Lmdb

/-- A comparison function of LMDB. -/
abbrev CmpFunc := Bytes → Bytes → Option ℤ

/-- `mdb_cmp_fn`. -/
def mdbCmpFn (type : CInteger) : CmpFunc := type.compareLoaded

/-- The functions that a handle has been given; `none` is the default. -/
structure CmpFuncs where
  key : Option CmpFunc
  dup : Option CmpFunc

/-- `mdb_cmp_setter::set_cmp`. -/
def CmpFuncs.setCmp (type : DataType) (funcs : CmpFuncs) : CmpFuncs :=
  match type.number? with
  | some number => { funcs with key := some (mdbCmpFn number) }
  | none => funcs

/-- `mdb_cmp_setter::set_dup_cmp`. -/
def CmpFuncs.setDupCmp (type : DataType) (funcs : CmpFuncs) : CmpFuncs :=
  match type.number? with
  | some number => { funcs with dup := some (mdbCmpFn number) }
  | none => funcs

/-- What `db::ctor` makes of the functions of the handle it has opened. -/
def CmpFuncs.ctor (keyType valType : DataType) (allowDup : Bool) (funcs : CmpFuncs) : CmpFuncs :=
  let funcs := funcs.setCmp keyType
  if allowDup then funcs.setDupCmp valType else funcs

end Lmdb

end NodeKv
