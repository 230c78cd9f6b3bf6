import NodeKv.Model.Comparators
import NodeKv.Model.Level.Db

/-! # Column families of a RocksDB environment

A RocksDB environment is one native database with a column family for each script database
(`lib/rocksdb/env.js`, `src/rocksdb/env-rocks.cpp`). Registering a database adds a descriptor to a
list that begins with the one of the default family, and keeps its index. `open` hands the list to
`DB::Open` and gets one handle per descriptor in the same order; each database then takes the
handle at its index.

`DB::Open` resolves descriptors by name, and the options of the first one with a name count. A
column family is known by its name: the bytes of the script's name up to the first NUL, since
the name is passed on as a C string.
-/

namespace NodeKv.Rocks

open Machine

/-- The comparators that column families are opened with. -/
inductive Comparator where
  /-- The default of `ColumnFamilyOptions`. -/
  | bytewise
  /-- That of a number type. -/
  | number (type : CInteger)
deriving DecidableEq, Repr

namespace Comparator

/-- The comparator of a type, if `get_cmp` has one. -/
def ofType (type : DataType) : Comparator := (type.number?.map number).getD bytewise

/-- The object that `get_cmp` returns. -/
def object? : Comparator → Option EngineComparator
  | bytewise => none
  | number type => some (lvlRocksComparator type)

theorem object?_ofType (type : DataType) : (ofType type).object? = getCmp type := by
  cases type <;> rfl

/-- The order of keys, which have the width of their type. -/
def compare : Comparator → Bytes → Bytes → Ordering
  | bytewise => Ord.compare
  | number type => fun left right => Ord.compare (type.ofBytes left) (type.ofBytes right)

theorem compare_ofType (type : DataType) (left right : Bytes) :
    (ofType type).compare left right = type.compare left right := by
  cases type with
  | int32 =>
    have width : 256 ^ 4 = 2 ^ 32 := by decide
    simp only [ofType, DataType.number?, Option.map_some, Option.getD_some, compare, CInteger.ofBytes,
      DataType.compare, width, ↓reduceIte]
  | uint32 =>
    simp only [ofType, DataType.number?, Option.map_some, Option.getD_some, compare, CInteger.ofBytes,
      DataType.compare, Bool.false_eq_true, ↓reduceIte, Ord.compare, compareOfLessAndEq, Nat.cast_lt,
      Nat.cast_inj]
  | int64 =>
    have width : 256 ^ 8 = 2 ^ 64 := by decide
    simp only [ofType, DataType.number?, Option.map_some, Option.getD_some, compare, CInteger.ofBytes,
      DataType.compare, width, ↓reduceIte]
  | binary => rfl
  | string => rfl
  | hex => rfl

end Comparator

/-- A column family, as a descriptor asks for it and as a handle stands for it. -/
structure Family where
  name : Bytes
  comparator : Comparator
deriving DecidableEq, Repr

/-- `kDefaultColumnFamilyName`. -/
def defaultName : Bytes := "default".toUTF8.toList

structure Db where
  /-- Its key in `dbs` of the environment. -/
  name : String
  schema : Level.Schema
  /-- `_cfidx`. -/
  cfidx : ℕ
  /-- `_cf`. -/
  cf : Option Family
deriving DecidableEq, Repr

structure Env where
  /-- `_desc`. -/
  desc : List Family
  /-- `_handles`. -/
  handles : List Family
  dbs : List Db
deriving DecidableEq, Repr

/-- `env::env`. -/
def Env.new : Env := ⟨[⟨defaultName, .bytewise⟩], [], []⟩

/-- `db::ctor` with `env::register_db`, and the new `Db` object. -/
def dbCtor (name : String) (schema : Level.Schema) (env : Env) : Db × Env :=
  let desc := env.desc ++ [⟨nativeName name, .ofType schema.keyType⟩]
  (⟨name, schema, desc.length - 1, none⟩, { env with desc := desc })

/-- `Env.prototype.registerDb`. -/
def registerDb (opt : DbOptions) : Prog Error Env := fun env =>
  match opt.name.filter (!·.isEmpty) with
  | none => .threw .nameRequired env
  | some name =>
    if hasName (env.dbs.map Db.name) name then .threw (.alreadyRegistered name) env
    else
      match opt.keyType, opt.valType with
      | some keyType, some valType =>
        let (db, env) := dbCtor name ⟨keyType, valType⟩ env
        .returned { env with dbs := env.dbs ++ [db] }
      | _, _ => .threw .unsupportedTypes env

/-- The first descriptor of a name, whose options count. -/
def firstNamed (name : Bytes) (desc : List Family) : Option Family := desc.find? (·.name = name)

/-- `DB::Open`: one handle per descriptor. -/
def openFamilies (desc : List Family) : List Family :=
  desc.map fun wanted => (firstNamed wanted.name desc).getD wanted

/-- `db::init`. -/
def Db.init (handles : List Family) (db : Db) : Db := { db with cf := handles[db.cfidx]? }

/-- `Env.prototype.open`, with the text of a bad status. `DB::Open` drops the handles it is given
first. -/
def openEnv (failed : Option String) : Prog Error Env := fun env =>
  match failed with
  | some text => .threw (.status text) { env with handles := [] }
  | none =>
    let handles := openFamilies env.desc
    .returned { env with handles := handles, dbs := env.dbs.map (Db.init handles) }

/-- The contents of the column families, by name. -/
abbrev Contents := Bytes → Bytes → Option Bytes

/-- What is stored where the database reads. -/
def Db.read (db : Db) (contents : Contents) : Bytes → Option Bytes :=
  match db.cf with
  | some family => contents family.name
  | none => fun _ => none

/-- A put or del through a database. -/
def Db.write (db : Db) (contents : Contents) (record : Level.Record) : Contents :=
  match db.cf with
  | some family => Function.update contents family.name (record.apply (contents family.name))
  | none => contents

end NodeKv.Rocks
