import NodeKv.Model.Decode
import NodeKv.Model.Lmdb.Session

/-! # Reading through the cache

`Db.prototype.get` of `lib/cache/db.js` reads the database of its name in the current and, if that
gives nothing, in the old environment. What counts as nothing is decided by the script operator
`||`, on the converted value.
-/

namespace NodeKv

/-- Whether the script takes a value for true. -/
def Value.truthy : Value → Bool
  | undefined => false
  | number .nan => false
  | number (.finite num) => decide (num ≠ 0)
  | number _ => true
  | text chars => !chars.isEmpty
  | buffer _ => true
  | txn _ => true

/-- The operator `||` goes on to its second operand. -/
def Reply.falls : Reply → Bool
  | null => true
  | value val => !val.truthy
  | throws _ => false
  | never => false

namespace Cache.Read

/-- A cache database, as it is opened in the two environments. -/
structure Db where
  curDbi : ℕ
  oldDbi : ℕ
  keyType : DataType
  valType : DataType
  allowDup : Bool
deriving DecidableEq, Repr

namespace Db

/-- `env._curEnv.dbs[opt.name]`. -/
def cur (db : Db) : Lmdb.Db := ⟨db.curDbi, db.keyType, db.valType, db.allowDup⟩

/-- `env._oldEnv.dbs[opt.name]`. -/
def old (db : Db) : Lmdb.Db := ⟨db.oldDbi, db.keyType, db.valType, db.allowDup⟩

end Db

section Get

variable (returns : Lmdb.Returns) (runtime : Runtime) (around : Memory)

/-- `Db.prototype.get` of `lib/lmdb/db.js`, with the conversion of what it found. -/
def lmdbGet (db : Lmdb.Db) (key : Value) (native : Lmdb.Native) : Reply × Lmdb.Native :=
  match Lmdb.dbGet returns runtime.toV8 db key none native with
  | (.ok none, native) => (.null, native)
  | (.ok (some val), native) =>
    (.ofDecoded (db.valType.decode runtime (around.holding val) val.length), native)
  | (.throws error, native) => (.throws error, native)
  | (.never, native) => (.never, native)

end Get

/-- `Db.prototype.get` of the cache, on the current and the old environment. -/
def get (curReturns oldReturns : Lmdb.Returns) (runtime : Runtime) (around : Memory) (db : Db)
    (key : Value) (cur old : Lmdb.Native) : Reply × Lmdb.Native × Lmdb.Native :=
  let (first, cur) := lmdbGet curReturns runtime around db.cur key cur
  if first.falls then
    let (second, old) := lmdbGet oldReturns runtime around db.old key old
    (second, cur, old)
  else (first, cur, old)

end Cache.Read

end NodeKv
