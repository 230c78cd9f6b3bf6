import NodeKv.Machine.Runs
import NodeKv.Machine.Updates
import NodeKv.Model.Types

/-! # Batching in LevelDB and RocksDB databases

`lib/leveldb` and `lib/rocksdb` share their code: a database owns a native `WriteBatch` and a
script counter of its records, and writes the batch when the counter reaches the batch size, when
asked to, or when the timer fires. `_autoFlush` is debounced on the prototype, so all databases of
one engine share one timer.

The two engines differ in the native call only: RocksDB names the column family of the database
in every call, where LevelDB has a store of its own. So the store here is the contents of that
column family, or of the whole LevelDB database. Writing a batch applies its records in order, or
fails and applies none; the status of every native write is the parameter `fails`. `log` records
what has been written.
-/

namespace NodeKv.Level

open Machine

/-- The types a database was opened with. -/
structure Schema where
  keyType : DataType
  valType : DataType
deriving DecidableEq, Repr

abbrev Record := Update Bytes Bytes

structure Db where
  /-- Contents of the native database. -/
  store : Bytes → Option Bytes
  /-- Records of the native batch. -/
  records : List Record
  /-- `_cnt` of the script batch. -/
  cnt : ℕ
  /-- `_batchSize`. -/
  batchSize : JsNumber
  /-- Number of native writes attempted. -/
  calls : ℕ
  log : List Record

/-- The text of a failed status, write by write. -/
abbrev Fails := ℕ → Option String

/-- Where a native `put` or `del` goes, by its last argument: a batch, or the database itself. -/
inductive Target where
  | batch
  | database
deriving DecidableEq, Repr

section Db

variable (v8 : V8) (fails : Fails)

/-- A native write of some records. -/
def writeRecords (records : List Record) : Prog Error Db := fun db =>
  let called := { db with calls := db.calls + 1 }
  match fails db.calls with
  | some text => .threw (.status text) called
  | none =>
    .returned { called with store := applyAll db.store records, log := db.log ++ records }

/-- Add a record to the batch, or write it at once. -/
def writeRecord (target : Target) (record : Record) : Prog Error Db :=
  match target with
  | .batch => Prog.update fun db => { db with records := db.records ++ [record] }
  | .database => writeRecords fails [record]

/-- `db::put`. -/
def nativePut (schema : Schema) (info0 info1 : Value) (target : Target) : Prog Error Db :=
  match schema.keyType.encode v8 info0, schema.valType.encode v8 info1 with
  | some key, some val => writeRecord fails target (.put key val)
  | _, _ => fun _ => .diverged

/-- `db::del`. -/
def nativeDel (schema : Schema) (info0 : Value) (target : Target) : Prog Error Db :=
  match schema.keyType.encode v8 info0 with
  | some key => writeRecord fails target (.del key)
  | none => fun _ => .diverged

/-- `Db.prototype.put`. -/
def put (schema : Schema) (key val : Value) (target : Target) : Prog Error Db :=
  match schema.keyType.sanitize v8 key, schema.valType.sanitize v8 val with
  | .error error, _ => .threw error
  | .ok _, .error error => .threw error
  | .ok key, .ok val => nativePut v8 fails schema key val target

/-- `Db.prototype.del`. -/
def del (schema : Schema) (key : Value) (target : Target) : Prog Error Db :=
  match schema.keyType.sanitize v8 key with
  | .error error => .threw error
  | .ok key => nativeDel v8 fails schema key target

/-- `Batch.prototype.clear`. -/
def batchClear : Prog Error Db := Prog.update fun db => { db with records := [], cnt := 0 }

/-- `Batch.prototype.write`, alias `flush`, and `Db.prototype.flushBatchOps`. -/
def flushBatchOps : Prog Error Db := fun db =>
  if 0 < db.cnt then Prog.seq (writeRecords fails db.records) batchClear db else .returned db

/-- A write as the caller asks for it. -/
inductive Op where
  | put (key val : Value)
  | del (key : Value)
deriving DecidableEq, Repr

/-- The write as `put` or `del` of the database performs it. -/
def Op.perform (schema : Schema) (target : Target) : Op → Prog Error Db
  | put key val => Level.put v8 fails schema key val target
  | del key => Level.del v8 fails schema key target

/-- The record the engine is given, unless a sanitizer rejects an argument. -/
def Op.record? (schema : Schema) : Op → Option Record
  | put key val =>
    match schema.keyType.check v8 key, schema.valType.check v8 val with
    | .ok key, .ok val => some (.put key.bytes val.bytes)
    | _, _ => none
  | del key =>
    match schema.keyType.check v8 key with
    | .ok key => some (.del key.bytes)
    | .error _ => none

/-- `Batch.prototype.put` and `Batch.prototype.del`. -/
def batchRecord (schema : Schema) (op : Op) : Prog Error Db :=
  Prog.seq (op.perform v8 fails schema .batch) (Prog.update fun db => { db with cnt := db.cnt + 1 })

end Db

/-- All databases of one engine, numbered, and the timer they share. -/
structure World where
  dbs : ℕ → Db
  timer : Option ℕ

/-- Run a program on one database. -/
def World.run (index : ℕ) : Prog Error Db → Prog Error World :=
  Prog.zoom (fun world => world.dbs index) fun world db =>
    { world with dbs := Function.update world.dbs index db }

/-- `Db.prototype._autoFlush`. -/
def autoFlush (index : ℕ) : Prog Error World := Prog.update fun world => { world with timer := some index }

variable (v8 : V8) (fails : ℕ → Fails)

/-- `Db.prototype.batchPut` and `Db.prototype.batchDel`. -/
def batchOp (schema : ℕ → Schema) (index : ℕ) (op : Op) : Prog Error World :=
  Prog.seq (World.run index (batchRecord v8 (fails index) (schema index) op)) fun world =>
    if (world.dbs index).batchSize.reached (world.dbs index).cnt then
      World.run index (flushBatchOps (fails index)) world
    else autoFlush index world

/-- What the users of the databases do, and the timer. -/
inductive Action where
  | batchPut (index : ℕ) (key val : Value)
  | batchDel (index : ℕ) (key : Value)
  | setBatchSize (index : ℕ) (num : JsNumber)
  | flushBatchOps (index : ℕ)
  | fire
deriving DecidableEq, Repr

def act (schema : ℕ → Schema) : Action → Prog Error World
  | .batchPut index key val => batchOp v8 fails schema index (.put key val)
  | .batchDel index key => batchOp v8 fails schema index (.del key)
  | .setBatchSize index num => World.run index (Prog.update fun db => { db with batchSize := num })
  | .flushBatchOps index => World.run index (flushBatchOps (fails index))
  | .fire => fun world =>
    match world.timer with
    | none => .returned world
    | some index => World.run index (flushBatchOps (fails index)) { world with timer := none }

/-- What an action asks one database to batch. -/
def Action.ops (index : ℕ) : Action → List Op
  | .batchPut other key val => if other = index then [.put key val] else []
  | .batchDel other key => if other = index then [.del key] else []
  | _ => []

/-- The operations whose arguments pass the sanitizers. -/
def accepted (schema : ℕ → Schema) (index : ℕ) (actions : List Action) : List Op :=
  (actions.flatMap (Action.ops index)).filter fun op => (op.record? v8 (schema index)).isSome

/-- Databases just opened. -/
def opened (stores : ℕ → Bytes → Option Bytes) (sizes : ℕ → JsNumber) : World where
  dbs := fun index => ⟨stores index, [], 0, sizes index, 0, []⟩
  timer := none

/-- A finite run of completed actions. -/
abbrev Run (schema : ℕ → Schema) := Runs (Prog.Steps (act v8 fails schema))

end NodeKv.Level
