import NodeKv.Model.Level.Session
import NodeKv.Model.Rocks.Families

/-! # Databases of a RocksDB environment before and after it is opened

A script database can be used as soon as it is registered, but its native object has neither a
database nor a column family before `open` has called `init` on it. Calls that go to the database
itself dereference `NULL` then, and end the process. Calls that add to a batch do not: `WriteBatch`
takes a `NULL` handle for the default family (`GetColumnFamilyID`), and what it has recorded keeps
its family when the batch is written later.

All databases share the contents of the one native database. The script side of a database is that
of LevelDB (`lib/rocksdb/db.js`, `lib/rocksdb/batch.js`).
-/

namespace NodeKv.Rocks

open Machine
open Level (Fails Op Record Schema Target Turn)

/-- A record of a native batch, with the name of the family it is for. -/
structure Entry where
  family : Bytes
  record : Record
deriving DecidableEq, Repr

def applyEntries (contents : Contents) (entries : List Entry) : Contents :=
  entries.foldl (fun contents entry =>
    Function.update contents entry.family (entry.record.apply (contents entry.family))) contents

/-- The family that `_cf` stands for in a batch. -/
def Db.target (db : Db) : Bytes := (db.cf.map Family.name).getD defaultName

/-- What a call through a database works on: the shared contents, and one of its batches. -/
structure Share where
  contents : Contents
  /-- Records of the native batch. -/
  entries : List Entry
  /-- `_cnt`. -/
  cnt : ℕ
  /-- `_batchSize` of the database. -/
  batchSize : JsNumber
  /-- Number of native writes attempted through the database. -/
  calls : ℕ

section Share

variable (v8 : V8) (fails : Fails) (db : Db)

/-- `DB::Write` through `_db`, which `init` sets together with `_cf`. -/
def writeEntries (entries : List Entry) : Prog Error Share := fun share =>
  match db.cf with
  | none => .diverged
  | some _ =>
    let called := { share with calls := share.calls + 1 }
    match fails share.calls with
    | some text => .threw (.status text) called
    | none => .returned { called with contents := applyEntries share.contents entries }

/-- Add a record to the batch, or write it at once. -/
def writeRecord (target : Target) (record : Record) : Prog Error Share :=
  match target with
  | .batch => Prog.update fun share => { share with entries := share.entries ++ [⟨db.target, record⟩] }
  | .database => writeEntries fails db [⟨db.target, record⟩]

/-- `db::put`. -/
def nativePut (info0 info1 : Value) (target : Target) : Prog Error Share :=
  match db.schema.keyType.encode v8 info0, db.schema.valType.encode v8 info1 with
  | some key, some val => writeRecord fails db target (.put key val)
  | _, _ => fun _ => .diverged

/-- `db::del`. -/
def nativeDel (info0 : Value) (target : Target) : Prog Error Share :=
  match db.schema.keyType.encode v8 info0 with
  | some key => writeRecord fails db target (.del key)
  | none => fun _ => .diverged

/-- `Db.prototype.put`. -/
def put (key val : Value) (target : Target) : Prog Error Share :=
  match db.schema.keyType.sanitize v8 key, db.schema.valType.sanitize v8 val with
  | .error error, _ => .threw error
  | .ok _, .error error => .threw error
  | .ok key, .ok val => nativePut v8 fails db key val target

/-- `Db.prototype.del`. -/
def del (key : Value) (target : Target) : Prog Error Share :=
  match db.schema.keyType.sanitize v8 key with
  | .error error => .threw error
  | .ok key => nativeDel v8 fails db key target

def perform (target : Target) : Op → Prog Error Share
  | .put key val => put v8 fails db key val target
  | .del key => del v8 fails db key target

/-- `Batch.prototype.put` and `Batch.prototype.del`. -/
def batchRecord (op : Op) : Prog Error Share :=
  Prog.seq (perform v8 fails db .batch op) (Prog.update fun share => { share with cnt := share.cnt + 1 })

/-- `Batch.prototype.clear`. -/
def batchClear : Prog Error Share := Prog.update fun share => { share with entries := [], cnt := 0 }

/-- `Batch.prototype.write`, alias `flush`, and `Db.prototype.flushBatchOps`. -/
def batchWrite : Prog Error Share := fun share =>
  if 0 < share.cnt then Prog.seq (writeEntries fails db share.entries) batchClear share
  else .returned share

end Share

/-- `Db.prototype.get`, with what lies in memory around the value. -/
def get (runtime : Runtime) (db : Db) (around : Memory) (key : Value) (contents : Contents) : Reply :=
  match db.schema.keyType.sanitize runtime.toV8 key with
  | .error error => .throws error
  | .ok info0 =>
    match db.schema.keyType.encode runtime.toV8 info0, db.cf with
    | some key, some family =>
      let (status, val) := Level.engineGet (contents family.name) key
      let returned := if status.isNotFound then Reply.null else .value .undefined
      if status.ok then
        .ofDecoded (db.schema.valType.decode runtime (around.holding val) val.length)
      else Level.throwing (.status status.text) returned
    | _, _ => .never

structure Batch where
  entries : List Entry
  cnt : ℕ
deriving DecidableEq, Repr

/-- An environment with its databases, numbered in the order of registration. -/
structure Life where
  env : Env
  /-- `_db` of the native environment is not `NULL`. -/
  opened : Bool
  contents : Contents
  /-- The batches of each database: its own, and the numbered ones of `createBatch`. -/
  batches : ℕ → Option ℕ → Batch
  /-- `_batchSize`, from the registration on. -/
  sizes : ℕ → JsNumber
  calls : ℕ → ℕ
  /-- The database whose `_autoFlush` was called last. -/
  timer : Option ℕ

namespace Life

/-- A new environment over some contents, with the batch sizes that databases will ask for. -/
def start (contents : Contents) (sizes : ℕ → JsNumber) : Life where
  env := Env.new
  opened := false
  contents := contents
  batches := fun _ _ => ⟨[], 0⟩
  sizes := sizes
  calls := fun _ => 0
  timer := none

def share (index : ℕ) (batch : Option ℕ) (life : Life) : Share where
  contents := life.contents
  entries := (life.batches index batch).entries
  cnt := (life.batches index batch).cnt
  batchSize := life.sizes index
  calls := life.calls index

def putBack (index : ℕ) (batch : Option ℕ) (life : Life) (share : Share) : Life :=
  { life with
    contents := share.contents
    batches :=
      Function.update life.batches index
        (Function.update (life.batches index) batch ⟨share.entries, share.cnt⟩)
    sizes := Function.update life.sizes index share.batchSize
    calls := Function.update life.calls index share.calls }

/-- Run a program on one database with one of its batches. -/
def run (index : ℕ) (batch : Option ℕ) : Prog Error Share → Prog Error Life :=
  Prog.zoom (share index batch) (putBack index batch)

/-- Call a method of a database object; there is none before the object is made. -/
def through (index : ℕ) (method : Db → Prog Error Life) : Prog Error Life := fun life =>
  match life.env.dbs[index]? with
  | some db => method db life
  | none => .returned life

end Life

section Life

variable (v8 : V8) (fails : ℕ → Fails) (lockText : String)

/-- `Env.prototype.open`. `DB::Open` fails with a text of its own while the environment holds the lock
of the directory itself. -/
def Life.openEnv (failed : Option String) : Prog Error Life := fun life =>
  let failed := failed.or (if life.opened then some lockText else none)
  Prog.seq (Prog.zoom Life.env (fun life env => { life with env := env }) (Rocks.openEnv failed))
    (Prog.update fun life => { life with opened := true }) life

/-- The environment stays as it is, unless for its handles, or it has been opened for the first time. -/
theorem Life.openEnv_cases (failed : Option String) (life : Life) :
    ((failed ≠ none ∨ life.opened = true) ∧ ∃ text, Life.openEnv lockText failed life =
      .threw (.status text) { life with env := { life.env with handles := [] } }) ∨
    (failed = none ∧ life.opened = false ∧ Life.openEnv lockText failed life = .returned { life with
      opened := true
      env := { life.env with
        handles := openFamilies life.env.desc
        dbs := life.env.dbs.map (Db.init (openFamilies life.env.desc)) } }) := by
  cases failed with
  | some text => exact .inl ⟨.inl (Option.some_ne_none text), text, rfl⟩
  | none =>
    by_cases opened : life.opened = true
    · exact .inl ⟨.inr opened, lockText, by simp only [openEnv, if_pos opened]; rfl⟩
    · exact .inr ⟨rfl, Bool.eq_false_iff.mpr opened, by simp only [openEnv, if_neg opened]; rfl⟩

/-- `Db.prototype._autoFlush`. -/
def autoFlush (index : ℕ) : Prog Error Life := Prog.update fun life => { life with timer := some index }

/-- `Db.prototype.batchPut` and `Db.prototype.batchDel`. -/
def batchOp (index : ℕ) (op : Op) (db : Db) : Prog Error Life :=
  Prog.seq (Life.run index none (batchRecord v8 (fails index) db op)) fun life =>
    if (life.sizes index).reached (life.batches index none).cnt then
      Life.run index none (batchWrite (fails index) db) life
    else autoFlush index life

def act : Level.Action → Prog Error Life
  | .batchPut index key val => Life.through index (batchOp v8 fails index (.put key val))
  | .batchDel index key => Life.through index (batchOp v8 fails index (.del key))
  | .setBatchSize index num =>
    Life.through index fun _ =>
      Life.run index none (Prog.update fun share => { share with batchSize := num })
  | .flushBatchOps index =>
    Life.through index fun db => Life.run index none (batchWrite (fails index) db)
  | .fire => fun life =>
    match life.timer with
    | none => .returned life
    | some index =>
      Life.through index (fun db => Life.run index none (batchWrite (fails index) db))
        { life with timer := none }

/-- A call on a database or a batch of it, or the timer. -/
def turn : Turn → Prog Error Life
  | .direct index op =>
    Life.through index fun db => Life.run index none (perform v8 (fails index) db .database op)
  | .batched action => act v8 fails action
  | .batchRecord index number op =>
    Life.through index fun db => Life.run index (some number) (batchRecord v8 (fails index) db op)
  | .batchWrite index number =>
    Life.through index fun db => Life.run index (some number) (batchWrite (fails index) db)
  | .batchClear index number => Life.through index fun _ => Life.run index (some number) batchClear

/-- What the users of an environment do. -/
inductive Call where
  | registerDb (opt : DbOptions)
  | openEnv (failed : Option String)
  | turn (turn : Turn)
deriving DecidableEq

def Call.perform : Call → Prog Error Life
  | .registerDb opt =>
    Prog.zoom Life.env (fun life env => { life with env := env }) (Rocks.registerDb opt)
  | .openEnv failed => Life.openEnv lockText failed
  | .turn inner => Rocks.turn v8 fails inner

end Life

end NodeKv.Rocks
