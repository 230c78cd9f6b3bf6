import NodeKv.Machine.Runs
import NodeKv.Model.Lmdb.Batch
import NodeKv.Model.Lmdb.Native

/-! # Databases of an LMDB environment

`lib/lmdb/db.js` over the native binding. `batchPut` and `batchDel` sanitize their arguments and
push a closure; a flush calls the closures with its transaction object. Each closure passes its
arguments to the native method by position.
-/

namespace NodeKv.Lmdb

open Machine

variable {v8 : V8}

/-- A queued operation with what its closure has captured. -/
inductive BatchOp (v8 : V8) where
  | put (db : Db) (key : Datum v8 db.keyType) (val : Datum v8 db.valType)
  | del (db : Db) (key : Datum v8 db.keyType)

namespace BatchOp

/-- The write the operation stands for. -/
def entry : BatchOp v8 → Entry
  | put db key val => .put db key.bytes val.bytes
  | del db key => .del db key.bytes none

def isPut : BatchOp v8 → Bool
  | put _ _ _ => true
  | del _ _ => false

/-- The closure `exec`, called with the transaction of the flush. -/
def exec (returns : Returns) (txn : ℕ) : BatchOp v8 → Prog Error Native
  | put db key val => Result.statement (db.put returns v8 key.value val.value (.txn txn))
  -- The transaction is passed as the second argument, and the third one is missing.
  | del db key => Result.statement (db.del returns v8 key.value (.txn txn) .undefined)

/-- The same write made by `Db.prototype.put` or `Db.prototype.del`, without a transaction. -/
def direct (returns : Returns) : BatchOp v8 → Prog Error Native
  | put db key val => Result.statement (db.put returns v8 key.value val.value .undefined)
  | del db key =>
    match db.valType.sanitize v8 .undefined with
    | .error error => .threw error
    | .ok val => Result.statement (db.del returns v8 key.value val .undefined)

end BatchOp

/-- The `try` block of a flush, and the `abort` of its `catch`, whose own exception is swallowed. -/
def transaction (returns : Returns) (body : ℕ → Prog Error Native) (native : Native) :
    TxnResult × Native :=
  match txnCtor returns false native with
  | (.never, native) => (.stuck, native)
  | (.throws error, native) => (.notBegun error, native)
  | (.ok txn, native) =>
    match Prog.seq (body txn) (Result.statement (txnCommit returns txn)) native with
    | .returned native => (.committed, native)
    | .threw error native => (.failed error, (txnAbort txn native).2)
    | .diverged => (.stuck, native)

/-- This block around the closures of a queue. -/
def attemptWith (exec : ℕ → BatchOp v8 → Prog Error Native) (returns : Returns)
    (ops : List (BatchOp v8)) : Native → TxnResult × Native :=
  transaction returns fun txn => Prog.forEach (exec txn) ops

def attempt (returns : Returns) : List (BatchOp v8) → Native → TxnResult × Native :=
  attemptWith (BatchOp.exec returns) returns

/-- Flushes against native environments; each environment has return codes of its own. -/
def engine (v8 : V8) (returns : ℕ → Returns) : Engine Native (BatchOp v8) Unit :=
  fun _ env native ops =>
    let (result, native) := attempt (returns env) ops native
    ⟨result, native, ()⟩

/-- The environments of a process without `onfull` handlers. -/
abbrev Plain (v8 : V8) := World Native (BatchOp v8) Empty Unit

/-- Environments just opened. -/
def opened (stores : ℕ → Store) (sizes : ℕ → JsNumber) : Plain v8 where
  native := fun env => .opened (stores env)
  batchOps := fun _ => []
  batchSize := sizes
  onfull := fun _ => none
  timer := none
  host := ()

/-- `flushBatchOps` of an environment without a handler. -/
def flush (v8 : V8) (returns : ℕ → Returns) (env : ℕ) : Prog Error (Plain v8) :=
  flushBatchOps (engine v8 returns) (fun handler => nomatch handler) env

/-- What the users of environments do, and the timer. -/
inductive Action where
  | batchPut (env : ℕ) (db : Db) (key val : Value)
  | setBatchSize (env : ℕ) (num : JsNumber)
  | flushBatchOps (env : ℕ)
  | fire
deriving DecidableEq, Repr

section Queues

variable {η χ : Type*} (flush : ℕ → Prog Error (World Native (BatchOp v8) η χ))

/-- `Db.prototype.batchPut`. The key is sanitized before the value. -/
def batchPut (env : ℕ) (db : Db) (key val : Value) :
    Prog Error (World Native (BatchOp v8) η χ) :=
  match db.keyType.check v8 key, db.valType.check v8 val with
  | .error error, _ => .threw error
  | .ok _, .error error => .threw error
  | .ok key, .ok val => pushBatch flush env (.put db key val)

/-- `Db.prototype.batchDel`. -/
def batchDel (env : ℕ) (db : Db) (key : Value) : Prog Error (World Native (BatchOp v8) η χ) :=
  match db.keyType.check v8 key with
  | .error error => .threw error
  | .ok key => pushBatch flush env (.del db key)

def act : Action → Prog Error (World Native (BatchOp v8) η χ)
  | .batchPut env db key val => batchPut flush env db key val
  | .setBatchSize env num => setBatchSize flush env num
  | .flushBatchOps env => flush env
  | .fire => fire flush

end Queues

/-- The operation an action pushes on the queue of an environment. -/
def Action.accepted (v8 : V8) (env : ℕ) : Action → List (BatchOp v8)
  | .batchPut other db key val =>
    match db.keyType.check v8 key, db.valType.check v8 val with
    | .ok key, .ok val => if other = env then [.put db key val] else []
    | _, _ => []
  | _ => []

/-- A finite run of completed actions. -/
abbrev Run (v8 : V8) (returns : ℕ → Returns) := Runs (Prog.Steps (act (flush v8 returns)))

end NodeKv.Lmdb
