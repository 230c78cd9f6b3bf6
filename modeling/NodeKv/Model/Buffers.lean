import NodeKv.Machine.Script
import NodeKv.Model.Level.Db
import NodeKv.Model.Lmdb.Db

/-! # Buffers as arguments

A Buffer is an object of the script, whose bytes the script may overwrite at any time. The sanitizers
that do not convert their argument return the object itself (`lib/sanitize.js`). So what `batchPut` of
`lib/lmdb/db.js` queues for a Buffer is a reference, and the constructors of `src/kv-types.cpp` look
at its bytes when a flush calls `exec`. `batchPut` of LevelDB and RocksDB calls the native `put` at
once, where `WriteBatch::Put` copies the bytes.
-/

namespace NodeKv

open Machine

/-- The bytes of the Buffers, by identity. -/
abbrev Buffers := ℕ → Bytes

/-- `buffer[index] = byte`. -/
structure ByteWrite where
  id : ℕ
  index : ℕ
  byte : UInt8
deriving DecidableEq, Repr

/-- An assignment behind the end of a Buffer does nothing. -/
def ByteWrite.apply (write : ByteWrite) (buffers : Buffers) : Buffers :=
  Function.update buffers write.id ((buffers write.id).set write.index write.byte)

/-- An argument of a call. -/
inductive Arg where
  | buffer (id : ℕ)
  | other (value : Value)
deriving DecidableEq, Repr

/-- The value of an argument for code that looks at it now. -/
def Arg.value (buffers : Buffers) : Arg → Value
  | buffer id => .buffer (buffers id)
  | other value => value

namespace DataType

/-- The object that a sanitizer returns for an argument, where it lets it through as a value. -/
def returned (type : DataType) (arg : Arg) (value : Value) : Arg :=
  match type with
  | int32 | uint32 => .other value
  | string | int64 | hex | binary => arg

variable {v8 : V8} {type : DataType} {buffers : Buffers} {arg : Arg} {value : Value}

theorem value_returned (accepted : type.sanitize v8 (arg.value buffers) = .ok value) :
    (type.returned arg value).value buffers = value := by
  cases type with
  | int32 => rfl
  | uint32 => rfl
  | string => exact Except.ok.inj accepted
  | int64 =>
    simp only [sanitize] at accepted
    split_ifs at accepted
    exact Except.ok.inj accepted
  | hex =>
    simp only [sanitize] at accepted
    split_ifs at accepted
    exact Except.ok.inj accepted
  | binary =>
    simp only [sanitize] at accepted
    split at accepted
    · next bytes same => exact same.trans (Except.ok.inj accepted)
    · exact nomatch accepted

/-- A Buffer stays a Buffer. -/
theorem encode_returned (accepted : type.sanitize v8 (arg.value buffers) = .ok value)
    (later : Buffers) : (type.encode v8 ((type.returned arg value).value later)).isSome := by
  cases type with
  | int32 => rfl
  | uint32 => rfl
  | string => rfl
  | int64 => rfl
  | hex => rfl
  | binary =>
    cases arg with
    | buffer id => rfl
    | other value =>
      cases value with
      | buffer bytes => rfl
      | undefined => exact nomatch accepted
      | number num => exact nomatch accepted
      | text chars => exact nomatch accepted
      | txn handle => exact nomatch accepted

end DataType

/-- An argument that a closure has captured, after the sanitizer. -/
structure Captured (v8 : V8) (type : DataType) where
  arg : Arg
  converts : ∀ buffers, (type.encode v8 (arg.value buffers)).isSome

/-- The bytes that its constructor finds. -/
def Captured.bytes {v8 : V8} {type : DataType} (captured : Captured v8 type) (buffers : Buffers) :
    Bytes :=
  (type.encode v8 (captured.arg.value buffers)).get (captured.converts buffers)

@[simp] theorem Captured.encode_value {v8 : V8} {type : DataType} (captured : Captured v8 type)
    (buffers : Buffers) :
    type.encode v8 (captured.arg.value buffers) = some (captured.bytes buffers) :=
  (Option.some_get _).symm

/-- Sanitize an argument. -/
def DataType.capture (v8 : V8) (type : DataType) (buffers : Buffers) (arg : Arg) :
    Except Error (Captured v8 type) :=
  match accepted : type.sanitize v8 (arg.value buffers) with
  | .error error => .error error
  | .ok value => .ok ⟨type.returned arg value, DataType.encode_returned accepted⟩

namespace Lmdb

/-- A queued put with what its closure has captured. -/
structure Put (v8 : V8) where
  db : Db
  key : Captured v8 db.keyType
  val : Captured v8 db.valType

namespace Put

variable {v8 : V8}

/-- The write that the operation stands for at a time. -/
def entry (buffers : Buffers) (put : Put v8) : Entry :=
  .put put.db (put.key.bytes buffers) (put.val.bytes buffers)

/-- The closure `exec`, called with the transaction of the flush. -/
def exec (returns : Returns) (buffers : Buffers) (txn : ℕ) (put : Put v8) : Prog Error Native :=
  Result.statement (put.db.put returns v8 (put.key.arg.value buffers) (put.val.arg.value buffers)
    (.txn txn))

end Put

namespace ByRef

/-- Environments without `onfull` handlers, and the Buffers of the process. -/
abbrev Shared (v8 : V8) := World Native (Put v8) Empty Buffers

/-- Flushes against native environments. The script does not run meanwhile. -/
def engine (v8 : V8) (returns : ℕ → Returns) : Engine Native (Put v8) Buffers :=
  fun buffers env native puts =>
    let (result, native) := transaction (returns env)
      (fun txn => Prog.forEach (Put.exec (returns env) buffers txn) puts) native
    ⟨result, native, buffers⟩

def flush (v8 : V8) (returns : ℕ → Returns) (env : ℕ) : Prog Error (Shared v8) :=
  flushBatchOps (engine v8 returns) (fun handler => nomatch handler) env

/-- What the users of environments do, and the timer. -/
inductive Action where
  | batchPut (env : ℕ) (db : Db) (key val : Arg)
  | setBatchSize (env : ℕ) (num : JsNumber)
  | flushBatchOps (env : ℕ)
  | fire
deriving DecidableEq, Repr

/-- The same call with copies of its Buffers. -/
def Action.copied (buffers : Buffers) : Action → Lmdb.Action
  | batchPut env db key val => .batchPut env db (key.value buffers) (val.value buffers)
  | setBatchSize env num => .setBatchSize env num
  | flushBatchOps env => .flushBatchOps env
  | fire => .fire

/-- The operation that a call pushes on the queue of an environment. -/
def Action.pushed (v8 : V8) (env : ℕ) (buffers : Buffers) : Action → List (Put v8)
  | batchPut other db key val =>
    match db.keyType.capture v8 buffers key, db.valType.capture v8 buffers val with
    | .ok key, .ok val => if other = env then [⟨db, key, val⟩] else []
    | _, _ => []
  | _ => []

variable {v8 : V8} (flush : ℕ → Prog Error (Shared v8))

/-- `Db.prototype.batchPut`. -/
def batchPut (env : ℕ) (db : Db) (key val : Arg) : Prog Error (Shared v8) := fun world =>
  match db.keyType.capture v8 world.host key, db.valType.capture v8 world.host val with
  | .error error, _ => .threw error world
  | .ok _, .error error => .threw error world
  | .ok key, .ok val => pushBatch flush env ⟨db, key, val⟩ world

def act : Script Action ByteWrite → Prog Error (Shared v8)
  | .call (.batchPut env db key val) => batchPut flush env db key val
  | .call (.setBatchSize env num) => setBatchSize flush env num
  | .call (.flushBatchOps env) => flush env
  | .call .fire => fire flush
  | .change write => Prog.update fun world => { world with host := write.apply world.host }

/-- Environments just opened. -/
def opened (buffers : Buffers) (stores : ℕ → Store) (sizes : ℕ → JsNumber) : Shared v8 where
  native := fun env => .opened (stores env)
  batchOps := fun _ => []
  batchSize := sizes
  onfull := fun _ => none
  timer := none
  host := buffers

/-- A finite run of completed actions. -/
abbrev Run (v8 : V8) (returns : ℕ → Returns) := Runs (Prog.Steps (act (ByRef.flush v8 returns)))

/-- The puts that a script has had accepted, each with the Buffers at its call. -/
def given (v8 : V8) (env : ℕ) (buffers : Buffers) (script : List (Script Action ByteWrite)) :
    List (Put v8 × Buffers) :=
  (Script.stamped ByteWrite.apply buffers script).flatMap fun made =>
    (made.1.pushed v8 env made.2).map (·, made.2)

end ByRef

end Lmdb

namespace Level.ByRef

inductive Action where
  | batchPut (index : ℕ) (key val : Arg)
  | batchDel (index : ℕ) (key : Arg)
  | setBatchSize (index : ℕ) (num : JsNumber)
  | flushBatchOps (index : ℕ)
  | fire
deriving DecidableEq, Repr

def Action.copied (buffers : Buffers) : Action → Level.Action
  | batchPut index key val => .batchPut index (key.value buffers) (val.value buffers)
  | batchDel index key => .batchDel index (key.value buffers)
  | setBatchSize index num => .setBatchSize index num
  | flushBatchOps index => .flushBatchOps index
  | fire => .fire

/-- The native methods read their arguments in the call. -/
def act (v8 : V8) (fails : ℕ → Fails) (schema : ℕ → Schema) :
    Script Action ByteWrite → Prog Error (World × Buffers)
  | .call call => fun state =>
    Prog.zoom Prod.fst (fun state world => (world, state.2))
      (Level.act v8 fails schema (call.copied state.2)) state
  | .change write => Prog.update fun state => (state.1, write.apply state.2)

end Level.ByRef

end NodeKv
