import NodeKv.Model.Decode
import NodeKv.Model.Level.Db

/-! # Reads, direct writes and further batches

Besides the batch of its own, which `batchPut` and `batchDel` fill, a database takes direct writes
and any number of batches made by `createBatch`. A batch goes through the same native calls as the
database's own, with its own records and counter, so its methods are those of `Level.Db` with the
batch put in the place of the database's.

`Get` of the engines answers with a status. The code asks it two things one after the other:
whether the key was not found, and whether the status is good.
-/

namespace NodeKv.Level

open Machine

/-- A status, as far as the code looks at it. -/
structure Status where
  ok : Bool
  isNotFound : Bool
  /-- `ToString`. -/
  text : String
deriving DecidableEq, Repr

namespace Status

def success : Status := ⟨true, false, "OK"⟩

/-- The engines give a missing key an empty message. -/
def notFound : Status := ⟨false, true, "NotFound: "⟩

end Status

/-- `Get` of the engine. -/
def engineGet (store : Bytes → Option Bytes) (key : Bytes) : Status × Bytes :=
  match store key with
  | some val => (.success, val)
  | none => (.notFound, [])

section Get

variable (runtime : Runtime)

/-- Throw from a native method; what it has set as its return value is lost. -/
def throwing (error : Error) (_returned : Reply) : Reply := .throws error

/-- `db::get`, with what lies in memory around the value it is given. -/
def nativeGet (schema : Schema) (around : Memory) (info0 : Value) (db : Db) : Reply :=
  match schema.keyType.encode runtime.toV8 info0 with
  | none => .never
  | some key =>
    let (status, val) := engineGet db.store key
    let returned := if status.isNotFound then Reply.null else .value .undefined
    if status.ok then .ofDecoded (schema.valType.decode runtime (around.holding val) val.length)
    else throwing (.status status.text) returned

/-- `Db.prototype.get`. -/
def get (schema : Schema) (around : Memory) (key : Value) (db : Db) : Reply :=
  match schema.keyType.sanitize runtime.toV8 key with
  | .error error => .throws error
  | .ok key => nativeGet runtime schema around key db

end Get

/-- A batch made by `createBatch`. -/
structure Batch where
  records : List Record
  /-- `_cnt`. -/
  cnt : ℕ

/-- The databases of an engine, and the numbered batches made for each. -/
structure Session where
  world : World
  batches : ℕ → ℕ → Batch

namespace Session

/-- The database with one of its further batches in the place of its own. -/
def through (index number : ℕ) (session : Session) : Db :=
  { session.world.dbs index with
    records := (session.batches index number).records
    cnt := (session.batches index number).cnt }

def putBack (index number : ℕ) (session : Session) (db : Db) : Session where
  world :=
    let own := session.world.dbs index
    { session.world with
      dbs := Function.update session.world.dbs index { db with records := own.records, cnt := own.cnt } }
  batches :=
    Function.update session.batches index
      (Function.update (session.batches index) number ⟨db.records, db.cnt⟩)

/-- Run a program on a database with one of its further batches. -/
def runBatch (index number : ℕ) : Prog Error Db → Prog Error Session :=
  Prog.zoom (through index number) (putBack index number)

/-- Run a program on the databases. -/
def run : Prog Error World → Prog Error Session :=
  Prog.zoom world fun session world => { session with world := world }

end Session

/-- A call of the script, or the timer. -/
inductive Turn where
  /-- `put` or `del` without a batch. -/
  | direct (index : ℕ) (op : Op)
  | batched (action : Action)
  /-- `put` or `del` of a further batch. -/
  | batchRecord (index number : ℕ) (op : Op)
  /-- `write` of a further batch. -/
  | batchWrite (index number : ℕ)
  | batchClear (index number : ℕ)
deriving DecidableEq, Repr

def turn (v8 : V8) (fails : ℕ → Fails) (schema : ℕ → Schema) : Turn → Prog Error Session
  | .direct index op =>
    Session.run (World.run index (op.perform v8 (fails index) (schema index) .database))
  | .batched action => Session.run (act v8 fails schema action)
  | .batchRecord index number op =>
    Session.runBatch index number (batchRecord v8 (fails index) (schema index) op)
  | .batchWrite index number => Session.runBatch index number (flushBatchOps (fails index))
  | .batchClear index number => Session.runBatch index number batchClear

/-- Databases just opened, with no batches made. -/
def Session.start (stores : ℕ → Bytes → Option Bytes) (sizes : ℕ → JsNumber) : Session where
  world := opened stores sizes
  batches := fun _ _ => ⟨[], 0⟩

end NodeKv.Level
