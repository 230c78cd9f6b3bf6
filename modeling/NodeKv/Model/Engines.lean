import NodeKv.Model.Cache.Get
import NodeKv.Model.Level.Cursor
import NodeKv.Model.Level.Session
import NodeKv.Model.Lmdb.Db
import NodeKv.Model.Lmdb.Deleting

/-! # One script on two engines

The calls that databases of LMDB and of LevelDB have in common, on any number of databases. On LMDB
every database is the only one of an environment, because a batch queue belongs to an environment
there and to a database on LevelDB. Neither engine reports errors of its own here.

The calls of a LevelDB cursor are calls of an LMDB cursor as well, which is asked here in a database
without duplicates.
-/

namespace NodeKv

open Machine

/-- A read as a statement, which drops what it was given. -/
def Reply.statement {σ : Type*} : Reply → Prog Error σ
  | throws error => .threw error
  | never => fun _ => .diverged
  | _ => .returned

namespace Engines

/-- A call of the script, or the timer. -/
inductive Call where
  | put (index : ℕ) (key val : Value)
  | del (index : ℕ) (key : Value)
  | get (index : ℕ) (key : Value)
  | batchPut (index : ℕ) (key val : Value)
  | flushBatchOps (index : ℕ)
  | fire
deriving DecidableEq, Repr

section

variable (runtime : Runtime) (around : Memory) (dbs : ℕ → Lmdb.Db)

/-- A method of a database in its environment. -/
def lmdbMethod (index : ℕ) : Prog Error Lmdb.Native → Prog Error (Lmdb.Plain runtime.toV8) :=
  Prog.zoom (·.native index) fun world native =>
    { world with native := Function.update world.native index native }

def lmdbFlush (index : ℕ) : Prog Error (Lmdb.Plain runtime.toV8) :=
  Lmdb.flush runtime.toV8 (fun _ => Lmdb.silent) index

def Call.onLmdb : Call → Prog Error (Lmdb.Plain runtime.toV8)
  | put index key val => lmdbMethod runtime index
    (Lmdb.Result.statement (Lmdb.dbPut Lmdb.silent runtime.toV8 (dbs index) key val none))
  | del index key => lmdbMethod runtime index
    (Lmdb.Result.statement (Lmdb.dbDel Lmdb.silent runtime.toV8 (dbs index) key none .undefined))
  | get index key => lmdbMethod runtime index fun native =>
    let (reply, native) := Cache.Read.lmdbGet Lmdb.silent runtime around (dbs index) key native
    reply.statement native
  | batchPut index key val => Lmdb.batchPut (lmdbFlush runtime) index (dbs index) key val
  | flushBatchOps index => lmdbFlush runtime index
  | fire => Lmdb.fire (lmdbFlush runtime)

/-- The same types on LevelDB. -/
def schema (index : ℕ) : Level.Schema := ⟨(dbs index).keyType, (dbs index).valType⟩

/-- LevelDB reports no error. -/
def levelAct : Level.Action → Prog Error Level.World :=
  Level.act runtime.toV8 (fun _ _ => none) (schema dbs)

def levelMethod (index : ℕ) (op : Level.Op) : Prog Error Level.World :=
  Level.World.run index (op.perform runtime.toV8 (fun _ => none) (schema dbs index) .database)

def Call.onLevel : Call → Prog Error Level.World
  | put index key val => levelMethod runtime dbs index (.put key val)
  | del index key => levelMethod runtime dbs index (.del key)
  | get index key => fun world =>
    (Level.get runtime (schema dbs index) around key (world.dbs index)).statement world
  | batchPut index key val => levelAct runtime dbs (.batchPut index key val)
  | flushBatchOps index => levelAct runtime dbs (.flushBatchOps index)
  | fire => levelAct runtime dbs .fire

end

section Cursors

open Lmdb

variable (runtime : Runtime) (around : Memory) (schema : Level.Schema) {σ : Type*}

/-- What a script gets for the answer of an LMDB cursor, with the part of the pair that it has asked
for. There is nothing for an answer that is not known. -/
def answered (part : Level.Part) : Deleting.Answer Deleting.Reply → Option Level.Answer
  | .ok (.found found) => some (.flag found)
  | .ok (.pair (some pair)) =>
    let bytes := part.of pair
    some (.reply (.ofDecoded ((part.type schema).decode runtime (around.holding bytes) bytes.length)))
  | .ok (.pair none) => some (.reply .null)
  | .ok .done => none
  | .throws error => some (.reply (.throws error))
  | .unknown => none

/-- A method of `lib/lmdb/cursor.js` that is one of `lib/leveldb/cursor.js` too. -/
def lmdbCursor (step : σ → Deleting.Call → Deleting.Answer Deleting.Reply × σ) (call : Level.Call)
    (state : σ) : Option Level.Answer × σ :=
  let ask (part : Level.Part) (call : Deleting.Call) :=
    Prod.map (answered runtime around schema part) id (step state call)
  match call with
  | .first => ask .key (.move .first)
  | .last => ask .key (.move .last)
  | .next => ask .key (.move .next)
  | .prev => ask .key (.move .prev)
  | .gte key =>
    match schema.keyType.sanitize runtime.toV8 key with
    | .error error => (some (.reply (.throws error)), state)
    | .ok key =>
      match schema.keyType.encode runtime.toV8 key with
      | none => (some (.reply .never), state)
      | some target => ask .key (.move (.setRange target))
  | .key => ask .key .read
  | .val => ask .value .read

/-- A call on an LMDB cursor with its answer. -/
def LmdbCursorStep (step : σ → Deleting.Call → Deleting.Answer Deleting.Reply × σ) (state : σ)
    (label : Level.Call × Level.Answer) (next : σ) : Prop :=
  lmdbCursor runtime around schema step label.1 state = (some label.2, next)

end Cursors

end Engines

end NodeKv
