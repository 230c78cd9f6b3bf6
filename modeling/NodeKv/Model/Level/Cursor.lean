import NodeKv.Machine.Iterator
import NodeKv.Model.Decode
import NodeKv.Model.Level.Db

/-! # Cursors

A cursor of `src/leveldb/cursor-lvl.cpp` wraps an iterator of the engine. The iterator ranges over
the entries that the store had when it was made, in the order of the keys. The engines allow
`Next`, `Prev`, `key` and `value` only while `Valid` is true. What an iterator does if they are
called at other times is left open: it may end up on any entry or none, and return any bytes. The
cursors of `src/rocksdb/cursor-rocks.cpp` are the same, with the iterator of one column family.
-/

namespace NodeKv.Level

open Machine

/-- The entries of a store in the order of the keys. -/
structure Snapshot (type : DataType) (store : Bytes → Option Bytes) where
  entries : List (Bytes × Bytes)
  mem_entries : ∀ key val, (key, val) ∈ entries ↔ store key = some val
  ordered : entries.Pairwise fun left right => type.compare left.1 right.1 = .lt

/-- The methods that move an iterator. -/
inductive Movement where
  | seekToFirst
  | seekToLast
  | seek (target : Bytes)
  | next
  | prev
deriving DecidableEq, Repr

/-- The methods that read where an iterator is. -/
inductive Part where
  | key
  | value
deriving DecidableEq, Repr

namespace Part

def of : Part → Bytes × Bytes → Bytes
  | key => Prod.fst
  | value => Prod.snd

def type (schema : Schema) : Part → DataType
  | key => schema.keyType
  | value => schema.valType

end Part

inductive Method where
  | move (movement : Movement)
  | read (part : Part)
deriving DecidableEq, Repr

/-- The engines require `Valid`. -/
def Method.needsValid : Method → Bool
  | move .next => true
  | move .prev => true
  | read _ => true
  | _ => false

structure Iterator (size : ℕ) where
  position : Position size
  /-- The calls so far, each with what `Valid` was at the time. -/
  calls : List (Method × Bool)
deriving DecidableEq, Repr

/-- What an iterator does if it is called when it must not be, unless it crashes; by the number of
calls before. -/
structure Stray (size : ℕ) where
  position : ℕ → Position size
  slice : ℕ → Bytes

namespace Iterator

/-- A new iterator is on no entry. -/
def opened (size : ℕ) : Iterator size := ⟨none, []⟩

/-- `Valid`. -/
def valid {size : ℕ} (iterator : Iterator size) : Bool := iterator.position.isSome

section Engine

variable {type : DataType} {store : Bytes → Option Bytes} (snapshot : Snapshot type store)
  (stray : Stray snapshot.entries.length)

def destination (movement : Movement) (iterator : Iterator snapshot.entries.length) :
    Position snapshot.entries.length :=
  match movement, iterator.position with
  | .seekToFirst, _ => .first _
  | .seekToLast, _ => .last _
  | .seek target, _ => .seek fun index => (type.compare (snapshot.entries.get index).1 target).isGE
  | .next, some index => .next index
  | .prev, some index => .prev index
  | .next, none => stray.position iterator.calls.length
  | .prev, none => stray.position iterator.calls.length

def move (movement : Movement) (iterator : Iterator snapshot.entries.length) :
    Iterator snapshot.entries.length where
  position := iterator.destination snapshot stray movement
  calls := iterator.calls ++ [(.move movement, iterator.valid)]

/-- `key` and `value`. -/
def slice (part : Part) (iterator : Iterator snapshot.entries.length) :
    Bytes × Iterator snapshot.entries.length :=
  let bytes := match iterator.position with
    | some index => part.of (snapshot.entries.get index)
    | none => stray.slice iterator.calls.length
  (bytes, { iterator with calls := iterator.calls ++ [(.read part, iterator.valid)] })

end Engine

end Iterator

/-- What a method of a cursor returns. -/
inductive Answer where
  | flag (found : Bool)
  | reply (reply : Reply)
deriving DecidableEq, Repr

/-- A call of the script on a cursor. -/
inductive Call where
  | first
  | last
  | next
  | prev
  | gte (key : Value)
  | key
  | val
deriving DecidableEq, Repr

section Cursor

variable (runtime : Runtime) {schema : Schema} {store : Bytes → Option Bytes}
  (snapshot : Snapshot schema.keyType store) (stray : Stray snapshot.entries.length)
  (around : Memory)

/-- `cursor::cursorOp`, and the end of `cursor::gte`. -/
def cursorOp (movement : Movement) (iterator : Iterator snapshot.entries.length) :
    Bool × Iterator snapshot.entries.length :=
  let iterator := iterator.move snapshot stray movement
  (iterator.valid, iterator)

/-- Set the return value of a native method again. -/
def setOver (_returned reply : Reply) : Reply := reply

/-- `cursor::key` and `cursor::value`, with what lies in memory around the bytes. They do not return
when they have set null. -/
def cursorRead (part : Part) (iterator : Iterator snapshot.entries.length) :
    Reply × Iterator snapshot.entries.length :=
  let returned := if iterator.valid then Reply.value .undefined else .null
  let (bytes, iterator) := iterator.slice snapshot stray part
  let converted := (part.type schema).decode runtime (around.holding bytes) bytes.length
  (setOver returned (.ofDecoded converted), iterator)

/-- `Cursor.prototype.gte`. -/
def gte (key : Value) (iterator : Iterator snapshot.entries.length) :
    Answer × Iterator snapshot.entries.length :=
  match schema.keyType.sanitize runtime.toV8 key with
  | .error error => (.reply (.throws error), iterator)
  | .ok key =>
    match schema.keyType.encode runtime.toV8 key with
    | none => (.reply .never, iterator)
    | some target => Prod.map Answer.flag id (cursorOp snapshot stray (.seek target) iterator)

/-- A method of `lib/leveldb/cursor.js`. -/
def perform (call : Call) (iterator : Iterator snapshot.entries.length) :
    Answer × Iterator snapshot.entries.length :=
  match call with
  | .first => Prod.map Answer.flag id (cursorOp snapshot stray .seekToFirst iterator)
  | .last => Prod.map Answer.flag id (cursorOp snapshot stray .seekToLast iterator)
  | .next => Prod.map Answer.flag id (cursorOp snapshot stray .next iterator)
  | .prev => Prod.map Answer.flag id (cursorOp snapshot stray .prev iterator)
  | .gte key => gte runtime snapshot stray key iterator
  | .key => Prod.map Answer.reply id (cursorRead runtime snapshot stray around .key iterator)
  | .val => Prod.map Answer.reply id (cursorRead runtime snapshot stray around .value iterator)

/-- A call with its answer. -/
def CursorStep (iterator : Iterator snapshot.entries.length) (label : Call × Answer)
    (next : Iterator snapshot.entries.length) : Prop :=
  perform runtime snapshot stray around label.1 iterator = (label.2, next)

end Cursor

end NodeKv.Level
