import NodeKv.Machine.Iterator
import NodeKv.Model.Decode
import NodeKv.Model.Lmdb.Session

/-! # Cursors of LMDB

`lib/lmdb/cursor.js` and `src/lmdb/cursor-lmdb.cpp`, with `exists` of a database, which asks a cursor
as well. A cursor ranges over the pairs of a key and a value that its transaction sees, in the order
of the keys and then of the duplicates. Looking for a pair needs `MDB_DUPSORT`. No key is empty, and
no duplicate that is looked for among several is.

A new cursor is on no pair, and a relative movement then goes to an end. What LMDB does with a cursor
that its last movement has left without a pair is left open, but for `first` and searches. The
deletion of the current pair and the step back among duplicates are not modelled.
-/

namespace NodeKv.Lmdb

open Machine

/-- The order of the pairs in a database. -/
def Db.comparePairs (db : Db) (left right : Bytes × Bytes) : Ordering :=
  (db.keyType.compare left.1 right.1).then (db.valType.compare left.2 right.2)

/-- What a transaction sees of a database. -/
structure Contents (db : Db) (store : Store) where
  pairs : List (Bytes × Bytes)
  mem_pairs : ∀ key val, (key, val) ∈ pairs ↔ val ∈ store db.dbi key
  ordered : pairs.Pairwise fun left right => db.comparePairs left right = .lt

namespace Cursor

/-- The `MDB_cursor_op`s that move a cursor, with what they look for. -/
inductive Movement where
  | first
  | last
  | next
  | prev
  | nextDup
  | set (key : Bytes)
  | setRange (key : Bytes)
  | getBoth (key val : Bytes)
  | getBothRange (key val : Bytes)
deriving DecidableEq, Repr

namespace Movement

/-- It looks for a pair. -/
def needsDups : Movement → Bool
  | getBoth _ _ => true
  | getBothRange _ _ => true
  | _ => false

/-- The key that it looks for. -/
def key? : Movement → Option Bytes
  | set key => some key
  | setRange key => some key
  | getBoth key _ => some key
  | getBothRange key _ => some key
  | _ => none

/-- The duplicate that it looks for. -/
def val? : Movement → Option Bytes
  | getBoth _ val => some val
  | getBothRange _ val => some val
  | _ => none

end Movement

/-- Where a cursor is. -/
inductive Place (size : ℕ) where
  | fresh
  | on (index : Fin size)
  /-- The last movement has found nothing. -/
  | lost
deriving DecidableEq, Repr

/-- What LMDB does with a lost cursor. -/
structure Stray (size : ℕ) where
  destination : Movement → Position size
  reply : Reply

/-- The values of the key are in a page of their own, and an empty one is looked for there. A key that
has only one value left may still have such a page; then LMDB fails for a reason of its own. -/
def refusesVal (db : Db) (store : Store) (movement : Movement) : Bool :=
  movement.val? = some [] && movement.key?.any fun key => 1 < (store db.dbi key).length

section Engine

variable {db : Db} {store : Store} (contents : Contents db store)
  (stray : Stray contents.pairs.length)

def destination (movement : Movement) (place : Place contents.pairs.length) :
    Position contents.pairs.length :=
  let key (index : Fin contents.pairs.length) := (contents.pairs.get index).1
  let val (index : Fin contents.pairs.length) := (contents.pairs.get index).2
  match movement, place with
  | .first, _ => .first _
  | .set target, _ => .seek fun index => db.keyType.compare (key index) target = .eq
  | .setRange target, _ => .seek fun index => (db.keyType.compare (key index) target).isGE
  | .getBoth target other, _ => .seek fun index =>
    db.keyType.compare (key index) target = .eq && db.valType.compare (val index) other = .eq
  | .getBothRange target other, _ => .seek fun index =>
    db.keyType.compare (key index) target = .eq && (db.valType.compare (val index) other).isGE
  | .last, .on _ => .last _
  | .next, .on index => .next index
  | .prev, .on index => .prev index
  | .nextDup, .on index =>
    (Position.next index).filter fun next => db.keyType.compare (key index) (key next) = .eq
  | .last, .fresh => .last _
  | .next, .fresh => .first _
  | .nextDup, .fresh => .first _
  | .prev, .fresh => .last _
  | movement, .lost => stray.destination movement

/-- `mdb_cursor_get`, when LMDB fails for reasons of its own or not. -/
def mdbCursorGet (fails : Option Rc) (movement : Movement) (place : Place contents.pairs.length) :
    Option Rc × Place contents.pairs.length :=
  match fails with
  | some rc => (some rc, .lost)
  | none =>
    if movement.needsDups && !db.allowDup then (some .incompatible, place)
    else if movement.key? = some [] then (some .badValsize, place)
    else if refusesVal db store movement then (some .badValsize, .lost)
    else
      match destination contents stray movement place with
      | some index => (none, .on index)
      | none => (some .notFound, .lost)

/-- `cursor::cursorOp`, `cursor::cursorKeyOp` and `cursor::cursorKeyValOp`, and the end of
`db::exists`. -/
def cursorOp (fails : Option Rc) (movement : Movement) (place : Place contents.pairs.length) :
    Result Bool × Place contents.pairs.length :=
  match mdbCursorGet contents stray fails movement place with
  | (none, place) => (.ok true, place)
  | (some rc, place) => (if rc = .notFound then .ok false else .throws (.mdb rc), place)

/-- `cursor::key`, with what lies in memory around the bytes. -/
def key (runtime : Runtime) (around : Memory) : Place contents.pairs.length → Reply
  | .fresh => .throws (.mdb .einval)
  | .on index =>
    let bytes := (contents.pairs.get index).1
    .ofDecoded (db.keyType.decode runtime (around.holding bytes) bytes.length)
  | .lost => stray.reply

variable (v8 : V8) (fails : Option Rc)

/-- `Cursor.prototype.seek` and `Cursor.prototype.gte`, with a movement for a key and one for a key
and a value. -/
def lookFor (byKey : Bytes → Movement) (byPair : Bytes → Bytes → Movement) (key : Value)
    (val : Option Value) (place : Place contents.pairs.length) :
    Result Bool × Place contents.pairs.length :=
  match db.keyType.check v8 key with
  | .error error => (.throws error, place)
  | .ok key =>
    match val with
    | none => cursorOp contents stray fails (byKey key.bytes) place
    | some val =>
      match db.valType.check v8 val with
      | .error error => (.throws error, place)
      | .ok val => cursorOp contents stray fails (byPair key.bytes val.bytes) place

/-- `Cursor.prototype.seek`. -/
def seek : Value → Option Value → Place contents.pairs.length →
    Result Bool × Place contents.pairs.length :=
  lookFor contents stray v8 fails .set .getBoth

/-- `Cursor.prototype.gte`. -/
def gte : Value → Option Value → Place contents.pairs.length →
    Result Bool × Place contents.pairs.length :=
  lookFor contents stray v8 fails .setRange .getBothRange

end Engine

/-- `Db.prototype.exists`, on what its transaction sees. -/
def dbExists {db : Db} {store : Store} (contents : Contents db store)
    (stray : Stray contents.pairs.length) (v8 : V8) (fails : Option Rc) (key val : Value) :
    Result Bool :=
  match db.keyType.check v8 key, db.valType.check v8 val with
  | .error error, _ => .throws error
  | .ok _, .error error => .throws error
  | .ok key, .ok val => (cursorOp contents stray fails (.getBoth key.bytes val.bytes) .fresh).1

end Cursor

end NodeKv.Lmdb
