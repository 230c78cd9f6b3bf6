import Mathlib.Logic.Function.Basic
import NodeKv.Machine.Outcome
import NodeKv.Model.Types

/-! # The native LMDB binding

One environment as `src/lmdb` wraps it, used from one thread. LMDB itself is modelled by the
committed store, the writer mutex and the thread's reader slot; which of its calls fail, and how,
is the parameter `returns`, asked once for every call that may fail for reasons of its own.

Native methods take script values by position. A database method decides from the kind of its
last argument whether to run in the caller's transaction or in one of its own: a write begins and
commits a transaction, a read borrows the cached read-only one. Beginning a write transaction
while another one of the same thread is open never returns.

Keys are compared as stored bytes. `log` and `begun` only record what happened: the writes of
every committed transaction, and how many write transactions have been begun.
-/

namespace NodeKv.Lmdb

open Machine

/-- What the native side knows of an open database. -/
structure Db where
  dbi : ℕ
  keyType : DataType
  valType : DataType
  allowDup : Bool
deriving DecidableEq, Repr

/-- The values under each key of each database; more than one only under `MDB_DUPSORT`, sorted. -/
abbrev Store := ℕ → Bytes → List Bytes

/-- Insert a value into the sorted duplicates of a key, unless it is there already. An empty value
does not survive a second one: `mdb_cursor_put` moves the first into the new page of duplicates
`if (dkey.mv_size)`. Beside other values LMDB refuses an empty one; that code is among `returns`. -/
def insertDup (type : DataType) (val : Bytes) : List Bytes → List Bytes
  | [] => [val]
  | first :: rest =>
    match type.compare val first with
    | .lt => val :: first :: rest
    | .eq => first :: rest
    | .gt => if first = [] then insertDup type val rest else first :: insertDup type val rest

namespace Store

def set (store : Store) (db : Db) (key : Bytes) (vals : List Bytes) : Store :=
  Function.update store db.dbi (Function.update (store db.dbi) key vals)

/-- `mdb_put` without flags. -/
def put (store : Store) (db : Db) (key val : Bytes) : Store :=
  store.set db key (if db.allowDup then insertDup db.valType val (store db.dbi key) else [val])

/-- `mdb_del`: all values of the key, or under `MDB_DUPSORT` the given one; `none` is
`MDB_NOTFOUND`. -/
def del (store : Store) (db : Db) (key : Bytes) (val : Option Bytes) : Option Store :=
  let vals := store db.dbi key
  let kept :=
    match val with
    | some val => if db.allowDup then vals.filter (db.valType.compare val · ≠ .eq) else []
    | none => []
  if kept.length < vals.length then some (store.set db key kept) else none

end Store

/-- A write as LMDB performs it. -/
inductive Entry where
  | put (db : Db) (key val : Bytes)
  | del (db : Db) (key : Bytes) (val : Option Bytes)
deriving DecidableEq, Repr

namespace Entry

/-- The store after a write; `none` when there was nothing to delete. -/
def write (store : Store) : Entry → Option Store
  | put db key val => some (store.put db key val)
  | del db key val => store.del db key val

/-- The effect of a write. -/
def apply (store : Store) (entry : Entry) : Store := (entry.write store).getD store

end Entry

/-- A read-only transaction. -/
structure Reader where
  snapshot : Store
  /-- It holds the reader slot of the thread. -/
  slot : Bool
  /-- It has been reset: `mt_dbxs == NULL`. -/
  reset : Bool

/-- An `MDB_txn`; a write transaction is numbered and knows what was written in it. -/
inductive Txn where
  | reader (reader : Reader)
  | writer (number : ℕ) (view : Store) (entries : List Entry)

/-- A `Txn` object: whether it is read-only, and its `_txn` pointer. -/
structure Wrapper where
  readonly : Bool
  txn : Option Txn

structure Native where
  /-- The latest committed state. -/
  committed : Store
  /-- The writer mutex is held. -/
  locked : Bool
  /-- The reader slot of the thread is taken. -/
  slotTaken : Bool
  /-- `_read_lock`. -/
  readLock : Option Reader
  /-- The `Txn` objects created so far. -/
  txns : ℕ → Wrapper
  count : ℕ
  /-- Calls of LMDB that `returns` was asked about. -/
  calls : ℕ
  begun : ℕ
  log : List (List Entry)

/-- How a native method ends. -/
inductive Result (α : Type*) where
  | ok (val : α)
  | throws (error : Error)
  /-- The call blocks forever, or ends the process. -/
  | never
deriving DecidableEq, Repr

/-- The statement form of a native call, which drops its value. -/
def Result.statement {α : Type*} (call : Native → Result α × Native) : Prog Error Native :=
  fun native =>
    match call native with
    | (.ok _, native) => .returned native
    | (.throws error, native) => .threw error native
    | (.never, _) => .diverged

/-- The return codes of LMDB, call by call; `none` is success. -/
abbrev Returns := ℕ → Option Rc

/-- LMDB reports no error. -/
def silent : Returns := fun _ => none

namespace Native

def called (native : Native) : Native := { native with calls := native.calls + 1 }

def setTxn (handle : ℕ) (txn : Option Txn) (native : Native) : Native :=
  { native with
    txns := Function.update native.txns handle { native.txns handle with txn := txn } }

/-- A new `Txn` object. -/
def wrap (wrapper : Wrapper) (native : Native) : Native :=
  { native with
    txns := Function.update native.txns native.count wrapper
    count := native.count + 1 }

/-- An environment just opened over a store. -/
def opened (store : Store) : Native where
  committed := store
  locked := false
  slotTaken := false
  readLock := none
  txns := fun _ => ⟨false, none⟩
  count := 0
  calls := 0
  begun := 0
  log := []

end Native

section Calls

variable (returns : Returns)

/-- `mdb_txn_begin` for writing; `none` when the writer mutex is never released. -/
def beginWrite (native : Native) : Option (Except Rc Txn × Native) :=
  match returns native.calls with
  | some rc => some (.error rc, native.called)
  | none =>
    if native.locked then none
    else
      some (.ok (.writer native.begun native.committed []),
        { native.called with locked := true, begun := native.begun + 1 })

/-- `mdb_txn_begin` for reading. -/
def beginRead (native : Native) : Except Rc Reader × Native :=
  match returns native.calls with
  | some rc => (.error rc, native.called)
  | none =>
    if native.slotTaken then (.error .badRslot, native.called)
    else (.ok ⟨native.committed, true, false⟩, { native.called with slotTaken := true })

/-- `mdb_txn_renew`. Without the slot it fails, but after it has made the handle usable again on
the snapshot of its previous use. No slot protects that snapshot: it can be read from only as long
as no writer has reused its pages. -/
def mdbRenew (reader : Reader) (native : Native) : Option Rc × Reader × Native :=
  if reader.reset then
    match returns native.calls with
    | some rc => (some rc, reader, native.called)
    | none =>
      if native.slotTaken then (some .badRslot, { reader with reset := false }, native.called)
      else (none, ⟨native.committed, true, false⟩, { native.called with slotTaken := true })
  else (some .einval, reader, native)

/-- `mdb_txn_reset`. -/
def mdbReset (reader : Reader) (native : Native) : Reader × Native :=
  ({ reader with slot := false, reset := true },
    if reader.slot then { native with slotTaken := false } else native)

/-- `mdb_get`, with the first value of the key. `mdb_cursor_set` takes no empty key. -/
def mdbGet (db : Db) (key : Bytes) : Option Txn → Native → Except Rc Bytes × Native
  | none, native => (.error .einval, native)
  | some (.reader reader), native =>
    if reader.reset then (.error .einval, native)
    else found key (reader.snapshot db.dbi key) native
  | some (.writer _ view _), native => found key (view db.dbi key) native
where
  found (key : Bytes) (vals : List Bytes) (native : Native) : Except Rc Bytes × Native :=
    match returns native.calls with
    | some rc => (.error rc, native.called)
    | none =>
      if key = [] then (.error .badValsize, native.called)
      else
        match vals.head? with
        | some val => (.ok val, native.called)
        | none => (.error .notFound, native.called)

/-- `mdb_put` or `mdb_del` in a transaction. -/
def mdbWrite (entry : Entry) : Option Txn → Native → Option Rc × Option Txn × Native
  | none, native => (some .einval, none, native)
  | some (.reader reader), native =>
    (some (if reader.reset then .einval else .eacces), some (.reader reader), native)
  | some (.writer number view entries), native =>
    match returns native.calls with
    | some rc => (some rc, some (.writer number view entries), native.called)
    | none =>
      match entry.write view with
      | some view => (none, some (.writer number view (entries ++ [entry])), native.called)
      | none => (some .notFound, some (.writer number view (entries ++ [entry])), native.called)

/-- `mdb_txn_commit`; the transaction is gone whatever it returns. -/
def mdbCommit : Option Txn → Native → Option Rc × Native
  | none, native => (some .einval, native)
  | some (.reader reader), native =>
    (none, if reader.slot then { native with slotTaken := false } else native)
  | some (.writer _ view entries), native =>
    match returns native.calls with
    | some rc => (some rc, { native.called with locked := false })
    | none =>
      (none, { native.called with
        committed := view, locked := false, log := native.log ++ [entries] })

/-- `mdb_txn_abort`. -/
def mdbAbort : Option Txn → Native → Native
  | none, native => native
  | some (.reader reader), native =>
    if reader.slot then { native with slotTaken := false } else native
  | some (.writer _ _ _), native => { native with locked := false }

/-- `txn_scope` around a write: the caller's transaction, or one begun here and committed exactly
when the write succeeded. The codes of this begin and commit are not looked at. -/
def writeScope (arg : Value) (entry : Entry) (native : Native) : Option (Option Rc × Native) :=
  match arg with
  | .txn handle =>
    let (rc, txn, native) := mdbWrite returns entry (native.txns handle).txn native
    some (rc, native.setTxn handle txn)
  | .buffer _ => none
  | _ =>
    match beginWrite returns native with
    | none => none
    | some (.error _, native) =>
      let (rc, _, native) := mdbWrite returns entry none native
      some (rc, native)
    | some (.ok txn, native) =>
      let (rc, txn, native) := mdbWrite returns entry (some txn) native
      some (rc, if rc.isNone then (mdbCommit returns txn native).2 else mdbAbort txn native)

/-- `env::require_readlock`, which looks at no return code. -/
def requireReadlock (native : Native) : Native :=
  match native.readLock with
  | some reader =>
    let (_, reader, native) := mdbRenew returns reader native
    { native with readLock := some reader }
  | none =>
    match beginRead returns native with
    | (.ok reader, native) => { native with readLock := some reader }
    | (.error _, native) => native

/-- `env::release_readlock`. -/
def releaseReadlock (native : Native) : Native :=
  match native.readLock with
  | some reader =>
    let (reader, native) := mdbReset reader native
    { native with readLock := some reader }
  | none => native

variable (v8 : V8)

/-- `db::get`, up to the conversion of the bytes it found. -/
def Db.get (db : Db) (info0 info1 : Value) (native : Native) : Result (Option Bytes) × Native :=
  match db.keyType.encode v8 info0 with
  | none => (.never, native)
  | some key =>
    match info1 with
    | .txn handle =>
      let (answer, native) := mdbGet returns db key (native.txns handle).txn native
      (reply answer, native)
    | .buffer _ => (.never, native)
    | _ =>
      let native := requireReadlock returns native
      let (answer, native) := mdbGet returns db key (native.readLock.map .reader) native
      (reply answer, releaseReadlock native)
where
  reply : Except Rc Bytes → Result (Option Bytes)
    | .ok val => .ok (some val)
    | .error rc => if rc = .notFound then .ok none else .throws (.mdb rc)

/-- `db::put`. -/
def Db.put (db : Db) (info0 info1 info2 : Value) (native : Native) : Result Bool × Native :=
  match db.keyType.encode v8 info0, db.valType.encode v8 info1 with
  | some key, some val =>
    match writeScope returns info2 (.put db key val) native with
    | none => (.never, native)
    | some (none, native) => (.ok true, native)
    | some (some rc, native) => (.throws (.mdb rc), native)
  | _, _ => (.never, native)

/-- `db::del`. -/
def Db.del (db : Db) (info0 info1 info2 : Value) (native : Native) : Result Bool × Native :=
  match db.keyType.encode v8 info0, db.valType.encode v8 info1 with
  | some key, some val =>
    match writeScope returns info2 (.del db key (some val)) native with
    | none => (.never, native)
    | some (none, native) => (.ok true, native)
    | some (some rc, native) =>
      if rc = .notFound then (.ok false, native) else (.throws (.mdb rc), native)
  | _, _ => (.never, native)

/-- `txn::ctor`, with the handle of the new object. -/
def txnCtor (readonly : Bool) (native : Native) : Result ℕ × Native :=
  if readonly then
    match beginRead returns native with
    | (.error rc, native) => (.throws (.mdb rc), native)
    | (.ok reader, native) => (.ok native.count, native.wrap ⟨true, some (.reader reader)⟩)
  else
    match beginWrite returns native with
    | none => (.never, native)
    | some (.error rc, native) => (.throws (.mdb rc), native)
    | some (.ok txn, native) => (.ok native.count, native.wrap ⟨false, some txn⟩)

/-- `txn::commit`. -/
def txnCommit (handle : ℕ) (native : Native) : Result Unit × Native :=
  match (native.txns handle).txn with
  | none => (.throws .txnClosed, native)
  | some txn =>
    let (rc, native) := mdbCommit returns (some txn) native
    (match rc with
      | none => .ok ()
      | some rc => .throws (.mdb rc), native.setTxn handle none)

/-- `txn::abort`. -/
def txnAbort (handle : ℕ) (native : Native) : Result Unit × Native :=
  match (native.txns handle).txn with
  | none => (.throws .txnClosed, native)
  | some txn => (.ok (), (mdbAbort (some txn) native).setTxn handle none)

/-- `txn::reset`. -/
def txnReset (handle : ℕ) (native : Native) : Result Unit × Native :=
  match (native.txns handle).txn with
  | none => (.throws .txnClosed, native)
  | some (.writer _ _ _) => (.throws .notResettable, native)
  | some (.reader reader) =>
    let (reader, native) := mdbReset reader native
    (.ok (), native.setTxn handle (some (.reader reader)))

/-- `txn::renew`: a read-only transaction takes a new snapshot, a closed write transaction is
begun anew. -/
def txnRenew (handle : ℕ) (native : Native) : Result Unit × Native :=
  if (native.txns handle).readonly then
    match (native.txns handle).txn with
    | some (.reader reader) =>
      let (rc, reader, native) := mdbRenew returns reader native
      (match rc with
        | none => .ok ()
        | some rc => .throws (.mdb rc), native.setTxn handle (some (.reader reader)))
    | _ => (.throws .txnClosed, native)
  else if (native.txns handle).txn.isSome then (.throws .txnStillOpened, native)
  else
    match beginWrite returns native with
    | none => (.never, native)
    | some (.error rc, native) => (.throws (.mdb rc), native)
    | some (.ok txn, native) => (.ok (), native.setTxn handle (some txn))

end Calls

end NodeKv.Lmdb
