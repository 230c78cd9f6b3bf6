import NodeKv.Model.Lmdb.Session
import NodeKv.Proofs.Lmdb.Views

/-! # Looking for pairs

`db::exists` looks for a pair with a cursor. In the caller's transaction it opens one and closes it
again. Without one it borrows the read lock, like `db::get`, and keeps its cursor in `_cur`: the next
call moves it to the read lock with `mdb_cursor_renew`. The return codes of both are not looked at. So
if the read lock cannot be used, a cursor that is there already still shows pages of the snapshot that
it was opened on, which nobody protects any more: what is found there is not known. The same goes for a
reader whose renewal has failed. It can be used, but no slot keeps its snapshot from being overwritten.
-/

namespace NodeKv.Lmdb

open Machine

/-- What a cursor shows. -/
inductive Shown where
  /-- There is no cursor, as the transaction cannot be used. -/
  | nothing
  | state (store : Store)
  /-- Pages of a snapshot that no slot protects. -/
  | stray

/-- What a cursor of an `MDB_txn` shows. -/
def Txn.shown : Option Txn → Shown
  | none => .nothing
  | some (.reader txn) =>
    if txn.reset then .nothing else if txn.slot then .state txn.snapshot else .stray
  | some (.writer _ view _) => .state view

/-- There is a cursor. -/
def Shown.opened : Shown → Bool
  | nothing => false
  | _ => true

/-- An environment, with the databases that have a cursor in `_cur`. -/
structure Looking where
  native : Native
  cur : ℕ → Bool

/-- How a call of `exists` ends. -/
inductive Presence where
  | known (result : Result Bool)
  /-- A cursor was used on a snapshot that is not protected. -/
  | unknown
deriving DecidableEq, Repr

section Calls

variable (returns : Returns) (v8 : V8) (db : Db)

/-- `mdb_cursor_open`: what the new cursor shows. -/
def mdbCursorOpen (txn : Option Txn) (native : Native) : Shown × Native :=
  if (Txn.shown txn).opened then
    (if (returns native.calls).isNone then Txn.shown txn else .nothing, native.called)
  else (.nothing, native)

/-- Looking for a pair in a state. A key with several values has a page for them, in which LMDB looks
for no empty one. -/
def findPair (key val : Bytes) (store : Store) : Option Rc :=
  if !db.allowDup then some .incompatible
  else if key = [] then some .badValsize
  else if val = [] ∧ 1 < (store db.dbi key).length then some .badValsize
  else if (store db.dbi key).any fun found => db.valType.compare found val = .eq then none
  else some .notFound

/-- The reply to a code of LMDB. -/
def Presence.ofCode : Option Rc → Presence
  | none => known (.ok true)
  | some rc => known (if rc = .notFound then .ok false else .throws (.mdb rc))

/-- `mdb_cursor_get` with `MDB_GET_BOTH`, and the reply to its code. -/
def mdbGetBoth (key val : Bytes) (shown : Shown) (native : Native) : Presence × Native :=
  match shown with
  | .nothing => (.ofCode (some .einval), native)
  | .state store => (.ofCode ((returns native.calls).or (findPair db key val store)), native.called)
  | .stray => (.unknown, native.called)

/-- `db::exists`. -/
def Db.exists (info0 info1 info2 : Value) (state : Looking) : Presence × Looking :=
  match db.keyType.encode v8 info0, db.valType.encode v8 info1 with
  | some key, some val =>
    match info2 with
    | .txn handle =>
      let (shown, native) := mdbCursorOpen returns (state.native.txns handle).txn state.native
      let (found, native) := mdbGetBoth returns db key val shown native
      (found, { state with native := native })
    | .buffer _ => (.known .never, state)
    | _ =>
      let native := requireReadlock returns state.native
      let lock := native.readLock.map Txn.reader
      if state.cur db.dbi then
        -- `mdb_cursor_renew` fails exactly if the transaction cannot be used
        let shown := if (Txn.shown lock).opened then Txn.shown lock else .stray
        let (found, native) := mdbGetBoth returns db key val shown native
        (found, { state with native := releaseReadlock native })
      else
        let (shown, native) := mdbCursorOpen returns lock native
        let (found, native) := mdbGetBoth returns db key val shown native
        (found, ⟨releaseReadlock native, Function.update state.cur db.dbi shown.opened⟩)
  | _, _ => (.known .never, state)

/-- `Db.prototype.exists`. -/
def dbExists (key val : Value) (txn : Option ℕ) (state : Looking) : Presence × Looking :=
  match db.keyType.sanitize v8 key, db.valType.sanitize v8 val with
  | .error error, _ => (.known (.throws error), state)
  | .ok _, .error error => (.known (.throws error), state)
  | .ok key, .ok val => db.exists returns v8 key val (txnArg txn) state

end Calls

/-- A call of a session, or one of `exists`. -/
inductive Look where
  | session (call : Session)
  | exists (db : Db) (key val : Value) (txn : Option ℕ)
deriving DecidableEq, Repr

/-- A completed call, beside the record of what its caller is owed: `exists` changes nothing. -/
def Look.Tracked (v8 : V8) (state : Looking × Versions Store) (look : Look)
    (next : Looking × Versions Store) : Prop :=
  match look with
  | session call =>
    Session.Tracked v8 (state.1.native, state.2) call (next.1.native, next.2) ∧
      next.1.cur = state.1.cur
  | .exists db key val txn =>
    (∀ handle, txn = some handle → handle < state.1.native.count) ∧
      (dbExists silent v8 db key val txn state.1).1 ≠ .known .never ∧
      next = ((dbExists silent v8 db key val txn state.1).2, state.2)

end NodeKv.Lmdb
