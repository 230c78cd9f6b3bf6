import NodeKv.Machine.Heap
import NodeKv.Machine.Runs
import NodeKv.Model.Lmdb.Native

/-! # Transaction and cursor handles

The `Txn` and `Cursor` objects of one open environment, seen as owners of raw `MDB_txn` and
`MDB_cursor` pointers. Here LMDB is what it does to these pointers: a commit or an abort frees the
transaction, and the end of a write transaction frees its cursors as well, while those of a
read-only transaction stay until they are closed. Its return codes are arbitrary. Every pointer
that is passed to LMDB is recorded together with whether it was live; what LMDB would do with a
dangling one is of no concern after that.

A script reaches an object until the garbage collector finalizes it, which it may do at any time
once nothing refers to the object; a `Cursor` object does not refer to its `Txn` object. The keys
and values that a movement is given do not matter here and are left out.
-/

namespace NodeKv.Lmdb.Handles

open Machine

/-- The functions of LMDB that take a transaction. -/
inductive TxnFn where
  | commit
  | abort
  | reset
  | renew
  | cursorOpen
deriving DecidableEq, Repr

/-- The `MDB_cursor_op`s in use. -/
inductive CursorOp where
  | next
  | prev
  | nextDup
  | prevDup
  | first
  | last
  | set
  | getBoth
  | setRange
  | getBothRange
  | getCurrent
deriving DecidableEq, Repr

/-- The functions of LMDB that take a cursor. -/
inductive CursorFn where
  | get (op : CursorOp)
  | del
  | close
deriving DecidableEq, Repr

/-- A pointer passed to LMDB; `none` is NULL. -/
inductive Call where
  | txn (fn : TxnFn) (pointer : Option ℕ)
  | cursor (fn : CursorFn) (pointer : Option ℕ)
deriving DecidableEq, Repr

structure Mdb where
  txns : Heap
  /-- Whether a transaction was begun with `MDB_RDONLY`. -/
  readonly : ℕ → Bool
  cursors : Heap
  /-- The transaction a cursor was opened in. -/
  owner : ℕ → ℕ
  /-- The pointers passed so far, each with whether it was live. -/
  calls : List (Call × Bool)

namespace Mdb

def passTxn (fn : TxnFn) (pointer : Option ℕ) (mdb : Mdb) : Mdb :=
  { mdb with calls := mdb.calls ++ [(.txn fn pointer, pointer.any (decide <| mdb.txns.Live ·))] }

def passCursor (fn : CursorFn) (pointer : Option ℕ) (mdb : Mdb) : Mdb :=
  { mdb with
    calls := mdb.calls ++ [(.cursor fn pointer, pointer.any (decide <| mdb.cursors.Live ·))] }

/-- A successful `mdb_txn_begin`, whose transaction is numbered `txns.created`. -/
def beginTxn (readonly : Bool) (mdb : Mdb) : Mdb :=
  { mdb with
    txns := mdb.txns.alloc
    readonly := Function.update mdb.readonly mdb.txns.created readonly }

/-- `mdb_txn_commit` or `mdb_txn_abort`. -/
def endTxn (fn : TxnFn) (txn : ℕ) (mdb : Mdb) : Mdb :=
  let ended := { mdb with txns := mdb.txns.free [txn] }
  let freed :=
    if mdb.readonly txn then ended
    else { ended with
      cursors := mdb.cursors.free (mdb.cursors.liveOf fun cursor => mdb.owner cursor == txn) }
  { freed with calls := (mdb.passTxn fn (some txn)).calls }

/-- A successful `mdb_cursor_open`, whose cursor is numbered `cursors.created`. -/
def openCursor (txn : ℕ) (mdb : Mdb) : Mdb :=
  { mdb with
    cursors := mdb.cursors.alloc
    owner := Function.update mdb.owner mdb.cursors.created txn }

/-- `mdb_cursor_close`, which ignores NULL. -/
def closeCursor (pointer : Option ℕ) (mdb : Mdb) : Mdb :=
  { mdb.passCursor .close pointer with cursors := mdb.cursors.free pointer.toList }

end Mdb

/-- A `Txn` object: `_readonly` and `_txn`. -/
structure TxnObject where
  readonly : Bool
  txn : Option ℕ
deriving DecidableEq, Repr

/-- A `Cursor` object: `_cursor`. -/
structure CursorObject where
  cursor : Option ℕ
deriving DecidableEq, Repr

/-- The objects by number; one that is not made yet, or finalized, is `none`. -/
structure State where
  mdb : Mdb
  txns : ℕ → Option TxnObject
  txnCount : ℕ
  cursors : ℕ → Option CursorObject
  cursorCount : ℕ

namespace State

def setTxn (object : ℕ) (tw : Option TxnObject) (state : State) : State :=
  { state with txns := Function.update state.txns object tw }

def setCursor (object : ℕ) (cw : Option CursorObject) (state : State) : State :=
  { state with cursors := Function.update state.cursors object cw }

/-- An environment just opened. -/
def start : State where
  mdb := ⟨.empty, fun _ => false, .empty, fun _ => 0, []⟩
  txns := fun _ => none
  txnCount := 0
  cursors := fun _ => none
  cursorCount := 0

end State

/-- What a method returns to the script. -/
inductive Reply where
  | undefined
  | bool (val : Bool)
  | null
  /-- The decoded key or value of the current entry. -/
  | current
deriving DecidableEq, Repr

/-- The end of a method that returns nothing and throws on any code. -/
def done : Option Rc → Result Reply
  | none => .ok .undefined
  | some rc => .throws (.mdb rc)

section Methods

variable (rc : Option Rc) (object : ℕ)

/-- `txn::ctor`. -/
def txnCtor (readonly : Bool) (state : State) : Result Reply × State :=
  match rc with
  | some rc => (.throws (.mdb rc), state)
  | none =>
    (.ok .undefined, { state with
      mdb := state.mdb.beginTxn readonly
      txns := Function.update state.txns state.txnCount
        (some ⟨readonly, some state.mdb.txns.created⟩)
      txnCount := state.txnCount + 1 })

/-- `txn::commit`. -/
def txnCommit (tw : TxnObject) (state : State) : Result Reply × State :=
  match tw.txn with
  | none => (.throws .txnClosed, state)
  | some txn =>
    (done rc, { state with mdb := state.mdb.endTxn .commit txn }.setTxn object
      (some { tw with txn := none }))

/-- `txn::abort`. -/
def txnAbort (tw : TxnObject) (state : State) : Result Reply × State :=
  match tw.txn with
  | none => (.throws .txnClosed, state)
  | some txn =>
    (.ok .undefined, { state with mdb := state.mdb.endTxn .abort txn }.setTxn object
      (some { tw with txn := none }))

/-- `txn::reset`. -/
def txnReset (tw : TxnObject) (state : State) : Result Reply × State :=
  match tw.txn with
  | none => (.throws .txnClosed, state)
  | some txn =>
    if tw.readonly then
      (.ok .undefined, { state with mdb := state.mdb.passTxn .reset (some txn) })
    else (.throws .notResettable, state)

/-- `txn::renew`. -/
def txnRenew (tw : TxnObject) (state : State) : Result Reply × State :=
  if tw.readonly then
    match tw.txn with
    | none => (.throws .txnClosed, state)
    | some txn => (done rc, { state with mdb := state.mdb.passTxn .renew (some txn) })
  else
    match tw.txn with
    | some _ => (.throws .txnStillOpened, state)
    | none =>
      match rc with
      | some rc => (.throws (.mdb rc), state)
      | none =>
        (.ok .undefined, { state with mdb := state.mdb.beginTxn false }.setTxn object
          (some { tw with txn := some state.mdb.txns.created }))

/-- `~txn`. -/
def txnDtor (tw : TxnObject) (state : State) : State :=
  match tw.txn with
  | none => state.setTxn object none
  | some txn => { state with mdb := state.mdb.endTxn .abort txn }.setTxn object none

/-- `cursor::ctor`, which passes the `_txn` of its second argument whatever it is. -/
def cursorCtor (tw : TxnObject) (state : State) : Result Reply × State :=
  let passed := state.mdb.passTxn .cursorOpen tw.txn
  match tw.txn, rc with
  | none, _ => (.throws (.mdb .einval), { state with mdb := passed })
  | some _, some rc => (.throws (.mdb rc), { state with mdb := passed })
  | some txn, none =>
    (.ok .undefined, { state with
      mdb := passed.openCursor txn
      cursors := Function.update state.cursors state.cursorCount
        (some ⟨some state.mdb.cursors.created⟩)
      cursorCount := state.cursorCount + 1 })

/-- `cursor::close`. -/
def cursorClose (cw : CursorObject) (state : State) : Result Reply × State :=
  (.ok .undefined, { state with mdb := state.mdb.closeCursor cw.cursor }.setCursor object
    (some ⟨none⟩))

/-- `cursor::del`; `mdb_cursor_del` dereferences its argument. -/
def cursorDel (cw : CursorObject) (state : State) : Result Reply × State :=
  (if cw.cursor.isSome then done rc else .never,
    { state with mdb := state.mdb.passCursor .del cw.cursor })

/-- The code of `mdb_cursor_get`, which rejects NULL. -/
def cursorGetCode (cw : CursorObject) : Option Rc := if cw.cursor.isSome then rc else some .einval

/-- `cursorOp`, `cursorKeyOp` and `cursorKeyValOp`. -/
def cursorOp (op : CursorOp) (cw : CursorObject) (state : State) : Result Reply × State :=
  (match cursorGetCode rc cw with
    | none => .ok (.bool true)
    | some rc => if rc = .notFound then .ok (.bool false) else .throws (.mdb rc),
    { state with mdb := state.mdb.passCursor (.get op) cw.cursor })

/-- `cursor::key` and `cursor::value`. -/
def cursorCurrent (cw : CursorObject) (state : State) : Result Reply × State :=
  (match cursorGetCode rc cw with
    | none => .ok .current
    | some rc => if rc = .notFound then .ok .null else .throws (.mdb rc),
    { state with mdb := state.mdb.passCursor (.get .getCurrent) cw.cursor })

/-- `~cursor`. -/
def cursorDtor (cw : CursorObject) (state : State) : State :=
  match cw.cursor with
  | none => state.setCursor object none
  | some cursor => { state with mdb := state.mdb.closeCursor (some cursor) }.setCursor object none

end Methods

/-- The movements a cursor exports; `seek` and `gte` may be given a value besides the key. -/
inductive Move where
  | next
  | prev
  | nextDup
  | prevDup
  | first
  | last
  | seek (both : Bool)
  | gte (both : Bool)
deriving DecidableEq, Repr

def Move.op : Move → CursorOp
  | next => .next
  | prev => .prev
  | nextDup => .nextDup
  | prevDup => .prevDup
  | first => .first
  | last => .last
  | seek both => if both then .getBoth else .set
  | gte both => if both then .getBothRange else .setRange

/-- What the script and the garbage collector can do. -/
inductive Action where
  | beginTxn (readonly : Bool)
  | commit (txn : ℕ)
  | abort (txn : ℕ)
  | reset (txn : ℕ)
  | renew (txn : ℕ)
  | finalizeTxn (txn : ℕ)
  | openCursor (txn : ℕ)
  | move (move : Move) (cursor : ℕ)
  | key (cursor : ℕ)
  | val (cursor : ℕ)
  | del (cursor : ℕ)
  | close (cursor : ℕ)
  | finalizeCursor (cursor : ℕ)
deriving DecidableEq, Repr

/-- Perform an action, given the code LMDB returns; `none` if the object is not there. -/
def act (rc : Option Rc) (state : State) : Action → Option (Result Reply × State)
  | .beginTxn readonly => some (txnCtor rc readonly state)
  | .commit txn => (state.txns txn).map (txnCommit rc txn · state)
  | .abort txn => (state.txns txn).map (txnAbort txn · state)
  | .reset txn => (state.txns txn).map (txnReset · state)
  | .renew txn => (state.txns txn).map (txnRenew rc txn · state)
  | .finalizeTxn txn => (state.txns txn).map fun tw => (.ok .undefined, txnDtor txn tw state)
  | .openCursor txn => (state.txns txn).map (cursorCtor rc · state)
  | .move move cursor => (state.cursors cursor).map (cursorOp rc move.op · state)
  | .key cursor => (state.cursors cursor).map (cursorCurrent rc · state)
  | .val cursor => (state.cursors cursor).map (cursorCurrent rc · state)
  | .del cursor => (state.cursors cursor).map (cursorDel rc · state)
  | .close cursor => (state.cursors cursor).map (cursorClose cursor · state)
  | .finalizeCursor cursor =>
    (state.cursors cursor).map fun cw => (.ok .undefined, cursorDtor cursor cw state)

/-- An action with some code of LMDB. -/
def Step (state : State) (action : Action) (next : State) : Prop :=
  ∃ rc result, act rc state action = some (result, next)

end NodeKv.Lmdb.Handles
