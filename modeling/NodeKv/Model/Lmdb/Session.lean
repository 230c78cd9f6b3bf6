import NodeKv.Machine.Runs
import NodeKv.Model.Lmdb.Native

/-! # Reads and writes from the script

`Db.prototype.get`, `put` and `del` of `lib/lmdb/db.js` with an optional transaction, and the
transaction objects themselves. One thread makes these calls one after the other; each of them
may throw, and the caller goes on. LMDB reports no errors of its own here, apart from those its
rules on transactions demand.
-/

namespace NodeKv.Lmdb

open Machine

/-- The argument `txn && txn._txn`. -/
def txnArg : Option ℕ → Value
  | none => .undefined
  | some handle => .txn handle

section Calls

variable (returns : Returns) (v8 : V8) (db : Db)

/-- `Db.prototype.get`. -/
def dbGet (key : Value) (txn : Option ℕ) (native : Native) : Result (Option Bytes) × Native :=
  match db.keyType.sanitize v8 key with
  | .error error => (.throws error, native)
  | .ok key => db.get returns v8 key (txnArg txn) native

/-- `Db.prototype.put`. -/
def dbPut (key val : Value) (txn : Option ℕ) (native : Native) : Result Bool × Native :=
  match db.keyType.sanitize v8 key, db.valType.sanitize v8 val with
  | .error error, _ => (.throws error, native)
  | .ok _, .error error => (.throws error, native)
  | .ok key, .ok val => db.put returns v8 key val (txnArg txn) native

/-- `Db.prototype.del`, whose value is sanitized even when it is missing. -/
def dbDel (key : Value) (txn : Option ℕ) (val : Value) (native : Native) : Result Bool × Native :=
  match db.keyType.sanitize v8 key, db.valType.sanitize v8 val with
  | .error error, _ => (.throws error, native)
  | .ok _, .error error => (.throws error, native)
  | .ok key, .ok val => db.del returns v8 key val (txnArg txn) native

/-- `Db.prototype.delDup`: the body of `del`, with the arguments in another order. -/
def dbDelDup (key val : Value) (txn : Option ℕ) : Native → Result Bool × Native :=
  dbDel returns v8 db key txn val

end Calls

/-- A call of the script. -/
inductive Session where
  | get (db : Db) (key : Value) (txn : Option ℕ)
  | put (db : Db) (key val : Value) (txn : Option ℕ)
  | del (db : Db) (key : Value) (txn : Option ℕ) (val : Value)
  | beginTxn (readonly : Bool)
  | commit (handle : ℕ)
  | abort (handle : ℕ)
  | reset (handle : ℕ)
  | renew (handle : ℕ)
deriving DecidableEq, Repr

namespace Session

/-- A call of the script against any return codes. -/
def perform (returns : Returns) (v8 : V8) : Session → Prog Error Native
  | get db key txn => Result.statement (dbGet returns v8 db key txn)
  | put db key val txn => Result.statement (dbPut returns v8 db key val txn)
  | del db key txn val => Result.statement (dbDel returns v8 db key txn val)
  | beginTxn readonly => Result.statement (txnCtor returns readonly)
  | commit handle => Result.statement (txnCommit returns handle)
  | abort handle => Result.statement (txnAbort handle)
  | reset handle => Result.statement (txnReset handle)
  | renew handle => Result.statement (txnRenew returns handle)

/-- With LMDB silent. -/
def run (v8 : V8) : Session → Prog Error Native := perform silent v8

/-- The transaction object a call names. -/
def handle? : Session → Option ℕ
  | get _ _ txn => txn
  | put _ _ _ txn => txn
  | del _ _ txn _ => txn
  | beginTxn _ => none
  | commit handle => some handle
  | abort handle => some handle
  | reset handle => some handle
  | renew handle => some handle

/-- A completed call, on transaction objects that exist. -/
def Step (v8 : V8) (native : Native) (call : Session) (next : Native) : Prop :=
  (∀ handle, call.handle? = some handle → handle < native.count) ∧
    Prog.Steps (run v8) native call next

end Session

/-- A write that the script asks for. -/
inductive Write where
  | put (key val : Value)
  | del (key val : Value)
deriving DecidableEq, Repr

namespace Write

def key : Write → Value
  | put key _ => key
  | del key _ => key

def val : Write → Value
  | put _ val => val
  | del _ val => val

/-- What LMDB is asked to do to a database. -/
def entry (db : Db) (key val : Bytes) : Write → Entry
  | put _ _ => .put db key val
  | del _ _ => .del db key (some val)

/-- The reply to a code of LMDB. -/
def reply : Write → Option Rc → Result Bool
  | _, none => .ok true
  | put _ _, some rc => .throws (.mdb rc)
  | del _ _, some rc => if rc = .notFound then .ok false else .throws (.mdb rc)

end Write

end NodeKv.Lmdb
