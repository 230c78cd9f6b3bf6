import NodeKv.Machine.Runs
import NodeKv.Machine.WorkPool
import NodeKv.Model.Values

/-! # Syncing and closing an environment

`Env.prototype.sync` and `Env.prototype.close` of `lib/lmdb/env.js` over `env::sync`, `env::close`
and `db::close`. A sync captures the `MDB_env` pointer and is queued on the thread pool, where
`mdb_env_sync` runs; its callback is called on the main thread. Closing closes the databases at
once and the environment in the callback of a sync. Nothing counts the syncs that are under way.
A sync that failed has no callback: `after_sync_cb` opens no scope for the handles of its error,
and V8 ends the process.

The cached read transaction, which `env::close` aborts, is left out: no read takes place here.
`trace` records what happens on the `MDB_env`. A worker that starts after `mdb_env_close` uses a
freed pointer; the trace shows it.
-/

namespace NodeKv.Lmdb

open Machine

/-- The function given to the native `sync`. -/
inductive Callback where
  /-- A callback of the user, passed on by `Env.prototype.sync`. -/
  | user (cb : ℕ)
  /-- The closure of `Env.prototype.close`, with the callback it may have captured. -/
  | close (cb : Option ℕ)
deriving DecidableEq, Repr

def Callback.isClose : Callback → Bool
  | user _ => false
  | close _ => true

inductive LifeEvent where
  | queued (id : ℕ)
  /-- `mdb_env_sync` is entered. -/
  | started (id : ℕ)
  | finished (id : ℕ)
  /-- `mdb_env_close`. -/
  | closed
  /-- A callback of the user is called, without an error. -/
  | called (cb : ℕ)
deriving DecidableEq, Repr

structure Life where
  /-- `_env` is not `NULL`. -/
  opened : Bool
  /-- The handles of `this.dbs`. -/
  dbs : List ℕ
  closedDbis : List ℕ
  works : List (Work Callback (Option Rc))
  /-- The number of syncs requested so far. -/
  count : ℕ
  trace : List LifeEvent
deriving DecidableEq, Repr

namespace Life

/-- An environment with these databases open. -/
def fresh (dbs : List ℕ) : Life where
  opened := true
  dbs := dbs
  closedDbis := []
  works := []
  count := 0
  trace := []

def record (event : LifeEvent) (life : Life) : Life := { life with trace := life.trace ++ [event] }

/-- `env::sync`. -/
def nativeSync (callback : Callback) : Prog Error Life := fun life =>
  if life.opened then
    .returned (record (.queued life.count) { life with
      works := life.works ++ [⟨life.count, callback, .queued⟩]
      count := life.count + 1 })
  else .threw .envClosed life

/-- `env::close`. -/
def nativeClose : Prog Error Life := fun life =>
  if life.opened then .returned (record .closed { life with opened := false })
  else .threw .envClosed life

/-- `db::close`. With `_env` gone, `mdb_dbi_close` dereferences `NULL`. -/
def dbClose (dbi : ℕ) : Prog Error Life := fun life =>
  if life.opened then .returned { life with closedDbis := life.closedDbis ++ [dbi] }
  else .diverged

/-- `Env.prototype.sync`. -/
def sync (cb : Option ℕ) : Prog Error Life :=
  match cb with
  | none => .threw .syncCallback
  | some cb => nativeSync (.user cb)

/-- `Env.prototype.close`. -/
def close (cb : Option ℕ) : Prog Error Life := fun life =>
  Prog.seq (Prog.forEach dbClose life.dbs) (nativeSync (.close cb)) life

/-- What the function does when it is called. -/
def callback : Callback → Prog Error Life
  | .user cb => Prog.update (record (.called cb))
  | .close cb =>
    Prog.seq nativeClose
      (match cb with
        | none => .returned
        | some cb => Prog.update (record (.called cb)))

/-- `after_sync_cb`. `Exception::Error` takes the handle of its text, which `Nan::New` cannot make
outside a scope. -/
def afterSyncCb (rc : Option Rc) (function : Callback) : Prog Error Life := fun life =>
  match rc with
  | none => callback function life
  | some _ => .diverged

/-- The calls of the user, and what the threads do. -/
inductive Action where
  | sync (cb : Option ℕ)
  | close (cb : Option ℕ)
  | start (id : ℕ)
  | finish (id : ℕ) (rc : Option Rc)
  | complete (id : ℕ)
deriving DecidableEq, Repr

/-- The action is one of the thread pool or of the event loop. -/
def Action.isScheduled : Action → Bool
  | sync _ => false
  | close _ => false
  | _ => true

/-- The callbacks a call passes. -/
def Action.passed : Action → List ℕ
  | sync cb => cb.toList
  | close cb => cb.toList
  | _ => []

def Step (life : Life) (action : Action) (next : Life) : Prop :=
  match action with
  | .sync cb => (sync cb life).state? = some next
  | .close cb => (close cb life).state? = some next
  | .start id =>
    ∃ works, Work.Starts life.works id works ∧
      next = record (.started id) { life with works := works }
  | .finish id rc =>
    ∃ works, Work.Finishes rc life.works id works ∧
      next = record (.finished id) { life with works := works }
  | .complete id =>
    ∃ function rc works, Work.Completes function rc life.works id works ∧
      (afterSyncCb rc function { life with works := works }).state? = some next

/-- `Env.prototype.close` has been called: its sync is under way, or the environment is closed. -/
def closing (life : Life) : Bool := !life.opened || life.works.any (·.callback.isClose)

end Life

end NodeKv.Lmdb
