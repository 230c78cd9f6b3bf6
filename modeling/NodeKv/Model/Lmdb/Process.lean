import NodeKv.Model.Lmdb.Db
import NodeKv.Model.Lmdb.Life

/-! # Queues of environments that are closed

The batch queues of `lib/lmdb/env.js` together with the life of each environment. Closing neither
flushes the queue nor disarms the timer, so a flush may meet closed databases or a closed
environment: `mdb_put` through a closed handle gives `EINVAL`, and beginning a transaction on a
closed environment dereferences `NULL`.
-/

namespace NodeKv.Lmdb

open Machine

variable {v8 : V8}

/-- The closure of an operation when these handles have been closed. -/
def BatchOp.execAmong (closedDbis : List ℕ) (returns : Returns) (txn : ℕ) :
    BatchOp v8 → Prog Error Native
  | .put db key val =>
    if db.dbi ∈ closedDbis then .threw (.mdb .einval) else exec returns txn (.put db key val)
  -- A delete blocks before it comes to its handle.
  | .del db key => exec returns txn (.del db key)

/-- Environments with their lives. -/
abbrev Process (v8 : V8) := World Native (BatchOp v8) Empty (ℕ → Life)

namespace Process

def engine (v8 : V8) (returns : ℕ → Returns) : Engine Native (BatchOp v8) (ℕ → Life) :=
  fun lives env native ops =>
    if (lives env).opened then
      let (result, native) :=
        attemptWith (BatchOp.execAmong (lives env).closedDbis (returns env)) (returns env) ops native
      ⟨result, native, lives⟩
    else ⟨.stuck, native, lives⟩

/-- `flushBatchOps` of an environment without a handler. -/
def flush (v8 : V8) (returns : ℕ → Returns) (env : ℕ) : Prog Error (Process v8) :=
  flushBatchOps (engine v8 returns) (fun handler => nomatch handler) env

/-- Environments just opened, each with its databases. -/
def start (stores : ℕ → Store) (sizes : ℕ → JsNumber) (dbs : ℕ → List ℕ) : Process v8 where
  native := fun env => .opened (stores env)
  batchOps := fun _ => []
  batchSize := sizes
  onfull := fun _ => none
  timer := none
  host := fun env => .fresh (dbs env)

inductive Action where
  | queue (action : Lmdb.Action)
  | life (env : ℕ) (action : Life.Action)
deriving DecidableEq, Repr

/-- The operation an action pushes on the queue of an environment. -/
def Action.accepted (v8 : V8) (env : ℕ) : Action → List (BatchOp v8)
  | queue action => action.accepted v8 env
  | life _ _ => []

def Step (v8 : V8) (returns : ℕ → Returns) (world : Process v8) (action : Action)
    (next : Process v8) : Prop :=
  match action with
  | .queue action => Prog.Steps (act (flush v8 returns)) world action next
  | .life env action =>
    ∃ life, Life.Step (world.host env) action life ∧
      next = { world with host := Function.update world.host env life }

end Process

end NodeKv.Lmdb
