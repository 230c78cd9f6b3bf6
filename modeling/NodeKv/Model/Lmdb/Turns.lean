import NodeKv.Model.Lmdb.Db
import NodeKv.Model.Lmdb.Session

/-! # All users of an environment

Everything that begins write transactions on an environment, turn by turn of the event loop: calls
with and without an explicit transaction, the transaction objects, `openDb`, the batch queue, and
the timer that flushes it in a turn of its own. A transaction object stays as it is from one turn to
the next. Each turn may meet return codes of its own.

`batchDel` is kept apart from the turns: a queued delete stays in the queue beside the puts until a
flush comes to it, and it then begins a transaction of its own inside that of the flush. A `Use` is
a turn, or a `batchDel`.
-/

namespace NodeKv.Lmdb

open Machine

variable {v8 : V8}

/-- `db::ctor`: open the database in a transaction of its own. -/
def dbCtor (returns : Returns) (native : Native) : Result Unit × Native :=
  match beginWrite returns native with
  | none => (.never, native)
  -- The pointer that is aborted here has not been initialized.
  | some (.error _, native) => (.never, native)
  | some (.ok txn, native) =>
    match returns native.calls with
    | some rc => (.throws (.mdb rc), mdbAbort (some txn) native.called)
    | none =>
      match mdbCommit returns (some txn) native.called with
      | (some rc, native) => (.throws (.mdb rc), native)
      | (none, native) => (.ok (), native)

namespace Turns

/-- The environments with the names in their `dbs`. -/
structure State (v8 : V8) where
  world : Plain v8
  dbs : ℕ → List String

def State.setNative (env : ℕ) (native : Native) (state : State v8) : State v8 :=
  { state with world.native := Function.update state.world.native env native }

/-- `Env.prototype.openDb`. -/
def openDb (returns : Returns) (env : ℕ) (opt : DbOptions) : Prog Error (State v8) := fun state =>
  match opt.name.filter (!·.isEmpty) with
  | none => .threw .nameRequired state
  | some name =>
    if hasName (state.dbs env) name then .threw (.alreadyOpened name) state
    else
      match opt.keyType, opt.valType with
      | some _, some _ =>
        match dbCtor returns (state.world.native env) with
        | (.never, _) => .diverged
        | (.throws error, native) => .threw error (state.setNative env native)
        | (.ok _, native) =>
          .returned { state.setNative env native with
            dbs := Function.update state.dbs env (name :: state.dbs env) }
      | _, _ => .threw .unsupportedTypes state

/-- One turn. -/
inductive Turn where
  | call (env : ℕ) (call : Session)
  | openDb (env : ℕ) (opt : DbOptions)
  | batch (action : Action)
deriving DecidableEq, Repr

def perform (returns : ℕ → Returns) : Turn → Prog Error (State v8)
  | .call env call =>
    Prog.zoom (·.world.native env) (fun state native => state.setNative env native)
      (call.perform (returns env) v8)
  | .openDb env opt => openDb (returns env) env opt
  | .batch action =>
    Prog.zoom (·.world) (fun state world => { state with world := world })
      (act (flush v8 returns) action)

/-- The transaction object a turn names exists. -/
def Known (state : State v8) : Turn → Prop
  | .call env call => ∀ handle, call.handle? = some handle → handle < (state.world.native env).count
  | _ => True

/-- A turn that comes to an end, with whatever codes LMDB returns in it. -/
def Step (v8 : V8) (state : State v8) (turn : Turn) (next : State v8) : Prop :=
  Known state turn ∧ ∃ returns, (perform returns turn state).state? = some next

/-- Environments just opened. -/
def start (stores : ℕ → Store) (sizes : ℕ → JsNumber) : State v8 := ⟨opened stores sizes, fun _ => []⟩

/-- A turn, with the call that `Turn` leaves out. -/
inductive Use where
  | turn (turn : Turn)
  | batchDel (env : ℕ) (db : Db) (key : Value)
deriving DecidableEq, Repr

namespace Use

def perform (returns : ℕ → Returns) : Use → Prog Error (State v8)
  | turn inner => Turns.perform returns inner
  | batchDel env db key =>
    Prog.zoom (·.world) (fun state world => { state with world := world })
      (Lmdb.batchDel (flush v8 returns) env db key)

/-- The transaction object a use names exists. -/
def Known (state : State v8) : Use → Prop
  | turn inner => Turns.Known state inner
  | batchDel _ _ _ => True

/-- A use that comes to an end, with whatever codes LMDB returns in it. -/
def Step (v8 : V8) (state : State v8) (use : Use) (next : State v8) : Prop :=
  Known state use ∧ ∃ returns, (use.perform returns state).state? = some next

end Use

end Turns

end NodeKv.Lmdb
