import NodeKv.Model.Lmdb.Life

/-! # Closing the environments of a cache

`Env.prototype.close` of `lib/cache/env.js` hands one function to the `close` of both environments:
the one that `_.after(2, cb)` of lodash makes of its callback. The state counts how often that
function has been called; which of its calls lodash passes on to the callback is `calledBack`'s
parameter. A rotation has closed the environment before the old one already, without a callback.
Each of these closings is under way on the thread pool until its callback closes the environment.

A rotation that fails leaves one environment in both places, and no handler to rotate again with.
The environments of the cache are nobody else's, so nothing but `close` asks for a sync.
-/

namespace NodeKv.Cache.Closing

open Machine Lmdb

structure State where
  /-- The environments, by the order in which they were opened. -/
  lives : ℕ → Life
  /-- `_curEnv`, and what it was when `close` deleted it. -/
  curEnv : ℕ
  /-- `_oldEnv`, likewise. -/
  oldEnv : ℕ
  next : ℕ
  /-- `close` has been called. -/
  closed : Bool
  /-- How often the function made of the callback of `close` has been called, if there is one. -/
  calls : Option ℕ

/-- A cache just opened. -/
def State.start : State where
  lives := fun _ => Life.fresh []
  curEnv := 1
  oldEnv := 0
  next := 2
  closed := false
  calls := none

def State.setLife (env : ℕ) (life : Life) (state : State) : State :=
  { state with lives := Function.update state.lives env life }

/-- Run a program on one environment. -/
def State.run (env : ℕ) : Prog Error Life → Prog Error State :=
  Prog.zoom (·.lives env) fun state life => state.setLife env life

/-- `Env.prototype._rotate`, whose `new lmdb.Env` succeeds or throws. -/
def rotate (created : Bool) : Prog Error State := fun state =>
  Prog.seq (State.run state.oldEnv (Life.close none))
    (Prog.update fun state =>
      if created then
        { state with oldEnv := state.curEnv, curEnv := state.next, next := state.next + 1 }
      else { state with oldEnv := state.curEnv })
    state

/-- `Env.prototype.close`. The function given to both environments goes by the number 0. -/
def close (cb : Bool) : Prog Error State := fun state =>
  let given := if cb then some 0 else none
  Prog.seq (State.run state.curEnv (Life.close given))
    (Prog.seq (State.run state.oldEnv (Life.close given))
      (Prog.update fun state =>
        { state with closed := true, calls := if cb then some 0 else none }))
    state

/-- How often a step of an environment has called the function given to its `close`. -/
def rings (before after : Life) : ℕ :=
  (after.trace.drop before.trace.length).countP fun
    | .called _ => true
    | _ => false

inductive Action where
  /-- A database is opened in an environment. -/
  | openDb (env dbi : ℕ)
  | rotate (created : Bool)
  | close (cb : Bool)
  /-- The thread pool or the event loop goes on with a request. -/
  | pool (env : ℕ) (action : Life.Action)
deriving DecidableEq, Repr

/-- A sync that is finished has succeeded. -/
def Action.Succeeds : Action → Prop
  | .pool _ (.finish _ rc) => rc = none
  | _ => True

/-- How often the callback given to `close` has been called, where `after call` says whether the
function made of it passes that call on. -/
def State.calledBack (after : ℕ → Bool) (state : State) : ℕ :=
  state.calls.elim 0 fun calls => (List.range calls).countP fun call => after (call + 1)

def Step (state : State) (action : Action) (next : State) : Prop :=
  match action with
  | .openDb env dbi =>
    state.closed = false ∧ (env = state.curEnv ∨ env = state.oldEnv) ∧
      next = state.setLife env { state.lives env with dbs := (state.lives env).dbs ++ [dbi] }
  | .rotate created =>
    state.closed = false ∧ state.curEnv ≠ state.oldEnv ∧
      (rotate created state).state? = some next
  | .close cb => state.closed = false ∧ (close cb state).state? = some next
  | .pool env action =>
    action.isScheduled = true ∧ ∃ life, Life.Step (state.lives env) action life ∧
      next = { state.setLife env life with
        calls := state.calls.map (· + rings (state.lives env) life) }

end NodeKv.Cache.Closing
