import NodeKv.Model.Lmdb.Turns

/-! # Opening a database of the cache

A database of the cache is one in each of its two environments (`lib/cache/db.js`). The current
environment opens it first, then the old one, and each enters the name into its own `dbs`; only
then does the cache enter it into its. Each of the three refuses a name that it has already.
-/

namespace NodeKv.Cache.Registry

open Machine Lmdb

variable {v8 : V8}

structure State (v8 : V8) where
  /-- The environments, with the names in their `dbs`. -/
  envs : Turns.State v8
  /-- `_curEnv`. -/
  curEnv : ℕ
  /-- `_oldEnv`. -/
  oldEnv : ℕ
  /-- The names in the `dbs` of the cache. -/
  dbs : List String

/-- The three registries. -/
def State.registries (state : State v8) : List String × List String × List String :=
  (state.dbs, state.envs.dbs state.curEnv, state.envs.dbs state.oldEnv)

section Calls

variable (returns : ℕ → Returns) (opt : DbOptions)

/-- `Env.prototype.openDb` of `lib/lmdb/env.js`, on an environment of the cache. -/
def openIn (env : ℕ) : Prog Error (State v8) :=
  Prog.zoom State.envs (fun state envs => { state with envs := envs })
    (Turns.openDb (returns env) env opt)

/-- The `Db` constructor of `lib/cache/db.js`. -/
def dbCtor : Prog Error (State v8) := fun state =>
  Prog.seq (openIn returns opt state.curEnv) (openIn returns opt state.oldEnv) state

/-- `Env.prototype.openDb` of `lib/cache/env.js`. -/
def openDb : Prog Error (State v8) := fun state =>
  match opt.name.filter (!·.isEmpty) with
  | none => .threw .nameRequired state
  | some name =>
    if hasName state.dbs name then .threw (.alreadyOpened name) state
    else
      Prog.seq (dbCtor returns opt)
        (Prog.update fun state => { state with dbs := name :: state.dbs }) state

end Calls

end NodeKv.Cache.Registry
