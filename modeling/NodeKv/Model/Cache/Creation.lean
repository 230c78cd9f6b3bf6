import NodeKv.Model.Cache.Env

/-! # Rotations that fail

`_rotate` of `lib/cache/env.js` closes the old environment, makes the current one old and takes its
`onfull` handler away before `_openEnv` creates the new one. The constructor of `lib/lmdb/env.js`
throws if `mdb_env_create` or `mdb_env_open` return a code, or the directory cannot be made, and
`_curEnv` is then not assigned. The exception leaves the handler and the flush that had called it.

Everything else is as in `NodeKv.Cache`, with which this machine agrees if all creations succeed.
-/

namespace NodeKv.Cache

open Machine Lmdb

variable {D K V : Type*}

/-- What the calls inside `new lmdb.Env` come to. -/
structure Creation where
  /-- The code of `mdb_env_create`. -/
  envCreate : Option Rc
  /-- What `mkdirp.sync` throws. -/
  mkdirp : Option Error
  /-- The code of `mdb_env_open`. -/
  envOpen : Option Rc
deriving DecidableEq, Repr

namespace Creation

/-- What `new lmdb.Env` throws: each call is made only if those before it have succeeded. -/
def error? (creation : Creation) : Option Error :=
  (creation.envCreate.map .mdb).or (creation.mkdirp.or (creation.envOpen.map .mdb))

def success : Creation := ⟨none, none, none⟩

end Creation

/-- `Env.prototype._openEnv(true)`. -/
def openEnvWith (creation : Creation) : Prog Error (State D K V) :=
  match creation.error? with
  | none => Prog.update openEnv
  | some error => .threw error

/-- `Env.prototype._rotate`. -/
def rotateWith (creation : Creation) : Prog Error (State D K V) :=
  Prog.seq (Prog.update retire) (openEnvWith creation)

variable [DecidableEq D] [DecidableEq K]

/-- The handlers. The creations are numbered by the rotations before them. -/
def onfullWith (creations : ℕ → Creation) (flush : ℕ → Prog Error (State D K V)) :
    Onfull → List (BatchOp D K V) → Prog Error (State D K V)
  | .replay, ops =>
    Prog.seq (fun state => rotateWith (creations state.host.rotations.length) state)
      (Prog.seq (Prog.forEach (replayOp flush) ops) (flushCur flush))
  | .shouldNotHappend, _ => .threw .shouldNotHappend

def flushBodyWith (full : Full D K V) (creations : ℕ → Creation)
    (flush : ℕ → Prog Error (State D K V)) : ℕ → Prog Error (State D K V) :=
  Lmdb.flushBatchOps (engine full) (onfullWith creations flush)

/-- `flushBatchOps` of an environment of the cache, to a nesting depth. -/
def flushBatchOpsWith (full : Full D K V) (creations : ℕ → Creation) :
    ℕ → ℕ → Prog Error (State D K V) :=
  Prog.nest (flushBodyWith full creations)

/-- A completed action, whatever becomes of the creations in it. -/
def StepWith (full : Full D K V) (state : State D K V) (action : Action D K V)
    (next : State D K V) : Prop :=
  ∃ depth creations, (actBy (flushBatchOpsWith full creations depth) action state).state? = some next

omit [DecidableEq D] [DecidableEq K] in
/-- A rotation whose creation succeeds is that of `NodeKv.Cache`. -/
theorem rotateWith_success :
    (rotateWith .success : Prog Error (State D K V)) = Prog.update rotate := rfl

theorem flushBatchOpsWith_success (full : Full D K V) :
    flushBatchOpsWith full (fun _ => .success) = flushBatchOps full := by
  have handlers : (onfullWith fun _ => .success) = (onfull (D := D) (K := K) (V := V)) := by
    funext flush handler ops
    cases handler with
    | replay => simp only [onfullWith, onfull, rotateWith_success]
    | shouldNotHappend => rfl
  unfold flushBatchOpsWith flushBodyWith
  rw [handlers]
  rfl

theorem Step.stepWith {full : Full D K V} {state next : State D K V} {action : Action D K V}
    (stepped : Step full state action next) : StepWith full state action next := by
  obtain ⟨depth, left⟩ := stepped
  refine ⟨depth, fun _ => .success, ?_⟩
  rw [flushBatchOpsWith_success]
  cases action <;> exact left

end NodeKv.Cache
