import NodeKv.Machine.Runs
import NodeKv.Machine.Updates
import NodeKv.Model.Lmdb.Batch

/-! # The two-generation cache

`lib/cache` keeps a current and an old LMDB environment. Puts are queued on the current one,
deletes on both. When a flush of the current environment runs into `MDB_MAP_FULL`, its `onfull`
handler closes the old environment, makes the current one old, opens an empty one, and replays the
failed queue through the cache's own `put` and `del` before flushing again. All of this happens
inside the failed flush, so the layers call each other recursively: `flushBatchOps` is the
unrolling of that recursion to a nesting depth.

Contents of an environment are maps from a database name and a key, and a queued delete removes its
key; the transaction that the native call behind it begins is part of `Model/Lmdb/Db`. Whether a
batch fits is the `full` rule, asked once for every attempt; an attempt on a closed environment finds
its database handles gone. Opening a named database succeeds and leaves the contents alone.
`rotations` only records what each rotation found, for use in statements.
-/

namespace NodeKv.Cache

open Machine Lmdb

variable {D K V : Type*}

/-- Committed contents of one environment. -/
abbrev Contents (D K V : Type*) := D × K → Option V

/-- A queued operation, as `Db.batchPut` and `Db.batchDel` of `lib/lmdb/db.js` build it. -/
structure BatchOp (D K V : Type*) where
  /-- The database whose handle `exec` writes through. -/
  db : D
  /-- `op` with its `key` and `val`. -/
  call : Update K V
  /-- The cache database to replay through; the old environment's deletes carry none. -/
  extra : Option D
deriving DecidableEq, Repr

/-- The effect of `exec` on the contents of the environment that owns the queue. -/
def BatchOp.exec (op : BatchOp D K V) : Update (D × K) V :=
  match op.call with
  | .put key val => .put (op.db, key) val
  | .del key => .del (op.db, key)

/-- The two handlers the cache installs as `onfull`. -/
inductive Onfull where
  | replay
  | shouldNotHappend
deriving DecidableEq, Repr

/-- What a rotation found in the environment that ran full. -/
structure Rotation (D K V : Type*) where
  committed : Contents D K V
  ops : List (BatchOp D K V)

/-- The cache's own state, with the native side of the environments it opened. -/
structure Host (D K V : Type*) where
  /-- `_curEnv`. -/
  curEnv : ℕ
  /-- `_oldEnv`. -/
  oldEnv : ℕ
  /-- The number of the next environment to open. -/
  next : ℕ
  /-- The `batchSize` every environment is opened with. -/
  batchSize : JsNumber
  /-- Databases opened in an environment. -/
  dbs : ℕ → D → Bool
  /-- Environments whose `close` has run. -/
  closed : ℕ → Bool
  /-- Number of transactions attempted so far. -/
  attempts : ℕ
  rotations : List (Rotation D K V)

/-- The environments as the cache uses them. -/
abbrev State (D K V : Type*) := World (Contents D K V) (BatchOp D K V) Onfull (Host D K V)

/-- Whether the transaction attempted at a given time runs out of space. -/
abbrev Full (D K V : Type*) := ℕ → Contents D K V → List (BatchOp D K V) → Bool

variable [DecidableEq D] [DecidableEq K]

/-- One write transaction over a queue. -/
def engine (full : Full D K V) : Engine (Contents D K V) (BatchOp D K V) (Host D K V) :=
  fun host env store ops =>
    let next := { host with attempts := host.attempts + 1 }
    if host.closed env then ⟨.failed (.mdb .einval), store, next⟩
    else if full host.attempts store ops then ⟨.failed (.mdb .mapFull), store, next⟩
    else ⟨.committed, applyAll store (ops.map BatchOp.exec), next⟩

/-- The lookup `env.dbs[opt.name] || env.openDb(opt)`. -/
def openDb (env : ℕ) (db : D) (state : State D K V) : State D K V :=
  { state with
    host.dbs := Function.update state.host.dbs env (Function.update (state.host.dbs env) db true) }

/-- `Db.prototype.put` of the cache. -/
def put (flush : ℕ → Prog Error (State D K V)) (db : D) (key : K) (val : V) :
    Prog Error (State D K V) := fun state =>
  let curEnv := state.host.curEnv
  pushBatch flush curEnv ⟨db, .put key val, some db⟩ (openDb curEnv db state)

/-- `Db.prototype.del` of the cache. Both databases are looked up before the first push. -/
def del (flush : ℕ → Prog Error (State D K V)) (db : D) (key : K) :
    Prog Error (State D K V) := fun state =>
  let curEnv := state.host.curEnv
  let oldEnv := state.host.oldEnv
  Prog.seq (pushBatch flush curEnv ⟨db, .del key, some db⟩)
    (pushBatch flush oldEnv ⟨db, .del key, none⟩) (openDb oldEnv db (openDb curEnv db state))

/-- `Env.prototype._openEnv(true)`: a fresh, empty environment with the replaying handler. -/
def openEnv (state : State D K V) : State D K V :=
  let env := state.host.next
  { native := Function.update state.native env fun _ => none
    batchOps := Function.update state.batchOps env []
    batchSize := Function.update state.batchSize env state.host.batchSize
    onfull := Function.update state.onfull env (some .replay)
    timer := state.timer
    host := { state.host with
      curEnv := env
      next := env + 1
      dbs := Function.update state.host.dbs env fun _ => false } }

/-- `_rotate` up to its call of `_openEnv`. -/
def retire (state : State D K V) : State D K V :=
  let curEnv := state.host.curEnv
  { state with
    onfull := Function.update state.onfull curEnv (some .shouldNotHappend)
    host := { state.host with
      closed := Function.update state.host.closed state.host.oldEnv true
      oldEnv := curEnv
      rotations := state.host.rotations ++ [⟨state.native curEnv, state.batchOps curEnv⟩] } }

/-- `Env.prototype._rotate`. -/
def rotate (state : State D K V) : State D K V := openEnv (retire state)

/-- One iteration of the replay loop, `op.extra[op.op](op.key, op.val)`. -/
def replayOp (flush : ℕ → Prog Error (State D K V)) (op : BatchOp D K V) :
    Prog Error (State D K V) :=
  match op.extra, op.call with
  | none, _ => .threw .noExtra
  | some db, .put key val => put flush db key val
  | some db, .del key => del flush db key

/-- Flush whatever environment is current at that moment. -/
def flushCur (flush : ℕ → Prog Error (State D K V)) : Prog Error (State D K V) := fun state =>
  flush state.host.curEnv state

/-- The handlers: replay after a rotation, or the assertion of a rotated-out environment. -/
def onfull (flush : ℕ → Prog Error (State D K V)) :
    Onfull → List (BatchOp D K V) → Prog Error (State D K V)
  | .replay, ops =>
    Prog.seq (Prog.update rotate) (Prog.seq (Prog.forEach (replayOp flush) ops) (flushCur flush))
  | .shouldNotHappend, _ => .threw .shouldNotHappend

/-- `flushBatchOps` of an environment of the cache, given how the calls inside it behave. -/
def flushBody (full : Full D K V) (flush : ℕ → Prog Error (State D K V)) :
    ℕ → Prog Error (State D K V) :=
  Lmdb.flushBatchOps (engine full) (onfull flush)

/-- `flushBatchOps` of an environment of the cache, to a nesting depth. -/
def flushBatchOps (full : Full D K V) : ℕ → ℕ → Prog Error (State D K V) :=
  Prog.nest (flushBody full)

/-- What the owner of a cache can do, and the timer. -/
inductive Action (D K V : Type*) where
  | put (db : D) (key : K) (val : V)
  | del (db : D) (key : K)
  | flushBatchOps
  | fire
deriving DecidableEq, Repr

/-- Perform one action, given how environments are flushed. The cache's `flushBatchOps` flushes the old
environment first. -/
def actBy (flush : ℕ → Prog Error (State D K V)) : Action D K V → Prog Error (State D K V)
  | .put db key val => put flush db key val
  | .del db key => del flush db key
  | .flushBatchOps => Prog.seq (fun state => flush state.host.oldEnv state) (flushCur flush)
  | .fire => Lmdb.fire flush

def act (full : Full D K V) (depth : ℕ) : Action D K V → Prog Error (State D K V) :=
  actBy (flushBatchOps full depth)

/-- A completed action; the caller catches exceptions and goes on. -/
def Step (full : Full D K V) (state : State D K V) (action : Action D K V) (next : State D K V) :
    Prop :=
  ∃ depth, (act full depth action state).state? = some next

/-- A finite run of completed actions. -/
abbrev Run (full : Full D K V) := Runs (Step full)

theorem perform_run {full : Full D K V} {depth : ℕ} {start next : State D K V}
    {actions : List (Action D K V)}
    (performed : Prog.perform (act full depth) actions start = some next) :
    Run full start actions next :=
  Prog.perform_runs (fun _ _ _ ended => ⟨depth, ended⟩) .nil performed

/-- A cache just opened over two generations with the given contents. -/
def opened (batchSize : JsNumber) (cur old : Contents D K V) : State D K V where
  native := fun env => if env = 0 then old else if env = 1 then cur else fun _ => none
  batchOps := fun _ => []
  batchSize := fun _ => batchSize
  onfull := fun env => if env = 1 then some .replay else none
  timer := none
  host := {
    curEnv := 1
    oldEnv := 0
    next := 2
    batchSize := batchSize
    dbs := fun _ _ => false
    closed := fun _ => false
    attempts := 0
    rotations := [] }

/-- `Db.prototype.get` of the cache: `curDb.get(key) || oldDb.get(key)`. -/
def get (truthy : V → Bool) (state : State D K V) (db : D) (key : K) : Option V :=
  match state.native state.host.curEnv (db, key) with
  | some val => if truthy val then some val else state.native state.host.oldEnv (db, key)
  | none => state.native state.host.oldEnv (db, key)

/-- The updates the owner asked for, in order. -/
def history : List (Action D K V) → List (Update (D × K) V)
  | [] => []
  | .put db key val :: rest => .put (db, key) val :: history rest
  | .del db key :: rest => .del (db, key) :: history rest
  | .flushBatchOps :: rest => history rest
  | .fire :: rest => history rest

omit [DecidableEq D] [DecidableEq K] in
theorem history_append (front back : List (Action D K V)) :
    history (front ++ back) = history front ++ history back := by
  induction front with
  | nil => rfl
  | cons action rest ih => cases action <;> simp [history, ih]

/-- A small capacity: an environment has room for one entry of these keys, and deletes need none. -/
def roomForOne {K : Type*} (keys : List K) : Full Unit K ℕ := fun _ store ops =>
  let puts := ops.countP fun op => !op.call.isDel
  let stored := keys.countP fun key => (store ((), key)).isSome
  decide (0 < puts ∧ 1 < stored + puts)

def oneEntry : Full Unit Bool ℕ := roomForOne [false, true]

end NodeKv.Cache
