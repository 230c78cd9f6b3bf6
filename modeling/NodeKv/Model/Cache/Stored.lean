import NodeKv.Model.Cache.Creation
import NodeKv.Model.Cache.Directories

/-! # The cache in its directories

`NodeKv.Cache` takes a rotation to open an empty environment, and a cache to be opened once. In
`lib/cache/env.js` an environment finds whatever its directory holds: `_openEnv` chooses the
directory from a listing, the one of `NodeKv.Cache.Directories`, and everything committed is still
there when the cache is closed and constructed again, be it by another process. This machine puts
both together. Rotations happen inside the flush of an action; nothing else touches the directories
then, so what they choose is said once for the whole action, in the order of the rotations.

The environments of one cache have to be in different subdirectories for this, because each is given
contents of its own. `close` commits nothing, so what is still queued is lost with the cache; its
pending timer is taken not to fire any more.
-/

namespace NodeKv.Cache

open Machine Lmdb

variable {D K V : Type*}

/-- `Env.prototype._openEnv(true)`, in a directory that holds something. -/
def openEnvOn (found : Contents D K V) (state : State D K V) : State D K V :=
  let env := state.host.next
  { openEnv state with native := Function.update state.native env found }

/-- A rotation opens one more directory. -/
def Directories.Opens (v8 : V8) (state : Directories.State) (dir : String)
    (next : Directories.State) : Prop :=
  Directories.Step v8 state .rotate next ∧ next.envs.map (·.cur.dir) = some dir

section Flush

variable [DecidableEq D] [DecidableEq K]

/-- The handlers, given what the environments to be opened find, by their numbers. -/
def onfullOn (found : ℕ → Contents D K V) (flush : ℕ → Prog Error (State D K V)) :
    Onfull → List (BatchOp D K V) → Prog Error (State D K V)
  | .replay, ops =>
    Prog.seq (Prog.update fun state => openEnvOn (found state.host.next) (retire state))
      (Prog.seq (Prog.forEach (replayOp flush) ops) (flushCur flush))
  | .shouldNotHappend, _ => .threw .shouldNotHappend

/-- `flushBatchOps` of an environment of the cache, to a nesting depth. -/
def flushBatchOpsOn (full : Full D K V) (found : ℕ → Contents D K V) :
    ℕ → ℕ → Prog Error (State D K V) :=
  Prog.nest fun flush => Lmdb.flushBatchOps (engine full) (onfullOn found flush)

/-- Where every environment starts empty, this is the flush of `NodeKv.Cache`. -/
theorem flushBatchOpsOn_empty (full : Full D K V) :
    flushBatchOpsOn full (fun _ _ => none) = flushBatchOps full := by
  have handlers : onfullOn (fun _ _ => none) = (onfull : _ → _ → _ → Prog Error (State D K V)) := by
    funext flush handler ops
    cases handler <;> rfl
  unfold flushBatchOpsOn
  rw [handlers]
  rfl

end Flush

/-- An open cache, with the subdirectories of its environments in the order of their numbers. -/
structure Opened (D K V : Type*) where
  state : State D K V
  places : List String

/-- A cache and what is on the disk. -/
structure Stored (D K V : Type*) where
  dirs : Directories.State
  /-- What is committed in a subdirectory; nothing in one that does not exist. -/
  disk : String → Contents D K V
  /-- While the cache is open. -/
  cache : Option (Opened D K V)

namespace Stored

/-- Nobody has opened a cache yet; the numbered subdirectories hold what is given. -/
def start (numbers : Finset ℕ) (held : String → Contents D K V) : Stored D K V where
  dirs := .start numbers
  disk := fun dir => if dir ∈ numbers.image toString then held dir else fun _ => none
  cache := none

/-- The `Env` constructor. Both environments find what their directories hold. -/
def construct (v8 : V8) (size : JsNumber) (listing : List String) (stored : Stored D K V) :
    Stored D K V :=
  let dirs := Directories.construct v8 listing stored.dirs
  { stored with
    dirs := dirs
    cache := dirs.envs.map fun envs =>
      ⟨opened size (stored.disk envs.cur.dir) (stored.disk envs.old.dir),
        [envs.old.dir, envs.cur.dir]⟩ }

/-- What the environments that are opened in the given directories find there, by their numbers. -/
def found (stored : Stored D K V) (first : ℕ) (names : List String) (env : ℕ) : Contents D K V :=
  match names[env - first]? with
  | some dir => stored.disk dir
  | none => fun _ => none

/-- What is on the disk once an action has committed what it did. -/
def written (stored : Stored D K V) (dirs : Directories.State) (opened : Opened D K V)
    (dir : String) : Contents D K V :=
  if dir ∈ dirs.dirs then
    match opened.places.idxOf? dir with
    | some env => opened.state.native env
    | none => stored.disk dir
  else fun _ => none

/-- `Env.prototype.rmStale`, of an open cache or a closed one. -/
def rmStale (v8 : V8) (listing : List String) (stored : Stored D K V) : Stored D K V :=
  let dirs := Directories.rmStale v8 listing stored.dirs
  { stored with
    dirs := dirs
    disk := fun dir => if dir ∈ dirs.dirs then stored.disk dir else fun _ => none }

/-- `Env.prototype.close`. -/
def close (stored : Stored D K V) : Stored D K V :=
  { stored with dirs := Directories.close stored.dirs, cache := none }

/-- What the owners of the cache do, one after the other. -/
inductive Action (D K V : Type*) where
  | construct
  | act (action : Cache.Action D K V)
  | rmStale
  | close
deriving DecidableEq, Repr

variable [DecidableEq D] [DecidableEq K]

def Step (v8 : V8) (full : Full D K V) (size : JsNumber) (stored : Stored D K V)
    (action : Action D K V) (next : Stored D K V) : Prop :=
  match action with
  | .construct =>
    stored.cache = none ∧ stored.dirs.envs = none ∧
      ∃ listing, Directories.Lists listing stored.dirs.dirs ∧ next = construct v8 size listing stored
  | .act action =>
    ∃ opened state names dirs depth, stored.cache = some opened ∧
      (actBy (flushBatchOpsOn full (stored.found opened.state.host.next names) depth) action
        opened.state).state? = some state ∧
      -- One directory for every environment that the action has opened.
      state.host.next = opened.state.host.next + names.length ∧
      Runs (Directories.Opens v8) stored.dirs names dirs ∧
      next = ⟨dirs, stored.written dirs ⟨state, opened.places ++ names⟩,
        some ⟨state, opened.places ++ names⟩⟩
  | .rmStale =>
    ∃ listing, Directories.Lists listing stored.dirs.dirs ∧ next = rmStale v8 listing stored
  | .close => stored.cache.isSome ∧ next = close stored

end Stored

end NodeKv.Cache
